import ByeByeVpn.Lib.TlsClient
import ByeByeVpn.Network.TcpConnect

/-!
# Sending on a socket (`network/tcp_scanner.cpp`)

`tcp_send_all` calls `send` until everything is on its way or a call fails.
What `send` answers is data; a list that has run out means a call that has not
come back.
-/

namespace ByeByeVpn

open TlsClient Session

def sendLoop (n : Int) : List Int → Bytes → Session Call Int
  | _, [] => return n
  | [], _ :: _ => ⟨[], none⟩
  | sent :: answers, c :: left => do
    call (.send (c :: left) sent)
    if sent ≤ 0 then return sent else sendLoop n answers ((c :: left).drop sent.toNat)

def tcpSendAll (answers : List Int) (data : Bytes) : Session Call Int :=
  sendLoop data.length answers data

-- ---------------------------------------------------------------------------
-- What reaches the peer
-- ---------------------------------------------------------------------------

def Taken : List Call → Bytes
  | [] => []
  | .send offered returned :: calls => offered.take returned.toNat ++ Taken calls
  | _ :: calls => Taken calls

def answer : Call → Option Int
  | .send _ returned => some returned
  | _ => none

/-- Every call offers what the calls before it have not got rid of, and only
the last one may fail. -/
inductive Sends : Bytes → List Call → Bytes → Prop
  | nothing (left : Bytes) : Sends left [] left
  | failed {left : Bytes} (hne : left ≠ []) {returned : Int} (h : returned ≤ 0) :
      Sends left [.send left returned] left
  | part {left rest : Bytes} (hne : left ≠ []) {returned : Int} {calls : List Call}
      (h : 0 < returned) (more : Sends (left.drop returned.toNat) calls rest) :
      Sends left (.send left returned :: calls) rest

theorem Sends.taken {data rest : Bytes} {calls : List Call} (h : Sends data calls rest) :
    data = Taken calls ++ rest := by
  induction h with
  | nothing left => rfl
  | failed hne h =>
    rw [Taken, Int.toNat_of_nonpos h]
    rfl
  | part hne h more ih => rw [Taken, List.append_assoc, ← ih, List.take_append_drop]

theorem Sends.length_le {data rest : Bytes} {calls : List Call} (h : Sends data calls rest) :
    calls.length ≤ data.length := by
  induction h with
  | nothing left => exact Nat.zero_le _
  | failed hne h => exact List.length_pos_iff.mpr hne
  | @part left rest hne returned calls h more ih =>
    have hpos := List.length_pos_iff.mpr hne
    rw [List.length_drop] at ih
    rw [List.length_cons]
    omega

/-- What is left when the loop returns, and what it returns: the size, or what
the last call returned, which failed. -/
structure Returned (n : Int) (calls : List Call) (rest : Bytes) (r : Int) : Prop where
  done : rest = [] → r = n
  failed : rest ≠ [] → r ≤ 0 ∧ calls.getLast? = some (.send rest r)

/-- The loop still waits for a call, when all answers so far were used. -/
structure Awaits (answers : List Int) (calls : List Call) (rest : Bytes) : Prop where
  rest : rest ≠ []
  calls : calls.length = answers.length

theorem Returned.cons {n r : Int} {calls : List Call} {rest : Bytes}
    (h : Returned n calls rest r) (c : Call) : Returned n (c :: calls) rest r := by
  refine ⟨h.done, fun hne => ?_⟩
  obtain ⟨hr, hlast⟩ := h.failed hne
  refine ⟨hr, ?_⟩
  rw [List.getLast?_cons, hlast]
  rfl

theorem sendLoop_sends (n : Int) (answers : List Int) (left : Bytes) :
    ∃ rest, Sends left (sendLoop n answers left).calls rest ∧
      (∀ r, (sendLoop n answers left).result = some r →
        Returned n (sendLoop n answers left).calls rest r) ∧
      ((sendLoop n answers left).result = none →
        Awaits answers (sendLoop n answers left).calls rest) ∧
      (left.length ≤ answers.length → (sendLoop n answers left).result.isSome) := by
  induction answers generalizing left with
  | nil =>
    cases left with
    | nil =>
      refine ⟨[], .nothing [], fun r hr => ?_, fun h => (by cases h), fun _ => rfl⟩
      obtain rfl : n = r := Option.some.inj hr
      exact ⟨fun _ => rfl, fun h => absurd rfl h⟩
    | cons c left =>
      refine ⟨c :: left, .nothing _, fun r hr => ?_, fun _ => ⟨List.cons_ne_nil _ _, rfl⟩,
        fun h => absurd h (by simp)⟩
      cases hr
  | cons sent answers ih =>
    cases left with
    | nil =>
      refine ⟨[], .nothing [], fun r hr => ?_, fun h => (by cases h), fun _ => rfl⟩
      obtain rfl : n = r := Option.some.inj hr
      exact ⟨fun _ => rfl, fun h => absurd rfl h⟩
    | cons c left =>
      by_cases hs : sent ≤ 0
      · have heq : sendLoop n (sent :: answers) (c :: left) =
            ⟨[.send (c :: left) sent], some sent⟩ := by
          rw [sendLoop, if_pos hs]
          rfl
        rw [heq]
        refine ⟨c :: left, .failed (List.cons_ne_nil _ _) hs, fun r hr => ?_,
          fun h => (by cases h), fun _ => rfl⟩
        obtain rfl : sent = r := Option.some.inj hr
        exact ⟨fun h => absurd h (List.cons_ne_nil _ _), fun _ => ⟨hs, rfl⟩⟩
      · have heq : sendLoop n (sent :: answers) (c :: left) =
            ⟨.send (c :: left) sent :: (sendLoop n answers ((c :: left).drop sent.toNat)).calls,
              (sendLoop n answers ((c :: left).drop sent.toNat)).result⟩ := by
          rw [sendLoop, if_neg hs]
          rfl
        obtain ⟨rest, hsends, hreturned, hwaits, hdone⟩ := ih ((c :: left).drop sent.toNat)
        rw [heq]
        refine ⟨rest, .part (List.cons_ne_nil _ _) (by omega) hsends,
          fun r hr => (hreturned r hr).cons _, fun hnone => ?_, fun hlen => hdone ?_⟩
        · obtain ⟨hne, hcalls⟩ := hwaits hnone
          exact ⟨hne, congrArg (· + 1) hcalls⟩
        · rw [List.length_drop]
          rw [List.length_cons, List.length_cons] at *
          omega

theorem answers_sendLoop (n : Int) (answers : List Int) (left : Bytes) :
    (sendLoop n answers left).calls.filterMap answer <+: answers := by
  induction answers generalizing left with
  | nil =>
    cases left with
    | nil => exact List.nil_prefix
    | cons c left => exact List.nil_prefix
  | cons sent answers ih =>
    cases left with
    | nil => exact List.nil_prefix
    | cons c left =>
      by_cases hs : sent ≤ 0
      · rw [sendLoop, if_pos hs]
        exact ⟨answers, rfl⟩
      · rw [sendLoop, if_neg hs]
        exact List.cons_prefix_cons.mpr ⟨rfl, ih _⟩

theorem Returned.all_iff {data rest : Bytes} {calls : List Call} {r : Int}
    (h : Returned data.length calls rest r) (hsends : Sends data calls rest) :
    r = data.length ↔ rest = [] := by
  refine ⟨fun hr => ?_, h.done⟩
  by_contra hne
  have hlen := congrArg List.length hsends.taken
  have hpos := List.length_pos_iff.mpr hne
  have hle := (h.failed hne).1
  rw [List.length_append] at hlen
  omega

/-- Whatever `send` answers: what the peer has got is the beginning of the
data, each call offers just the rest, and the size is returned only if nothing
is left. Only a call that failed, or that has not come back, leaves a rest. -/
theorem tcpSendAll_delivers (answers : List Int) (data : Bytes) :
    ∃ rest, Sends data (tcpSendAll answers data).calls rest ∧
      (tcpSendAll answers data).calls.filterMap answer <+: answers ∧
      data = Taken (tcpSendAll answers data).calls ++ rest ∧
      (tcpSendAll answers data).calls.length ≤ data.length ∧
      (∀ r, (tcpSendAll answers data).result = some r →
        (r = data.length ↔ rest = []) ∧
        (r ≠ data.length → r ≤ 0 ∧
          (tcpSendAll answers data).calls.getLast? = some (.send rest r))) ∧
      ((tcpSendAll answers data).result = none →
        Awaits answers (tcpSendAll answers data).calls rest) ∧
      (data.length ≤ answers.length → (tcpSendAll answers data).result.isSome) := by
  obtain ⟨rest, hsends, hreturned, hawaits, hdone⟩ := sendLoop_sends data.length answers data
  refine ⟨rest, hsends, answers_sendLoop _ _ _, hsends.taken, hsends.length_le, fun r hr => ?_,
    hawaits, hdone⟩
  have hall := (hreturned r hr).all_iff hsends
  exact ⟨hall, fun hne => (hreturned r hr).failed fun hnil => hne (hall.mpr hnil)⟩

end ByeByeVpn
