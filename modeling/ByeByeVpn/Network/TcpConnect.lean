import ByeByeVpn.Lib.Descriptors
import ByeByeVpn.Lib.Search
import ByeByeVpn.Network.Dns
import ByeByeVpn.Network.EpollWorker

/-!
# Connecting (`network/tcp_scanner.cpp`)

`tcp_connect` tries the addresses of a host one after another, those of IPv4
first. The operating system's answers for an address are data; the calls that
are made are recorded, to see what becomes of the sockets.
-/

namespace ByeByeVpn

open Descriptors (Table)

def isWouldBlockError (err : Int) : Bool := err == EINPROGRESS || err == EWOULDBLOCK

/-- An address, and what the system answers when it is tried: `connect` with
the error behind it, `select` with the two sets, and `SO_ERROR`. -/
structure Candidate extends AddrInfo where
  socket : Fd
  connect : Int
  connectErr : Int
  select : Int
  exSet : Bool
  wrSet : Bool
  soError : Int

inductive SysCall
  | socket (family : AddrFamily) (returned : Fd)
  | setNonblocking (s : Fd) (nb : Bool)
  | connect (s : Fd) (addr : AddrInfo)
  | select (s : Fd) (tvSec tvUsec : Int)
  | getsockopt (s : Fd)
  | closesocket (s : Fd)

/-- One turn of the loop: its calls, and whether it returns the socket. -/
structure Attempt where
  calls : List SysCall
  connected : Bool := false
  sawTimeout : Bool := false
  sawRefused : Bool := false

structure TcpConnect where
  socket : Fd
  err : Bytes
  calls : List SysCall := []

def orderAddresses (family : α → AddrFamily) (ai : List α) : List α :=
  (ai.filter fun p => family p == .inet) ++ ai.filter fun p => family p == .inet6

def tryCandidate (timeoutMs : Int) (c : Candidate) : Attempt :=
  let s := c.socket
  if s = INVALID_SOCKET then { calls := [.socket c.family s] }
  else
    let start : List SysCall :=
      [.socket c.family s, .setNonblocking s true, .connect s c.toAddrInfo]
    if c.connect = 0 then { calls := start ++ [.setNonblocking s false], connected := true }
    else if isWouldBlockError c.connectErr then
      let wait := start ++ [.select s (timeoutMs.tdiv 1000) (timeoutMs.tmod 1000 * 1000)]
      if 0 < c.select then
        if c.exSet then
          { calls := wait ++ [.getsockopt s, .closesocket s]
            sawRefused := isRefusedError c.soError }
        else if c.wrSet then
          if c.soError = 0 then
            { calls := wait ++ [.getsockopt s, .setNonblocking s false], connected := true }
          else
            { calls := wait ++ [.getsockopt s, .closesocket s]
              sawRefused := isRefusedError c.soError }
        else { calls := wait ++ [.closesocket s] }
      else { calls := wait ++ [.closesocket s], sawTimeout := c.select == 0 }
    else { calls := start ++ [.closesocket s], sawRefused := isRefusedError c.connectErr }

def tryCandidates (timeoutMs : Int) (err : Bytes) :
    (sawTimeout sawRefused : Bool) → List Candidate → TcpConnect
  | sawTimeout, sawRefused, [] =>
    { socket := INVALID_SOCKET
      err :=
        if sawRefused then ascii "refused"
        else if sawTimeout then ascii "timeout"
        else ascii "other" }
  | sawTimeout, sawRefused, c :: rest =>
    let t := tryCandidate timeoutMs c
    if t.connected then { socket := c.socket, err := err, calls := t.calls }
    else
      let r := tryCandidates timeoutMs err (sawTimeout || t.sawTimeout)
        (sawRefused || t.sawRefused) rest
      { r with calls := t.calls ++ r.calls }

/-- `err` is what the caller's variable holds before the call. -/
def tcpConnect (ai : Option (List Candidate)) (timeoutMs : Int) (err : Bytes) : TcpConnect :=
  match ai with
  | none => { socket := INVALID_SOCKET, err := ascii "dns" }
  | some ai =>
    tryCandidates timeoutMs err false false (orderAddresses (fun c => c.family) ai)

-- ---------------------------------------------------------------------------
-- What an attempt comes to
-- ---------------------------------------------------------------------------

namespace Candidate

variable (c : Candidate)

def Waits : Prop :=
  c.socket ≠ INVALID_SOCKET ∧ c.connect ≠ 0 ∧ isWouldBlockError c.connectErr = true

def Connects : Prop :=
  c.socket ≠ INVALID_SOCKET ∧ c.connect = 0 ∨
    c.Waits ∧ 0 < c.select ∧ c.exSet = false ∧ c.wrSet = true ∧ c.soError = 0

def IsRefused : Prop :=
  c.socket ≠ INVALID_SOCKET ∧ c.connect ≠ 0 ∧ isWouldBlockError c.connectErr = false ∧
      isRefusedError c.connectErr = true ∨
    c.Waits ∧ 0 < c.select ∧ (c.exSet = true ∨ c.wrSet = true) ∧ isRefusedError c.soError = true

def TimesOut : Prop := c.Waits ∧ c.select = 0

end Candidate

/-- What a call does with the table; the sockets that are open are blocking or not. -/
def SysCall.use : SysCall → List (Descriptors.Call Fd Bool)
  | .socket _ s => if s = INVALID_SOCKET then [] else [.opened s true]
  | .setNonblocking s nb => [.set s !nb]
  | .connect s _ => [.used s]
  | .select s _ _ => [.used s]
  | .getsockopt s => [.used s]
  | .closesocket s => [.closed s]

def uses (calls : List SysCall) : List (Descriptors.Call Fd Bool) := calls.flatMap SysCall.use

variable {timeoutMs : Int} {c : Candidate}

theorem tryCandidate_connected :
    (tryCandidate timeoutMs c).connected = true ↔ c.Connects := by
  unfold tryCandidate Candidate.Connects Candidate.Waits
  grind

theorem tryCandidate_sawRefused (h : ¬c.Connects) :
    (tryCandidate timeoutMs c).sawRefused = true ↔ c.IsRefused := by
  unfold tryCandidate Candidate.IsRefused Candidate.Waits
  unfold Candidate.Connects Candidate.Waits at h
  grind

theorem tryCandidate_sawTimeout :
    (tryCandidate timeoutMs c).sawTimeout = true ↔ c.TimesOut := by
  unfold tryCandidate Candidate.TimesOut Candidate.Waits
  grind

theorem uses_append (calls calls' : List SysCall) :
    uses (calls ++ calls') = uses calls ++ uses calls' := List.flatMap_append

theorem run_tryCandidate (timeoutMs : Int) (c : Candidate) :
    Descriptors.run Descriptors.empty (uses (tryCandidate timeoutMs c).calls) =
      some (if (tryCandidate timeoutMs c).connected then Descriptors.only c.socket true
        else Descriptors.empty) := by
  generalize ht : tryCandidate timeoutMs c = t
  by_cases hs : c.socket = INVALID_SOCKET
  · rw [tryCandidate, if_pos hs] at ht
    subst ht
    simp [uses, SysCall.use, hs]
  · simp only [tryCandidate, if_neg hs] at ht
    split_ifs at ht
    all_goals
      subst ht
      simp [uses, SysCall.use, hs]

-- ---------------------------------------------------------------------------
-- The loop
-- ---------------------------------------------------------------------------

def TcpConnect.table (r : TcpConnect) : Option (Table Fd Bool) :=
  Descriptors.run Descriptors.empty (uses r.calls)

structure TcpConnect.Returned (r : TcpConnect) (c : Candidate) (err : Bytes) : Prop where
  socket : r.socket = c.socket
  err : r.err = err
  table : r.table = some (Descriptors.only c.socket true)

/-- No socket is open, and the error is the first of three that some attempt ended in. -/
structure TcpConnect.Failed (r : TcpConnect) (sawTimeout sawRefused : Prop) : Prop where
  socket : r.socket = INVALID_SOCKET
  refused : sawRefused → r.err = ascii "refused"
  timeout : ¬sawRefused → sawTimeout → r.err = ascii "timeout"
  other : ¬sawRefused → ¬sawTimeout → r.err = ascii "other"
  table : r.table = some Descriptors.empty

theorem table_of_not_connected {calls : List SysCall} {r : TcpConnect}
    (h : Descriptors.run Descriptors.empty (uses calls) = some Descriptors.empty) :
    ({ r with calls := calls ++ r.calls } : TcpConnect).table = r.table := by
  rw [TcpConnect.table, uses_append, Descriptors.run_append, h]
  rfl

theorem tryCandidates_returned {before after : List Candidate} (timeoutMs : Int) (err : Bytes)
    (sawTimeout sawRefused : Bool) (hbefore : ∀ b ∈ before, ¬b.Connects) (hc : c.Connects) :
    (tryCandidates timeoutMs err sawTimeout sawRefused (before ++ c :: after)).Returned c err := by
  induction before generalizing sawTimeout sawRefused with
  | nil =>
    have hconnected : (tryCandidate timeoutMs c).connected = true :=
      tryCandidate_connected.mpr hc
    have htable := run_tryCandidate timeoutMs c
    rw [hconnected, if_pos rfl] at htable
    rw [List.nil_append, tryCandidates, if_pos hconnected]
    exact ⟨rfl, rfl, htable⟩
  | cons b before ih =>
    have hno : (tryCandidate timeoutMs b).connected = false :=
      Bool.eq_false_iff.mpr (tryCandidate_connected.not.mpr (hbefore b List.mem_cons_self))
    have htable := run_tryCandidate timeoutMs b
    rw [hno, if_neg Bool.false_ne_true] at htable
    obtain ⟨hsocket, herr, hrest⟩ := ih (sawTimeout || (tryCandidate timeoutMs b).sawTimeout)
      (sawRefused || (tryCandidate timeoutMs b).sawRefused)
      fun d hd => hbefore d (List.mem_cons_of_mem b hd)
    rw [List.cons_append, tryCandidates, hno, if_neg Bool.false_ne_true]
    exact ⟨hsocket, herr, (table_of_not_connected htable).trans hrest⟩

/-- If none connects, the flags are those of all attempts. -/
theorem tryCandidates_failed {cs : List Candidate} (timeoutMs : Int) (err : Bytes)
    (sawTimeout sawRefused : Bool) (h : ∀ c ∈ cs, ¬c.Connects) :
    (tryCandidates timeoutMs err sawTimeout sawRefused cs).Failed
      (sawTimeout = true ∨ ∃ c ∈ cs, c.TimesOut) (sawRefused = true ∨ ∃ c ∈ cs, c.IsRefused) := by
  induction cs generalizing sawTimeout sawRefused with
  | nil =>
    cases sawTimeout <;> cases sawRefused <;>
      exact ⟨rfl, by simp [tryCandidates], by simp [tryCandidates], by simp [tryCandidates], rfl⟩
  | cons c cs ih =>
    have hc := h c List.mem_cons_self
    have hno : (tryCandidate timeoutMs c).connected = false :=
      Bool.eq_false_iff.mpr (tryCandidate_connected.not.mpr hc)
    have htable := run_tryCandidate timeoutMs c
    rw [hno, if_neg Bool.false_ne_true] at htable
    have hrest := ih (sawTimeout || (tryCandidate timeoutMs c).sawTimeout)
      (sawRefused || (tryCandidate timeoutMs c).sawRefused)
      fun d hd => h d (List.mem_cons_of_mem c hd)
    simp only [Bool.or_eq_true, tryCandidate_sawTimeout, tryCandidate_sawRefused hc, or_assoc,
      ← List.exists_mem_cons_iff] at hrest
    obtain ⟨hsocket, hrefused, htimeout, hother, hend⟩ := hrest
    rw [tryCandidates, hno, if_neg Bool.false_ne_true]
    exact ⟨hsocket, hrefused, htimeout, hother, (table_of_not_connected htable).trans hend⟩

theorem mem_orderAddresses {family : α → AddrFamily} {ai : List α} {p : α} :
    p ∈ orderAddresses family ai ↔ p ∈ ai ∧ family p ≠ .other := by
  simp only [orderAddresses, List.mem_append, List.mem_filter, beq_iff_eq]
  cases family p <;> simp

-- ---------------------------------------------------------------------------
-- The whole function
-- ---------------------------------------------------------------------------

def tried (ai : List Candidate) : List Candidate := orderAddresses (fun c => c.family) ai

theorem mem_tried {ai : List Candidate} : c ∈ tried ai ↔ c ∈ ai ∧ c.family ≠ .other :=
  mem_orderAddresses

theorem Candidate.Connects.socket_ne (h : c.Connects) : c.socket ≠ INVALID_SOCKET := by
  rcases h with ⟨hs, -⟩ | ⟨⟨hs, -⟩, -⟩ <;> exact hs

theorem tcpConnect_returned {ai before after : List Candidate} (timeoutMs : Int) (err : Bytes)
    (hsplit : tried ai = before ++ c :: after) (hbefore : ∀ b ∈ before, ¬b.Connects)
    (hc : c.Connects) : (tcpConnect (some ai) timeoutMs err).Returned c err := by
  rw [tcpConnect, ← tried, hsplit]
  exact tryCandidates_returned timeoutMs err false false hbefore hc

theorem tcpConnect_failed {ai : List Candidate} (timeoutMs : Int) (err : Bytes)
    (h : ∀ c ∈ tried ai, ¬c.Connects) :
    (tcpConnect (some ai) timeoutMs err).Failed (∃ c ∈ tried ai, c.TimesOut)
      (∃ c ∈ tried ai, c.IsRefused) := by
  have hfailed := tryCandidates_failed timeoutMs err false false h
  simp only [Bool.false_eq_true, false_or] at hfailed
  exact hfailed

theorem tcpConnect_valid_iff (ai : List Candidate) (timeoutMs : Int) (err : Bytes) :
    (tcpConnect (some ai) timeoutMs err).socket ≠ INVALID_SOCKET ↔
      ∃ c ∈ ai, c.family ≠ .other ∧ c.Connects := by
  by_cases h : ∃ c ∈ tried ai, c.Connects
  · obtain ⟨before, c, after, hsplit, hbefore, hc⟩ := Search.exists_first h
    refine iff_of_true ?_ ?_
    · rw [(tcpConnect_returned timeoutMs err hsplit hbefore hc).socket]
      exact hc.socket_ne
    · obtain ⟨d, hd, hconnects⟩ := h
      exact ⟨d, (mem_tried.mp hd).1, (mem_tried.mp hd).2, hconnects⟩
  · have hnone : ∀ c ∈ tried ai, ¬c.Connects := fun c hc hconnects => h ⟨c, hc, hconnects⟩
    refine iff_of_false (not_not.mpr (tcpConnect_failed timeoutMs err hnone).socket) ?_
    rintro ⟨c, hc, hf, hconnects⟩
    exact hnone c (mem_tried.mpr ⟨hc, hf⟩) hconnects

/-- Every socket that was opened is closed once, but for the one that is returned. -/
theorem tcpConnect_closes (ai : List Candidate) (timeoutMs : Int) (err : Bytes) (s : Fd) :
    Descriptors.opens s (uses (tcpConnect (some ai) timeoutMs err).calls) =
      Descriptors.closes s (uses (tcpConnect (some ai) timeoutMs err).calls) +
        if (tcpConnect (some ai) timeoutMs err).socket ≠ INVALID_SOCKET ∧
          (tcpConnect (some ai) timeoutMs err).socket = s then 1 else 0 := by
  by_cases h : ∃ c ∈ tried ai, c.Connects
  · obtain ⟨before, c, after, hsplit, hbefore, hc⟩ := Search.exists_first h
    have hr := tcpConnect_returned timeoutMs err hsplit hbefore hc
    have heq := Descriptors.opens_eq hr.table s
    rw [hr.socket]
    by_cases hs : c.socket = s
    · rw [if_pos ⟨hc.socket_ne, hs⟩]
      simpa [Descriptors.only, Descriptors.empty, hs] using heq
    · rw [if_neg fun h => hs h.2]
      simpa [Descriptors.only, Descriptors.empty, Function.update_of_ne (Ne.symm hs)] using heq
  · have hnone : ∀ c ∈ tried ai, ¬c.Connects := fun c hc hconnects => h ⟨c, hc, hconnects⟩
    have hr := tcpConnect_failed timeoutMs err hnone
    rw [if_neg fun h => h.1 hr.socket]
    simpa [Descriptors.empty] using Descriptors.opens_eq hr.table s

/-- `tcp_connect` returns the first socket that connects, and leaves no other
one open. Its error does not depend on the order of the failures. -/
theorem tcpConnect_spec (ai : List Candidate) (timeoutMs : Int) (err : Bytes) :
    ((tcpConnect (some ai) timeoutMs err).socket ≠ INVALID_SOCKET ↔
      ∃ c ∈ ai, c.family ≠ .other ∧ c.Connects) ∧
    (∀ before c after, tried ai = before ++ c :: after → (∀ b ∈ before, ¬b.Connects) →
      c.Connects → (tcpConnect (some ai) timeoutMs err).Returned c err) ∧
    (∀ s, Descriptors.opens s (uses (tcpConnect (some ai) timeoutMs err).calls) =
      Descriptors.closes s (uses (tcpConnect (some ai) timeoutMs err).calls) +
        if (tcpConnect (some ai) timeoutMs err).socket ≠ INVALID_SOCKET ∧
          (tcpConnect (some ai) timeoutMs err).socket = s then 1 else 0) ∧
    ((∀ c ∈ ai, c.family ≠ .other → ¬c.Connects) →
      (tcpConnect (some ai) timeoutMs err).Failed (∃ c ∈ tried ai, c.TimesOut)
        (∃ c ∈ tried ai, c.IsRefused) ∧
      ∀ ai', ai.Perm ai' → (tcpConnect (some ai') timeoutMs err).err =
        (tcpConnect (some ai) timeoutMs err).err) := by
  refine ⟨tcpConnect_valid_iff ai timeoutMs err,
    fun before c after hsplit hbefore hc => tcpConnect_returned timeoutMs err hsplit hbefore hc,
    tcpConnect_closes ai timeoutMs err, fun h => ?_⟩
  have hnone : ∀ c ∈ tried ai, ¬c.Connects :=
    fun c hc => h c (mem_tried.mp hc).1 (mem_tried.mp hc).2
  refine ⟨tcpConnect_failed timeoutMs err hnone, fun ai' hp => ?_⟩
  have hmem (c : Candidate) : c ∈ tried ai' ↔ c ∈ tried ai := by
    rw [mem_tried, mem_tried, hp.mem_iff]
  have hr := tcpConnect_failed timeoutMs err hnone
  have hr' := tcpConnect_failed timeoutMs err fun c hc => hnone c ((hmem c).mp hc)
  simp only [hmem] at hr'
  by_cases hrefused : ∃ c ∈ tried ai, c.IsRefused
  · rw [hr.refused hrefused, hr'.refused hrefused]
  · by_cases htimeout : ∃ c ∈ tried ai, c.TimesOut
    · rw [hr.timeout hrefused htimeout, hr'.timeout hrefused htimeout]
    · rw [hr.other hrefused htimeout, hr'.other hrefused htimeout]

end ByeByeVpn
