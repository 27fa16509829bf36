import ByeByeVpn.Core.Utils
import ByeByeVpn.Lib.LengthPrefixed
import ByeByeVpn.Lib.TlsClient
import Mathlib.Data.List.Chain

/-!
# The handshake of the TLS probe (`network/tls_probe.cpp`)

`tls_probe` offers a list of protocols and calls `SSL_connect` on a
non-blocking socket, waiting in between until the socket is ready or the time
is up. The answers of the library, of the clock and of `select` are data.
-/

namespace ByeByeVpn

open TlsClient Session

-- ---------------------------------------------------------------------------
-- The protocols on offer
-- ---------------------------------------------------------------------------

def alpnNames (alpn : Bytes) : List Bytes :=
  ((split alpn (chr ',')).map trim).filter fun v => !(v.isEmpty || 255 < v.length)

def alpnWire (alpn : Bytes) : Bytes := LengthPrefixed.encode (alpnNames alpn)

theorem fits_of_mem_alpnNames {alpn v : Bytes} (h : v ∈ alpnNames alpn) :
    LengthPrefixed.Fits v := by
  have hv := (List.mem_filter.mp h).2
  simp only [Bool.not_eq_true', Bool.or_eq_false_iff, List.isEmpty_eq_false_iff,
    decide_eq_false_iff_not, Nat.not_lt] at hv
  exact ⟨List.length_pos_iff.mpr hv.1, hv.2⟩

theorem splitFrom_eq (sep : UInt8) (current text : Bytes) :
    splitFrom sep current text = (text.splitOn sep).modifyHead (current ++ ·) := by
  induction text generalizing current with
  | nil => simp [splitFrom]
  | cons c text ih =>
    rw [splitFrom, List.splitOn_cons_eq_if_modifyHead]
    by_cases hc : c = sep
    · rw [if_pos hc, if_pos (beq_iff_eq.mpr hc), ih, List.modifyHead_cons, List.append_nil,
        show ([] ++ · : Bytes → Bytes) = id from rfl, List.modifyHead_id, id]
    · rw [if_neg hc, if_neg (mt beq_iff_eq.mp hc), ih, List.modifyHead_modifyHead]
      exact congrArg (List.modifyHead · _) (funext fun t => List.append_assoc current [c] t)

theorem split_eq (sep : UInt8) (text : Bytes) : split text sep = text.splitOn sep := by
  rw [split, splitFrom_eq, show ([] ++ · : Bytes → Bytes) = id from rfl, List.modifyHead_id, id]

/-- Whatever the list, its wire form is read back as the names in it, in their
order; and names without commas and blanks around them can all be offered. -/
theorem alpnWire_decodes (alpn : Bytes) :
    LengthPrefixed.decode (alpnWire alpn) = some (alpnNames alpn) ∧
    (∀ wire, LengthPrefixed.decode wire = LengthPrefixed.decode (alpnWire alpn) →
      wire = alpnWire alpn) ∧
    ∀ ns : List Bytes, (∀ n ∈ ns, LengthPrefixed.Fits n ∧ chr ',' ∉ n ∧ trim n = n) →
      LengthPrefixed.decode (alpnWire ([chr ','].intercalate ns)) = some ns := by
  have hdecode (alpn : Bytes) :
      LengthPrefixed.decode (alpnWire alpn) = some (alpnNames alpn) :=
    LengthPrefixed.decode_encode fun v hv => fits_of_mem_alpnNames hv
  refine ⟨hdecode alpn, fun wire h => ?_, fun ns hns => ?_⟩
  · exact (LengthPrefixed.decode_eq_some_iff.mp (h.trans (hdecode alpn))).1
  · rw [hdecode]
    cases ns with
    | nil => rfl
    | cons n ns =>
      have htrim : (n :: ns).map trim = n :: ns :=
        (List.map_congr_left fun m hm => (hns m hm).2.2).trans (List.map_id _)
      rw [alpnNames, split_eq, List.splitOn_intercalate _ (fun m hm => (hns m hm).2.1)
        (List.cons_ne_nil _ _), htrim, List.filter_eq_self.mpr fun m hm => ?_]
      obtain ⟨hpos, hle⟩ := (hns m hm).1
      simpa using ⟨List.length_pos_iff.mp hpos, hle⟩

-- ---------------------------------------------------------------------------
-- The loop
-- ---------------------------------------------------------------------------

def SSL_ERROR_WANT_READ : Int := 2
def SSL_ERROR_WANT_WRITE : Int := 3

structure HandshakeTurn where
  /-- What `SSL_connect` returns. -/
  rc : Int
  sslErr : Int
  /-- In nanoseconds since the start of the probe. -/
  now : Nat
  select : Int
  strerror : Bytes

inductive HandshakeEnd
  | established
  | timedOut
  | selectFailed (text : Bytes)
  | failed

namespace HandshakeTurn

variable (deadline : Int) (t : HandshakeTurn)

def wantsRead : Bool := t.sslErr == SSL_ERROR_WANT_READ
def wantsWrite : Bool := t.sslErr == SSL_ERROR_WANT_WRITE

/-- In milliseconds. -/
def remaining : Int := (deadline - t.now).tdiv 1000000

def tvSec : Int := (t.remaining deadline).tdiv 1000
def tvUsec : Int := (t.remaining deadline).tmod 1000 * 1000

def wait : Call := .select t.wantsRead t.wantsWrite (t.tvSec deadline) (t.tvUsec deadline)

end HandshakeTurn

def handshakeLoop (deadline : Int) : List HandshakeTurn → Session Call HandshakeEnd
  | [] => ⟨[], none⟩
  | t :: turns => do
    call (.handshake t.rc)
    if t.rc = 1 then return .established
    else if t.wantsRead || t.wantsWrite then
      if deadline ≤ t.now then return .timedOut
      else do
        call (t.wait deadline)
        if t.select = 0 then return .timedOut
        else if t.select < 0 then return .selectFailed t.strerror
        else handshakeLoop deadline turns
    else return .failed

namespace HandshakeTurn

variable {deadline : Int} {t : HandshakeTurn}

/-- The connection is not there yet, and time is left. -/
structure Waits (deadline : Int) (t : HandshakeTurn) : Prop where
  rc : t.rc ≠ 1
  wants : (t.wantsRead || t.wantsWrite) = true
  early : t.now < deadline

structure GoesOn (deadline : Int) (t : HandshakeTurn) : Prop extends Waits deadline t where
  ready : 0 < t.select

inductive Ends (deadline : Int) (t : HandshakeTurn) : HandshakeEnd → Prop
  | established (rc : t.rc = 1) : Ends deadline t .established
  | late (rc : t.rc ≠ 1) (wants : (t.wantsRead || t.wantsWrite) = true)
      (late : deadline ≤ t.now) : Ends deadline t .timedOut
  | unready (waits : Waits deadline t) (select : t.select = 0) : Ends deadline t .timedOut
  | selectFailed (waits : Waits deadline t) (select : t.select < 0) :
      Ends deadline t (.selectFailed t.strerror)
  | failed (rc : t.rc ≠ 1) (wants : (t.wantsRead || t.wantsWrite) = false) :
      Ends deadline t .failed

def waitNs (deadline : Int) (t : HandshakeTurn) : Int :=
  (t.tvSec deadline * 1000000 + t.tvUsec deadline) * 1000

/-- The time for `select` is well formed, and it ends at the deadline or less
than a millisecond before. -/
structure InTime (deadline : Int) (t : HandshakeTurn) : Prop where
  sec : 0 ≤ t.tvSec deadline
  usec : 0 ≤ t.tvUsec deadline ∧ t.tvUsec deadline < 1000000
  ends : t.now + t.waitNs deadline ≤ deadline ∧ deadline < t.now + t.waitNs deadline + 1000000

theorem inTime (h : t.now < deadline) : InTime deadline t := by
  have hdiv : t.remaining deadline = (deadline - t.now) / 1000000 :=
    Int.tdiv_eq_ediv_of_nonneg (by omega)
  have hnonneg : 0 ≤ t.remaining deadline := hdiv ▸ Int.ediv_nonneg (by omega) (by omega)
  have hsec : t.tvSec deadline = t.remaining deadline / 1000 :=
    Int.tdiv_eq_ediv_of_nonneg hnonneg
  have husec : t.tvUsec deadline = t.remaining deadline % 1000 * 1000 := by
    rw [tvUsec, Int.tmod_eq_emod_of_nonneg hnonneg]
  refine ⟨by omega, by omega, ?_⟩
  rw [waitNs, hsec, husec]
  omega

theorem Waits.direction (h : Waits deadline t) : t.wantsRead = !t.wantsWrite := by
  have hwants := h.wants
  by_cases hread : t.sslErr = SSL_ERROR_WANT_READ
  · simp [wantsRead, wantsWrite, hread, show ¬SSL_ERROR_WANT_READ = SSL_ERROR_WANT_WRITE by decide]
  · have hwrite : t.sslErr = SSL_ERROR_WANT_WRITE := by
      simpa [wantsRead, wantsWrite, hread] using hwants
    simp [wantsRead, wantsWrite, hwrite, show ¬SSL_ERROR_WANT_WRITE = SSL_ERROR_WANT_READ by decide]

end HandshakeTurn

-- ---------------------------------------------------------------------------
-- The run
-- ---------------------------------------------------------------------------

variable {deadline : Int} {turns : List HandshakeTurn}

/-- A turn that goes on leaves the rest to the turns behind it. -/
theorem handshakeLoop_goesOn {t : HandshakeTurn} (h : t.GoesOn deadline) :
    handshakeLoop deadline (t :: turns) =
      ⟨.handshake t.rc :: t.wait deadline :: (handshakeLoop deadline turns).calls,
        (handshakeLoop deadline turns).result⟩ := by
  have hready := h.ready
  rw [handshakeLoop, if_neg h.rc, if_pos h.wants, if_neg (Int.not_le.mpr h.early),
    if_neg (by omega), if_neg (by omega)]
  rfl

theorem handshakeLoop_ends {t : HandshakeTurn} (h : ¬t.GoesOn deadline)
    (turns : List HandshakeTurn) :
    ∃ e, t.Ends deadline e ∧ (handshakeLoop deadline (t :: turns)).result = some e ∧
      ((handshakeLoop deadline (t :: turns)).calls = [.handshake t.rc] ∨
        t.Waits deadline ∧
          (handshakeLoop deadline (t :: turns)).calls = [.handshake t.rc, t.wait deadline]) := by
  rw [handshakeLoop]
  by_cases hrc : t.rc = 1
  · rw [if_pos hrc]
    exact ⟨_, .established hrc, rfl, .inl rfl⟩
  rw [if_neg hrc]
  by_cases hwants : (t.wantsRead || t.wantsWrite) = true
  · rw [if_pos hwants]
    by_cases hlate : deadline ≤ t.now
    · rw [if_pos hlate]
      exact ⟨_, .late hrc hwants hlate, rfl, .inl rfl⟩
    rw [if_neg hlate]
    have hwaits : t.Waits deadline := ⟨hrc, hwants, Int.not_le.mp hlate⟩
    by_cases hzero : t.select = 0
    · rw [if_pos hzero]
      exact ⟨_, .unready hwaits hzero, rfl, .inr ⟨hwaits, rfl⟩⟩
    · have hneg : t.select < 0 := by
        have hready : ¬0 < t.select := fun hpos => h ⟨hwaits, hpos⟩
        omega
      rw [if_neg hzero, if_pos hneg]
      exact ⟨_, .selectFailed hwaits hneg, rfl, .inr ⟨hwaits, rfl⟩⟩
  · rw [if_neg hwants]
    exact ⟨_, .failed hrc (Bool.eq_false_iff.mpr hwants), rfl, .inl rfl⟩

theorem handshakeLoop_none_iff (deadline : Int) (turns : List HandshakeTurn) :
    (handshakeLoop deadline turns).result = none ↔ ∀ t ∈ turns, t.GoesOn deadline := by
  induction turns with
  | nil => exact iff_of_true rfl fun _ h => nomatch h
  | cons t turns ih =>
    rw [List.forall_mem_cons]
    by_cases h : t.GoesOn deadline
    · rw [handshakeLoop_goesOn h, ih, and_iff_right h]
    · obtain ⟨e, -, he, -⟩ := handshakeLoop_ends h turns
      exact iff_of_false (by simp [he]) fun hall => h hall.1

/-- The loop ends with the first turn that does not go on. -/
theorem handshakeLoop_some {e : HandshakeEnd}
    (h : (handshakeLoop deadline turns).result = some e) :
    ∃ before t after, turns = before ++ t :: after ∧ (∀ b ∈ before, b.GoesOn deadline) ∧
      t.Ends deadline e := by
  induction turns with
  | nil => cases h
  | cons t turns ih =>
    by_cases ht : t.GoesOn deadline
    · rw [handshakeLoop_goesOn ht] at h
      obtain ⟨before, u, after, rfl, hbefore, hu⟩ := ih h
      exact ⟨t :: before, u, after, rfl, List.forall_mem_cons.mpr ⟨ht, hbefore⟩, hu⟩
    · obtain ⟨e', he', hresult, -⟩ := handshakeLoop_ends ht turns
      obtain rfl : e' = e := Option.some.inj (hresult.symm.trans h)
      exact ⟨[], t, turns, rfl, fun _ h => (nomatch h), he'⟩

theorem waits_of_mem_calls {r w : Bool} {sec usec : Int}
    (h : Call.select r w sec usec ∈ (handshakeLoop deadline turns).calls) :
    ∃ t ∈ turns, t.Waits deadline ∧ Call.select r w sec usec = t.wait deadline := by
  induction turns with
  | nil => cases h
  | cons t turns ih =>
    by_cases ht : t.GoesOn deadline
    · rw [handshakeLoop_goesOn ht, List.mem_cons, List.mem_cons] at h
      obtain h | h | h := h
      · cases h
      · exact ⟨t, List.mem_cons_self, ht.toWaits, h⟩
      · obtain ⟨u, hu, hwaits⟩ := ih h
        exact ⟨u, List.mem_cons_of_mem t hu, hwaits⟩
    · obtain ⟨-, -, -, hcalls | ⟨hwaits, hcalls⟩⟩ := handshakeLoop_ends ht turns
      · rw [hcalls, List.mem_singleton] at h
        cases h
      · rw [hcalls, List.mem_cons, List.mem_singleton] at h
        obtain h | h := h
        · cases h
        · exact ⟨t, List.mem_cons_self, hwaits, h⟩

-- ---------------------------------------------------------------------------
-- Time
-- ---------------------------------------------------------------------------

/-- Between two turns at most the time for `select` goes by, and `cost`. -/
def Prompt (deadline : Int) (cost : Nat) (turns : List HandshakeTurn) : Prop :=
  turns.IsChain fun t u => (u.now : Int) ≤ t.now + t.waitNs deadline + cost

/-- At least `tick` goes by between two turns. -/
def Ticks (tick : Nat) (turns : List HandshakeTurn) : Prop :=
  turns.IsChain fun t u => t.now + tick ≤ u.now

theorem now_le_of_prompt {before after : List HandshakeTurn} {t : HandshakeTurn} {cost : Nat}
    (hbefore : ∀ b ∈ before, b.GoesOn deadline)
    (hprompt : Prompt deadline cost (before ++ t :: after))
    (hfirst : ∀ u ∈ (before ++ t :: after).head?, (u.now : Int) ≤ deadline + cost) :
    (t.now : Int) ≤ deadline + cost := by
  induction before with
  | nil => exact hfirst t rfl
  | cons b before ih =>
    obtain ⟨hb, hbefore⟩ := List.forall_mem_cons.mp hbefore
    have hends := (HandshakeTurn.inTime hb.early).ends.1
    rw [Prompt, List.cons_append, List.isChain_cons] at hprompt
    refine ih hbefore hprompt.2 fun u hu => ?_
    have hu := hprompt.1 u hu
    omega

theorem now_of_ticks {tick : Nat} {t : HandshakeTurn} (h : Ticks tick (t :: turns)) :
    ∃ u ∈ t :: turns, t.now + tick * turns.length ≤ u.now := by
  induction turns generalizing t with
  | nil => exact ⟨t, List.mem_cons_self, Nat.le_refl _⟩
  | cons v turns ih =>
    obtain ⟨htick, hrest⟩ := List.isChain_cons_cons.mp h
    obtain ⟨u, hu, hle⟩ := ih hrest
    refine ⟨u, List.mem_cons_of_mem t hu, ?_⟩
    rw [List.length_cons, Nat.mul_succ]
    omega

/-- Whatever the library, the clock and `select` answer: the loop goes on as
long as the connection needs the socket, time is left and the socket is ready.
It waits in one direction at a time and never past the deadline, and a timeout
is not reported more than a millisecond before it. -/
theorem handshakeLoop_keeps_deadline (toMs : Int) (turns : List HandshakeTurn) :
    let deadline := toMs * 1000000
    let run := handshakeLoop deadline turns
    (run.result = none ↔ ∀ t ∈ turns, t.GoesOn deadline) ∧
    (∀ r w sec usec, Call.select r w sec usec ∈ run.calls → (r = !w) ∧ 0 ≤ sec ∧
      (0 ≤ usec ∧ usec < 1000000) ∧ ∃ t ∈ turns, t.now + (sec * 1000000 + usec) * 1000 ≤ deadline ∧
        deadline < t.now + (sec * 1000000 + usec) * 1000 + 1000000) ∧
    (∀ e, run.result = some e → ∃ before t after, turns = before ++ t :: after ∧
      (∀ b ∈ before, b.GoesOn deadline) ∧ t.Ends deadline e ∧
      ∀ cost, Prompt deadline cost turns → (∀ u ∈ turns.head?, (u.now : Int) ≤ deadline + cost) →
        (t.now : Int) ≤ deadline + cost) ∧
    ∀ tick, Ticks tick turns → deadline + tick ≤ tick * turns.length → 0 < turns.length →
      run.result.isSome := by
  intro deadline run
  refine ⟨handshakeLoop_none_iff deadline turns, fun r w sec usec h => ?_, fun e he => ?_,
    fun tick hticks hlen hpos => ?_⟩
  · obtain ⟨t, ht, hwaits, heq⟩ := waits_of_mem_calls h
    obtain ⟨rfl, rfl, rfl, rfl⟩ : r = t.wantsRead ∧ w = t.wantsWrite ∧ sec = t.tvSec deadline ∧
        usec = t.tvUsec deadline := by simpa [HandshakeTurn.wait] using heq
    have hin := HandshakeTurn.inTime hwaits.early
    exact ⟨hwaits.direction, hin.sec, hin.usec, t, ht, hin.ends⟩
  · obtain ⟨before, t, after, hsplit, hbefore, hends⟩ := handshakeLoop_some he
    refine ⟨before, t, after, hsplit, hbefore, hends, fun cost hprompt hfirst => ?_⟩
    rw [hsplit] at hprompt hfirst
    exact now_le_of_prompt hbefore hprompt hfirst
  · rw [Option.isSome_iff_ne_none]
    intro hnone
    have hall := (handshakeLoop_none_iff deadline turns).mp hnone
    obtain ⟨t, rest, rfl⟩ := List.exists_cons_of_length_pos hpos
    obtain ⟨u, hu, hle⟩ := now_of_ticks hticks
    have hearly := (hall u hu).early
    rw [List.length_cons, Int.natCast_add, Int.mul_add, Int.natCast_one, Int.mul_one] at hlen
    have hle' : (t.now : Int) + tick * rest.length ≤ u.now := by exact_mod_cast hle
    omega

end ByeByeVpn
