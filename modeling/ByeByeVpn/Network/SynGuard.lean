import ByeByeVpn.Lib.Runs
import Mathlib.Logic.Function.Basic

/-!
# The signal guard of the SYN scan (`network/tcp_async_scan.cpp`)

`SynAbortSignalGuard` takes a mutex, clears the abort flag and puts a handler
in for SIGINT and SIGTERM; at its end the old handlers come back before the
mutex is released. Any number of threads scan, and signals arrive at any time.
-/

namespace ByeByeVpn.SynGuard

open Runs

inductive StopSignal
  | int
  | term
  deriving DecidableEq

/-- What happens at a signal: what the process had, or `syn_abort_signal_handler`. -/
inductive Handler (δ : Type*)
  | own (d : δ)
  | abort
  deriving DecidableEq

/-- Where a thread is in its scan, with what it has kept of the old handlers. -/
inductive Point (δ : Type*)
  | outside
  | locked
  | cleared
  | intInstalled (oldInt : Handler δ)
  | undoing (oldInt : Handler δ)
  /-- The handlers are saved if both were put in. -/
  | scanning (saved : Option (Handler δ × Handler δ))
  | leaving (oldInt oldTerm : Handler δ)
  | intRestored (oldTerm : Handler δ)
  | unlocking
  deriving DecidableEq

/-- The first argument is the thread; `sigaction` may fail. -/
inductive Act (τ : Type*)
  | lock (t : τ)
  | clear (t : τ)
  | installInt (t : τ) (ok : Bool)
  | installTerm (t : τ) (ok : Bool)
  | undoInt (t : τ) (ok : Bool)
  | finish (t : τ)
  | restoreInt (t : τ) (ok : Bool)
  | restoreTerm (t : τ) (ok : Bool)
  | unlock (t : τ)
  | deliver (sig : StopSignal)
  deriving DecidableEq

structure State (τ δ : Type*) where
  mutex : Option τ := none
  point : τ → Point δ := fun _ => .outside
  /-- `g_syn_abort` -/
  flag : Bool := false
  int : Handler δ
  term : Handler δ
  /-- How many signals the handler has got, and how many when a thread cleared
  the flag. -/
  handled : Nat := 0
  since : τ → Nat := fun _ => 0

variable {τ δ : Type*}

namespace State

def at' [DecidableEq τ] (s : State τ δ) (t : τ) (p : Point δ) : State τ δ :=
  { s with point := Function.update s.point t p }

def handler (s : State τ δ) : StopSignal → Handler δ
  | .int => s.int
  | .term => s.term

/-- `sigaction`, which leaves everything as it is when it fails. -/
def sigaction (s : State τ δ) (sig : StopSignal) (h : Handler δ) (ok : Bool) : State τ δ :=
  match ok, sig with
  | false, _ => s
  | true, .int => { s with int := h }
  | true, .term => { s with term := h }

end State

/-- A signal that the process handles itself changes nothing here. -/
def deliver (s : State τ δ) (sig : StopSignal) : State τ δ :=
  match s.handler sig with
  | .own _ => s
  | .abort => { s with flag := true, handled := s.handled + 1 }

def step [DecidableEq τ] (s : State τ δ) : Act τ → Option (State τ δ)
  | .lock t =>
    match s.mutex, s.point t with
    | none, .outside => some ({ s with mutex := some t }.at' t .locked)
    | _, _ => none
  | .clear t =>
    match s.point t with
    | .locked =>
      some ({ s with flag := false, since := Function.update s.since t s.handled }.at' t .cleared)
    | _ => none
  | .installInt t ok =>
    match s.point t with
    | .cleared =>
      some ((s.sigaction .int .abort ok).at' t
        (if ok then .intInstalled s.int else .scanning none))
    | _ => none
  | .installTerm t ok =>
    match s.point t with
    | .intInstalled oldInt =>
      some ((s.sigaction .term .abort ok).at' t
        (if ok then .scanning (some (oldInt, s.term)) else .undoing oldInt))
    | _ => none
  | .undoInt t ok =>
    match s.point t with
    | .undoing oldInt => some ((s.sigaction .int oldInt ok).at' t (.scanning none))
    | _ => none
  | .finish t =>
    match s.point t with
    | .scanning (some (oldInt, oldTerm)) => some (s.at' t (.leaving oldInt oldTerm))
    | .scanning none => some (s.at' t .unlocking)
    | _ => none
  | .restoreInt t ok =>
    match s.point t with
    | .leaving oldInt oldTerm => some ((s.sigaction .int oldInt ok).at' t (.intRestored oldTerm))
    | _ => none
  | .restoreTerm t ok =>
    match s.point t with
    | .intRestored oldTerm => some ((s.sigaction .term oldTerm ok).at' t .unlocking)
    | _ => none
  | .unlock t =>
    match s.point t with
    | .unlocking => some ({ s with mutex := none }.at' t .outside)
    | _ => none
  | .deliver sig => some (deliver s sig)

def Restores : Act τ → Prop
  | .undoInt _ ok => ok = true
  | .restoreInt _ ok => ok = true
  | .restoreTerm _ ok => ok = true
  | _ => True

def start (int term : δ) : State τ δ := { int := .own int, term := .own term }

-- ---------------------------------------------------------------------------
-- The invariant
-- ---------------------------------------------------------------------------

/-- What is saved and what is installed while a thread is at a point. -/
def Installed (int term : δ) (s : State τ δ) : Point δ → Prop
  | .outside => False
  | .locked => s.int = .own int ∧ s.term = .own term
  | .cleared => s.int = .own int ∧ s.term = .own term
  | .intInstalled oldInt => oldInt = .own int ∧ s.int = .abort ∧ s.term = .own term
  | .undoing oldInt => oldInt = .own int ∧ s.int = .abort ∧ s.term = .own term
  | .scanning none => s.int = .own int ∧ s.term = .own term
  | .scanning (some (oldInt, oldTerm)) =>
    (oldInt = .own int ∧ oldTerm = .own term) ∧ s.int = .abort ∧ s.term = .abort
  | .leaving oldInt oldTerm =>
    (oldInt = .own int ∧ oldTerm = .own term) ∧ s.int = .abort ∧ s.term = .abort
  | .intRestored oldTerm => oldTerm = .own term ∧ s.int = .own int ∧ s.term = .abort
  | .unlocking => s.int = .own int ∧ s.term = .own term

/-- The flag tells whether a signal has come since the thread cleared it. -/
def Fresh (s : State τ δ) (t : τ) : Prop :=
  s.since t ≤ s.handled ∧ (s.flag = true ↔ s.since t < s.handled)

structure Holds (int term : δ) (s : State τ δ) (t : τ) : Prop where
  alone : ∀ u, u ≠ t → s.point u = .outside
  installed : Installed int term s (s.point t)
  fresh : s.point t ≠ .locked → Fresh s t

structure Idle (int term : δ) (s : State τ δ) : Prop where
  outside : ∀ u, s.point u = .outside
  int : s.int = .own int
  term : s.term = .own term

def Inv (int term : δ) (s : State τ δ) : Prop :=
  match s.mutex with
  | none => Idle int term s
  | some t => Holds int term s t

variable {int term : δ} {s u : State τ δ} {t : τ}

theorem inv_start (int term : δ) : Inv int term (start int term : State τ δ) :=
  ⟨fun _ => rfl, rfl, rfl⟩

/-- A thread that is inside has the mutex. -/
theorem Inv.holds (h : Inv int term s) (hp : s.point t ≠ .outside) :
    s.mutex = some t ∧ Holds int term s t := by
  unfold Inv at h
  cases hm : s.mutex with
  | none =>
    rw [hm] at h
    exact absurd (h.outside t) hp
  | some v =>
    rw [hm] at h
    obtain rfl : t = v := by
      by_contra hne
      exact hp (h.alone t hne)
    exact ⟨rfl, h⟩

theorem Inv.of_holds (hm : s.mutex = some t) (h : Holds int term s t) : Inv int term s := by
  rw [Inv, hm]
  exact h

@[simp] theorem flag_sigaction (s : State τ δ) (sig : StopSignal) (h : Handler δ) (ok : Bool) :
    (s.sigaction sig h ok).flag = s.flag := by
  cases ok <;> cases sig <;> rfl

@[simp] theorem handled_sigaction (s : State τ δ) (sig : StopSignal) (h : Handler δ) (ok : Bool) :
    (s.sigaction sig h ok).handled = s.handled := by
  cases ok <;> cases sig <;> rfl

@[simp] theorem since_sigaction (s : State τ δ) (sig : StopSignal) (h : Handler δ) (ok : Bool) :
    (s.sigaction sig h ok).since = s.since := by
  cases ok <;> cases sig <;> rfl

@[simp] theorem point_sigaction (s : State τ δ) (sig : StopSignal) (h : Handler δ) (ok : Bool) :
    (s.sigaction sig h ok).point = s.point := by
  cases ok <;> cases sig <;> rfl

@[simp] theorem mutex_sigaction (s : State τ δ) (sig : StopSignal) (h : Handler δ) (ok : Bool) :
    (s.sigaction sig h ok).mutex = s.mutex := by
  cases ok <;> cases sig <;> rfl

theorem Holds.restrict (h : Holds int term s t) {p : Point δ} (hpt : s.point t = p) :
    Installed int term s p := hpt ▸ h.installed

theorem deliver_inv (h : Inv int term s) (sig : StopSignal) : Inv int term (deliver s sig) := by
  unfold deliver
  cases hsig : s.handler sig with
  | own d => exact h
  | abort =>
    unfold Inv at h ⊢
    cases hm : s.mutex with
    | none =>
      rw [hm] at h
      have hint := h.int
      have hterm := h.term
      cases sig <;> simp_all [State.handler]
    | some t =>
      rw [hm] at h
      refine ⟨h.alone, ?_, fun hlocked => ?_⟩
      · have hin := h.installed
        cases hp : s.point t with
        | scanning saved =>
          rw [hp] at hin
          cases saved <;> exact hin
        | _ =>
          rw [hp] at hin
          exact hin
      · obtain ⟨hle, -⟩ := h.fresh hlocked
        exact ⟨Nat.le_succ_of_le hle, iff_of_true rfl (Nat.lt_succ_of_le hle)⟩

variable [DecidableEq τ]

@[simp] theorem point_at' (s : State τ δ) (t v : τ) (p : Point δ) :
    (s.at' t p).point v = if v = t then p else s.point v := by
  simp [State.at', Function.update_apply]

@[simp] theorem since_at' (s : State τ δ) (t : τ) (p : Point δ) : (s.at' t p).since = s.since :=
  rfl

@[simp] theorem handled_at' (s : State τ δ) (t : τ) (p : Point δ) :
    (s.at' t p).handled = s.handled :=
  rfl

theorem installed_at' (s : State τ δ) (t : τ) (p q : Point δ) :
    Installed int term (s.at' t q) p ↔ Installed int term s p := by
  cases p with
  | scanning saved => cases saved <;> rfl
  | _ => rfl

/-- `Took s a u`: by `a` the process goes from `s` to `u`. -/
inductive Took (s : State τ δ) : Act τ → State τ δ → Prop
  | lock {t : τ} (hm : s.mutex = none) (hp : s.point t = .outside) :
    Took s (.lock t) ({ s with mutex := some t }.at' t .locked)
  | clear {t : τ} (hp : s.point t = .locked) :
    Took s (.clear t)
      ({ s with flag := false, since := Function.update s.since t s.handled }.at' t .cleared)
  | installInt {t : τ} (hp : s.point t = .cleared) :
    Took s (.installInt t true) ((s.sigaction .int .abort true).at' t (.intInstalled s.int))
  | noInt {t : τ} (hp : s.point t = .cleared) :
    Took s (.installInt t false) ((s.sigaction .int .abort false).at' t (.scanning none))
  | installTerm {t : τ} {oldInt : Handler δ} (hp : s.point t = .intInstalled oldInt) :
    Took s (.installTerm t true)
      ((s.sigaction .term .abort true).at' t (.scanning (some (oldInt, s.term))))
  | noTerm {t : τ} {oldInt : Handler δ} (hp : s.point t = .intInstalled oldInt) :
    Took s (.installTerm t false) ((s.sigaction .term .abort false).at' t (.undoing oldInt))
  | undoInt {t : τ} {oldInt : Handler δ} {ok : Bool} (hp : s.point t = .undoing oldInt) :
    Took s (.undoInt t ok) ((s.sigaction .int oldInt ok).at' t (.scanning none))
  | finish {t : τ} {oldInt oldTerm : Handler δ}
      (hp : s.point t = .scanning (some (oldInt, oldTerm))) :
    Took s (.finish t) (s.at' t (.leaving oldInt oldTerm))
  | finishBare {t : τ} (hp : s.point t = .scanning none) :
    Took s (.finish t) (s.at' t .unlocking)
  | restoreInt {t : τ} {oldInt oldTerm : Handler δ} {ok : Bool}
      (hp : s.point t = .leaving oldInt oldTerm) :
    Took s (.restoreInt t ok) ((s.sigaction .int oldInt ok).at' t (.intRestored oldTerm))
  | restoreTerm {t : τ} {oldTerm : Handler δ} {ok : Bool}
      (hp : s.point t = .intRestored oldTerm) :
    Took s (.restoreTerm t ok) ((s.sigaction .term oldTerm ok).at' t .unlocking)
  | unlock {t : τ} (hp : s.point t = .unlocking) :
    Took s (.unlock t) ({ s with mutex := none }.at' t .outside)
  | deliver (sig : StopSignal) : Took s (.deliver sig) (SynGuard.deliver s sig)

theorem took_of_step {a : Act τ} (h : step s a = some u) : Took s a u := by
  cases a with
  | deliver sig =>
    cases h
    exact .deliver sig
  | installInt t ok | installTerm t ok =>
    simp only [step] at h
    split at h <;> cases h
    cases ok <;> constructor <;> assumption
  | _ =>
    simp only [step] at h
    split at h <;> cases h
    all_goals constructor <;> assumption

theorem Inv.move (h : Inv int term s) {p q : Point δ} (hpt : s.point t = p) (hp : p ≠ .outside)
    (hlocked : p ≠ .locked) {sig : StopSignal} {new : Handler δ} {ok : Bool}
    (hq : Installed int term s p → Installed int term (s.sigaction sig new ok) q) :
    Inv int term ((s.sigaction sig new ok).at' t q) := by
  subst hpt
  obtain ⟨hm, hholds⟩ := h.holds hp
  refine Inv.of_holds ((mutex_sigaction s sig new ok).trans hm) ⟨fun v hv => ?_, ?_, fun _ => ?_⟩
  · simpa [hv] using hholds.alone v hv
  · rw [point_at', if_pos rfl, installed_at']
    exact hq hholds.installed
  · change Fresh (s.sigaction sig new ok) t
    simpa [Fresh] using hholds.fresh hlocked

theorem Inv.stay (h : Inv int term s) {p q : Point δ} (hpt : s.point t = p) (hp : p ≠ .outside)
    (hlocked : p ≠ .locked) (hq : Installed int term s p → Installed int term s q) :
    Inv int term (s.at' t q) := by
  change Inv int term ((s.sigaction .int .abort false).at' t q)
  exact h.move hpt hp hlocked hq

theorem step_inv {a : Act τ} (h : Inv int term s) (hok : Restores a) (hs : step s a = some u) :
    Inv int term u := by
  cases took_of_step hs with
  | @lock t hm hp =>
    rw [Inv, hm] at h
    refine Inv.of_holds rfl ⟨fun v hv => ?_, ?_, fun hne => absurd (by simp) hne⟩
    · simpa [hv] using h.outside v
    · rw [point_at', if_pos rfl]
      exact ⟨h.int, h.term⟩
  | @clear t hp =>
    obtain ⟨hm, hholds⟩ := h.holds (t := t) (by simp [hp])
    refine Inv.of_holds hm ⟨fun v hv => ?_, ?_, fun _ => ?_⟩
    · simpa [hv] using hholds.alone v hv
    · rw [point_at', if_pos rfl]
      exact hholds.restrict hp
    · simp [Fresh, State.at']
  | installInt hp => exact h.move hp (by simp) (by simp) fun hin => ⟨hin.1, rfl, hin.2⟩
  | noInt hp => exact h.move hp (by simp) (by simp) id
  | installTerm hp =>
    exact h.move hp (by simp) (by simp) fun ⟨hold, hint, hterm⟩ => ⟨⟨hold, hterm⟩, hint, rfl⟩
  | noTerm hp => exact h.move hp (by simp) (by simp) id
  | undoInt hp =>
    obtain rfl := hok
    exact h.move hp (by simp) (by simp) fun ⟨hold, _, hterm⟩ => ⟨hold, hterm⟩
  | finish hp => exact h.stay hp (by simp) (by simp) id
  | finishBare hp => exact h.stay hp (by simp) (by simp) id
  | restoreInt hp =>
    obtain rfl := hok
    exact h.move hp (by simp) (by simp) fun ⟨⟨hint, hterm⟩, _, habort⟩ => ⟨hterm, hint, habort⟩
  | restoreTerm hp =>
    obtain rfl := hok
    exact h.move hp (by simp) (by simp) fun ⟨hold, hint, _⟩ => ⟨hint, hold⟩
  | @unlock t hp =>
    obtain ⟨hm, hholds⟩ := h.holds (t := t) (by simp [hp])
    obtain ⟨hint, hterm⟩ := hholds.restrict hp
    change Idle int term _
    refine ⟨fun v => ?_, hint, hterm⟩
    by_cases hv : v = t
    · simp [hv]
    · simpa [hv] using hholds.alone v hv
  | deliver sig => exact deliver_inv h sig

/-- Only `lock` leads a thread to the point where it clears the flag. -/
theorem locked_of_step {a : Act τ} (hs : step s a = some u) (hp : u.point t = .locked) :
    s.point t = .locked ∨ a = .lock t := by
  cases took_of_step hs with
  | lock =>
    simp only [point_at'] at hp
    split_ifs at hp with hv
    · exact .inr (hv ▸ rfl)
    · exact .inl hp
  | deliver sig =>
    unfold deliver at hp
    split at hp <;> exact .inl hp
  | _ =>
    simp only [point_at', point_sigaction] at hp
    split_ifs at hp
    exact .inl hp

/-- Signals are not forgotten, and a thread counts anew only when it clears
the flag. -/
theorem since_of_step {a : Act τ} (hs : step s a = some u) :
    s.point t = .locked ∨ u.since t = s.since t ∧ s.handled ≤ u.handled := by
  cases took_of_step hs with
  | @clear v hp =>
    by_cases hv : t = v
    · exact .inl (hv ▸ hp)
    · exact .inr ⟨Function.update_of_ne hv _ _, Nat.le_refl _⟩
  | deliver sig =>
    unfold deliver
    split
    · exact .inr ⟨rfl, Nat.le_refl _⟩
    · exact .inr ⟨rfl, Nat.le_succ _⟩
  | _ => simp

-- ---------------------------------------------------------------------------
-- Runs
-- ---------------------------------------------------------------------------

def next (t : τ) : Point δ → Act τ
  | .outside => .lock t
  | .locked => .clear t
  | .cleared => .installInt t true
  | .intInstalled _ => .installTerm t true
  | .undoing _ => .undoInt t true
  | .scanning _ => .finish t
  | .leaving .. => .restoreInt t true
  | .intRestored _ => .restoreTerm t true
  | .unlocking => .unlock t

def Point.left : Point δ → Nat
  | .outside => 0
  | .locked => 7
  | .cleared => 6
  | .intInstalled _ => 5
  | .undoing _ => 5
  | .scanning _ => 4
  | .leaving .. => 3
  | .intRestored _ => 2
  | .unlocking => 1

omit [DecidableEq τ] in
theorem restores_next (t : τ) (p : Point δ) : Restores (next t p) := by
  cases p <;> trivial

/-- The step is possible, and either releases the mutex or comes nearer to that. -/
theorem step_next (hm : s.mutex = some t) {p : Point δ} (hpt : s.point t = p) (hp : p ≠ .outside) :
    ∃ u, step s (next t p) = some u ∧
      (u.mutex = none ∨ u.mutex = some t ∧ (u.point t).left < p.left) := by
  cases p with
  | outside => exact absurd rfl hp
  | unlocking => exact ⟨_, by simp only [next, step, hpt]; rfl, .inl rfl⟩
  | scanning saved =>
    cases saved <;>
      exact ⟨_, by simp only [next, step, hpt]; rfl, .inr ⟨by exact hm, by simp [Point.left]⟩⟩
  | _ => exact ⟨_, by simp only [next, step, hpt]; rfl, .inr ⟨by exact hm, by simp [Point.left]⟩⟩

theorem exists_release (h : Inv int term s) (hm : s.mutex = some t) :
    ∃ as u, exec step s as = some u ∧ u.mutex = none ∧ Inv int term u ∧
      ∀ a ∈ as, ∃ p, p ≠ Point.outside ∧ a = next t (p : Point δ) := by
  have hholds : Holds int term s t := by
    rw [Inv, hm] at h
    exact h
  have hp : s.point t ≠ .outside := fun hout => hholds.restrict hout
  induction hn : (s.point t).left using Nat.strong_induction_on generalizing s with
  | _ n ih =>
    obtain ⟨u, hstep, hnext⟩ := step_next hm rfl hp
    have hu := step_inv h (restores_next t (s.point t)) hstep
    obtain hfree | ⟨hmu, hlt⟩ := hnext
    · refine ⟨[next t (s.point t)], u, by rw [exec, hstep]; rfl, hfree, hu, fun a ha => ?_⟩
      exact ⟨_, hp, List.mem_singleton.mp ha⟩
    · have hholdsu : Holds int term u t := by
        rw [Inv, hmu] at hu
        exact hu
      obtain ⟨as, v, has, hv, hinv, hown⟩ :=
        ih _ (hn ▸ hlt) hu hmu hholdsu (fun hout => hholdsu.restrict hout) rfl
      refine ⟨next t (s.point t) :: as, v, by rw [exec, hstep]; exact has, hv, hinv, ?_⟩
      exact List.forall_mem_cons.mpr ⟨⟨_, hp, rfl⟩, hown⟩

instance : DecidablePred (Restores : Act τ → Prop)
  | .undoInt .. | .restoreInt .. | .restoreTerm .. => inferInstanceAs (Decidable (_ = true))
  | .lock .. | .clear .. | .installInt .. | .installTerm .. => .isTrue trivial
  | .finish .. | .unlock .. | .deliver .. => .isTrue trivial

end ByeByeVpn.SynGuard
