import ByeByeVpn.Network.SynGuard
import ByeByeVpn.Network.SynScan

/-!
# SYN scans under the guard (`network/tcp_async_scan.cpp`)

Any number of scans run, each in a thread of its own. The guard of a scan is
made when its setup is through and goes when its loop has ended, and what the
loop reads of `g_syn_abort` is the flag that the handler sets.
-/

namespace ByeByeVpn.SynAbort

open Runs SynGuard

structure System (τ δ : Type*) where
  guard : State τ δ
  scans : τ → SynScan.Scan

inductive Act (τ : Type*)
  | guard (a : SynGuard.Act τ)
  | scan (t : τ) (a : SynScan.Act)

variable {τ δ : Type*}

def Guarded (s : System τ δ) (t : τ) : Prop := ∃ saved, s.guard.point t = .scanning saved

instance (s : System τ δ) (t : τ) : Decidable (Guarded s t) :=
  match hp : s.guard.point t with
  | .scanning saved => .isTrue ⟨saved, hp⟩
  | .outside | .locked | .cleared | .intInstalled _ | .undoing _ | .leaving .. | .intRestored _
  | .unlocking => .isFalse fun ⟨_, h⟩ => by simp [hp] at h

/-- When the threads may go on. -/
def May (s : System τ δ) : Act τ → Prop
  | .guard (.lock t) => (s.scans t).point = .outerHead
  | .guard (.finish t) => (s.scans t).point = .returned
  | .guard _ => True
  | .scan t (.abortFlag raised) => Guarded s t ∧ raised = s.guard.flag
  | .scan t _ => (s.scans t).point = .entry ∨ (s.scans t).point = .setup ∨ Guarded s t

instance (s : System τ δ) : DecidablePred (May s)
  | .guard (.lock _) | .guard (.finish _) => inferInstanceAs (Decidable (_ = _))
  | .guard (.clear _) | .guard (.installInt ..) | .guard (.installTerm ..) | .guard (.undoInt ..)
  | .guard (.restoreInt ..) | .guard (.restoreTerm ..) | .guard (.unlock _)
  | .guard (.deliver _) => .isTrue trivial
  | .scan _ (.abortFlag _) => inferInstanceAs (Decidable (_ ∧ _))
  | .scan _ .tick | .scan _ (.setup _) | .scan _ (.sendto ..) | .scan _ (.epollWait _)
  | .scan _ (.recvfrom ..) | .scan _ (.clock ..) => inferInstanceAs (Decidable (_ ∨ _ ∨ _))

/-- The old handlers can be put back. -/
def Restores : Act τ → Prop
  | .guard a => SynGuard.Restores a
  | .scan .. => True

instance : DecidablePred (Restores : Act τ → Prop)
  | .guard a => inferInstanceAs (Decidable (SynGuard.Restores a))
  | .scan .. => .isTrue trivial

def start (int term : δ) : System τ δ := ⟨SynGuard.start int term, fun _ => {}⟩

/-- The guard and the scans keep their own invariants, and a scan is aborted
only if the handler was called after the thread had cleared the flag. -/
structure Inv (c : τ → SynScan.Config) (int term : δ) (s : System τ δ) : Prop where
  guard : SynGuard.Inv int term s.guard
  scans : ∀ t, (s.scans t).Inv (c t)
  locked : ∀ t, s.guard.point t = .locked → (s.scans t).point = .outerHead
  aborted : ∀ t, (s.scans t).out.aborted = true → s.guard.since t < s.guard.handled

variable {c : τ → SynScan.Config} {int term : δ} {s u : System τ δ} {t : τ}

theorem inv_start : Inv c int term (start int term) where
  guard := SynGuard.inv_start int term
  scans t := SynScan.Scan.inv_start (c t)
  locked t h := by cases h
  aborted t h := by cases h

theorem notAborted_of_outerHead {x : SynScan.Scan} {c : SynScan.Config} (h : x.Inv c)
    (hp : x.point = .outerHead) : x.out.aborted = false :=
  (h.running (hp ▸ trivial)).notAborted

/-- A scan is aborted where it reads that the flag is raised, and nowhere else. -/
theorem aborted_of_step {x y : SynScan.Scan} {c : SynScan.Config} {a : SynScan.Act}
    (hs : x.step c a = some y) : y.out.aborted = x.out.aborted ∨ a = .abortFlag true := by
  cases SynScan.Scan.took_of_step hs with
  | aborted => exact .inr rfl
  | take =>
    unfold SynScan.Scan.take
    dsimp only
    split <;> exact .inl (by simp)
  | send =>
    unfold SynScan.Scan.sent
    split <;> exact .inl (by simp)
  | recv =>
    unfold SynScan.Scan.receive
    split <;> exact .inl (by simp [SynScan.Scan.settle])
  | timedOut => exact .inl (by simp [SynScan.Scan.settle])
  | _ => exact .inl rfl

theorem May.abortFlag {raised : Bool} (h : May s (.scan t (.abortFlag raised))) :
    Guarded s t ∧ raised = s.guard.flag := h

theorem May.not_locked {a : SynScan.Act} (h : May s (.scan t a))
    (hp : (s.scans t).point = .outerHead) : s.guard.point t ≠ .locked := by
  intro hlocked
  have hguarded : Guarded s t := by
    cases a with
    | abortFlag raised => exact h.abortFlag.1
    | _ =>
      rcases h with h | h | h
      · exact absurd (hp.symm.trans h) (by simp)
      · exact absurd (hp.symm.trans h) (by simp)
      · exact h
  obtain ⟨saved, hsaved⟩ := hguarded
  cases hlocked.symm.trans hsaved

theorem Inv.flag_iff (h : Inv c int term s) (hg : Guarded s t) :
    s.guard.flag = true ↔ s.guard.since t < s.guard.handled := by
  obtain ⟨saved, hp⟩ := hg
  obtain ⟨-, hholds⟩ := h.guard.holds (t := t) (by simp [hp])
  exact (hholds.fresh (by simp [hp])).2

section
variable [DecidableEq τ]

def step (c : τ → SynScan.Config) (s : System τ δ) (a : Act τ) : Option (System τ δ) :=
  if May s a then
    match a with
    | .guard a => (SynGuard.step s.guard a).map fun g => { s with guard := g }
    | .scan t a =>
      ((s.scans t).step (c t) a).map fun x => { s with scans := Function.update s.scans t x }
  else none

theorem step_inv {a : Act τ} (h : Inv c int term s) (hok : Restores a)
    (hs : step c s a = some u) : Inv c int term u := by
  obtain ⟨hmay, hs⟩ := Option.ite_none_right_eq_some.mp hs
  cases a with
  | guard a =>
    obtain ⟨g, hg, rfl⟩ := Option.map_eq_some_iff.mp hs
    refine ⟨SynGuard.step_inv h.guard hok hg, h.scans, fun t hp => ?_, fun t ha => ?_⟩
    · rcases locked_of_step hg hp with hlocked | rfl
      · exact h.locked t hlocked
      · exact hmay
    · rcases since_of_step hg with hlocked | ⟨hsince, hle⟩
      · have hfalse := notAborted_of_outerHead (h.scans t) (h.locked t hlocked)
        exact absurd (ha.symm.trans hfalse) (by simp)
      · rw [hsince]
        exact (h.aborted t ha).trans_le hle
  | scan v a =>
    obtain ⟨x, hx, rfl⟩ := Option.map_eq_some_iff.mp hs
    refine ⟨h.guard, fun t => ?_, fun t hp => ?_, fun t ha => ?_⟩
    · by_cases hv : t = v
      · subst hv
        simpa using SynScan.Scan.step_inv (h.scans t) hx
      · simpa [hv] using h.scans t
    · have hne : t ≠ v := by
        rintro rfl
        exact hmay.not_locked (h.locked t hp) hp
      simpa [hne] using h.locked t hp
    · by_cases hv : t = v
      · subst hv
        simp only [Function.update_self] at ha
        rcases aborted_of_step hx with hsame | rfl
        · exact h.aborted t (hsame.symm.trans ha)
        · obtain ⟨hg, hraised⟩ := hmay.abortFlag
          exact (h.flag_iff hg).mp hraised.symm
      · simp only [Function.update_of_ne hv] at ha
        exact h.aborted t ha

theorem Inv.check (h : Inv c int term s) {a : SynScan.Act} (hp : (s.scans t).point = .abortFlag)
    (hs : step c s (.scan t a) = some u) :
    ((u.scans t).out.aborted = true ↔ s.guard.since t < s.guard.handled) ∧
      (u.scans t).point =
        if (u.scans t).out.aborted then SynScan.Point.returned else SynScan.Point.sendHead := by
  obtain ⟨hmay, hs⟩ := Option.ite_none_right_eq_some.mp hs
  obtain ⟨x, hx, rfl⟩ := Option.map_eq_some_iff.mp hs
  have hinv := h.scans t
  simp only [SynScan.Scan.Inv, hp] at hinv
  cases a with
  | abortFlag raised =>
    obtain ⟨hg, rfl⟩ := hmay.abortFlag
    rw [← h.flag_iff hg]
    simp only [SynScan.Scan.step, hp] at hx
    by_cases hflag : s.guard.flag = true
    · rw [if_pos hflag] at hx
      cases hx
      simp [hflag]
    · rw [if_neg hflag] at hx
      cases hx
      simp [hflag, hinv.notAborted]
  | _ => simp [SynScan.Scan.step, hp] at hx

/-- A thread whose loop has ended leaves by its own steps. -/
theorem Inv.release (h : Inv c int term s) (hp : s.guard.point t ≠ .outside)
    (hreturned : (s.scans t).point = .returned) :
    ∃ (as : List (SynGuard.Act τ)) (u : System τ δ),
      exec (step c) s (as.map .guard) = some u ∧
      (∀ a ∈ as, ∃ p, p ≠ Point.outside ∧ a = next t (p : Point δ)) ∧
      u.guard.mutex = none ∧ u.guard.int = .own int ∧ u.guard.term = .own term := by
  obtain ⟨hm, -⟩ := h.guard.holds hp
  obtain ⟨as, g, has, hfree, hg, hown⟩ := exists_release h.guard hm
  refine ⟨as, { s with guard := g }, ?_, hown, hfree, ?_⟩
  · clear hg hfree hm hp h
    induction as generalizing s with
    | nil =>
      cases has
      rfl
    | cons a as ih =>
      obtain ⟨hown, hrest⟩ := List.forall_mem_cons.mp hown
      obtain ⟨g', hg', has⟩ := Option.bind_eq_some_iff.mp has
      have hmay : May s (.guard a) := by
        obtain ⟨p, hp, rfl⟩ := hown
        cases p with
        | outside => exact absurd rfl hp
        | scanning => exact hreturned
        | _ => trivial
      have hstep : step c s (.guard a) = some { s with guard := g' } := by
        rw [step, if_pos hmay]
        exact congrArg (Option.map _) hg'
      rw [List.map_cons, exec, hstep]
      exact @ih { s with guard := g' } hreturned has hrest
  · rw [SynGuard.Inv, hfree] at hg
    exact ⟨hg.int, hg.term⟩

/-- Any number of scans run, and signals come at any time; as long as the old
handlers can be put back: one thread is inside the guard at a time, and while
its loop runs both signals go to the handler if both handlers could be put in.
A scan is aborted only if the handler was called after the thread had cleared
the flag, and each of its checks aborts it exactly if it was. Whenever the mutex
is free the process has its own handlers, and a thread whose loop has ended can
always get out. -/
theorem synAbort_safe (c : τ → SynScan.Config) (int term : δ) (s : System τ δ)
    (run : ReachableIf (fun _ a => Restores a) (step c) (start int term) s) :
    (∀ t u, s.guard.point t ≠ .outside → s.guard.point u ≠ .outside → t = u) ∧
    (s.guard.mutex = none → s.guard.int = .own int ∧ s.guard.term = .own term) ∧
    (∀ t saved, s.guard.point t = .scanning (some saved) → ∀ sig, s.guard.handler sig = .abort) ∧
    (∀ t, (s.scans t).out.aborted = true → s.guard.since t < s.guard.handled) ∧
    (∀ t a u, (s.scans t).point = .abortFlag → step c s (.scan t a) = some u →
      ((u.scans t).out.aborted = true ↔ s.guard.since t < s.guard.handled) ∧
      (u.scans t).point =
        if (u.scans t).out.aborted then SynScan.Point.returned else SynScan.Point.sendHead) ∧
    ∀ t, s.guard.point t ≠ .outside → (s.scans t).point = .returned →
      ∃ (as : List (SynGuard.Act τ)) (u : System τ δ),
        exec (step c) s (as.map .guard) = some u ∧
        (∀ a ∈ as, ∃ p, p ≠ Point.outside ∧ a = next t (p : Point δ)) ∧
        u.guard.mutex = none ∧ u.guard.int = .own int ∧ u.guard.term = .own term := by
  have h : Inv c int term s :=
    run.invariant inv_start fun _ hi hok hs => step_inv hi hok hs
  refine ⟨fun t u ht hu => ?_, fun hm => ?_, fun t saved hp sig => ?_, h.aborted,
    fun t a u hp hs => h.check hp hs, fun t hp hreturned => h.release hp hreturned⟩
  · obtain ⟨hmt, -⟩ := h.guard.holds ht
    obtain ⟨hmu, -⟩ := h.guard.holds hu
    exact Option.some.inj (hmt.symm.trans hmu)
  · have hidle := h.guard
    rw [SynGuard.Inv, hm] at hidle
    exact ⟨hidle.int, hidle.term⟩
  · obtain ⟨-, hholds⟩ := h.guard.holds (t := t) (by simp [hp])
    obtain ⟨-, hint, hterm⟩ := hholds.restrict hp
    cases sig
    · exact hint
    · exact hterm

/-- A scan runs, and a signal comes before its first check. -/
def sampleActs : List (Act Nat) :=
  [.scan 0 .tick, .scan 0 (.setup true), .guard (.lock 0), .guard (.clear 0),
    .guard (.installInt 0 true), .guard (.installTerm 0 true), .scan 0 .tick,
    .guard (.deliver .term), .scan 0 (.abortFlag true)]

theorem synAbort_safe_sample : ∃ s : System Nat Unit,
    (s.scans 0).out.aborted = true ∧ s.guard.since 0 < s.guard.handled ∧
      ∃ as u, exec (step fun _ => SynScan.sample) s as = some u ∧ u.guard.int = .own () := by
  have hrun : Reachable (guarded (fun _ a => Restores a) (step fun _ => SynScan.sample))
      (start () ()) _ := @reachable_of_exec _ _ _ _ _ sampleActs rfl
  obtain ⟨-, -, -, haborted, -, hout⟩ := synAbort_safe _ () () _ hrun.unguarded
  obtain ⟨as, u, has, -, -, hint, -⟩ := hout 0 (by decide) rfl
  exact ⟨_, rfl, haborted 0 rfl, _, u, has, hint⟩

end

end ByeByeVpn.SynAbort
