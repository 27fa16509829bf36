import Mathlib.Data.Finset.Basic

/-!
# Runs of labelled machines

A machine is a step function `σ → α → Option σ`: the action carries what the
environment decided, and `none` means that the action is not possible there.
Invariants are proved one step at a time and then hold at the end of every
run, also of the runs whose steps all meet a condition on the state before
the step and the action.
-/

namespace ByeByeVpn.Runs

variable {σ α : Type*}

/-- The states reached by runs whose steps all meet `ok`. -/
inductive ReachableIf (ok : σ → α → Prop) (step : σ → α → Option σ) (start : σ) : σ → Prop
  | start : ReachableIf ok step start start
  | step {s t : σ} {a : α} : ReachableIf ok step start s → ok s a → step s a = some t →
      ReachableIf ok step start t

abbrev Reachable (step : σ → α → Option σ) (start : σ) : σ → Prop :=
  ReachableIf (fun _ _ => True) step start

variable {ok : σ → α → Prop} {step : σ → α → Option σ} {start s t : σ} {a : α}

/-- The invariant rule. The step may use that its source state is reachable. -/
theorem ReachableIf.invariant {P : σ → Prop} (initial : P start)
    (preserves : ∀ {s a t}, ReachableIf ok step start s → P s → ok s a → step s a = some t → P t)
    (run : ReachableIf ok step start s) : P s := by
  induction run with
  | start => exact initial
  | step before hok hstep ih => exact preserves before ih hok hstep

theorem ReachableIf.weaken {ok' : σ → α → Prop} (h : ∀ s a, ok s a → ok' s a)
    (run : ReachableIf ok step start s) : ReachableIf ok' step start s := by
  induction run with
  | start => exact .start
  | step _ hok hstep ih => exact .step ih (h _ _ hok) hstep

theorem ReachableIf.reachable (run : ReachableIf ok step start s) : Reachable step start s :=
  run.weaken fun _ _ _ => trivial

theorem Reachable.next (run : Reachable step start s) (h : step s a = some t) :
    Reachable step start t :=
  .step run trivial h

def exec (step : σ → α → Option σ) : σ → List α → Option σ
  | s, [] => some s
  | s, a :: as => (step s a).bind fun t => exec step t as

theorem Reachable.exec {as : List α} (run : Reachable step start s)
    (h : Runs.exec step s as = some t) : Reachable step start t := by
  induction as generalizing s with
  | nil =>
    cases h
    exact run
  | cons a as ih =>
    obtain ⟨u, hu, ht⟩ := Option.bind_eq_some_iff.mp h
    exact ih (run.next hu) ht

theorem reachable_of_exec {as : List α} (h : exec step start as = some s) :
    Reachable step start s :=
  Reachable.exec .start h

/-- The machine that stops at a step that does not meet `ok`. -/
def guarded (ok : σ → α → Prop) [∀ s a, Decidable (ok s a)] (step : σ → α → Option σ) (s : σ)
    (a : α) : Option σ :=
  if ok s a then step s a else none

theorem Reachable.unguarded [∀ s a, Decidable (ok s a)]
    (run : Reachable (guarded ok step) start s) : ReachableIf ok step start s := by
  induction run with
  | start => exact .start
  | step _ _ hstep ih =>
    obtain ⟨hok, hstep⟩ := Option.ite_none_right_eq_some.mp hstep
    exact ih.step hok hstep

-- ---------------------------------------------------------------------------
-- Logs
-- ---------------------------------------------------------------------------

/-- The machine with a log of what happens at its steps, the latest first. -/
def logged (step : σ → α → Option σ) (events : σ → α → List ε) (s : σ × List ε) (a : α) :
    Option (σ × List ε) :=
  (step s.1 a).map fun t => (t, events s.1 a ++ s.2)

theorem ReachableIf.unlogged {events : σ → α → List ε} {x : σ × List ε}
    (run : ReachableIf (fun s a => ok s.1 a) (logged step events) (start, []) x) :
    ReachableIf ok step start x.1 := by
  induction run with
  | start => exact .start
  | step _ hok hstep ih =>
    obtain ⟨t, ht, rfl⟩ := Option.map_eq_some_iff.mp hstep
    exact ih.step hok ht

end ByeByeVpn.Runs
