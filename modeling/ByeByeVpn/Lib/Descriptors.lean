import Mathlib.Logic.Function.Basic
import Mathlib.Data.List.Basic

/-!
# Open descriptors

The table says which descriptors are open and in which mode. A call that names
a descriptor faults if it is not open, so a run that does not fault uses
nothing before it is opened, and closes nothing twice.
-/

namespace ByeByeVpn.Descriptors

variable {κ μ : Type*} [DecidableEq κ]

inductive Call (κ μ : Type*)
  | opened (k : κ) (mode : μ)
  | set (k : κ) (mode : μ)
  | used (k : κ)
  | closed (k : κ)

abbrev Table (κ μ : Type*) := κ → Option μ

def empty : Table κ μ := fun _ => none

def only (k : κ) (mode : μ) : Table κ μ := Function.update empty k (some mode)

def step (t : Table κ μ) : Call κ μ → Option (Table κ μ)
  | .opened k mode => if (t k).isSome then none else some (Function.update t k (some mode))
  | .set k mode => if (t k).isSome then some (Function.update t k (some mode)) else none
  | .used k => if (t k).isSome then some t else none
  | .closed k => if (t k).isSome then some (Function.update t k none) else none

def run : Table κ μ → List (Call κ μ) → Option (Table κ μ)
  | t, [] => some t
  | t, c :: calls => (step t c).bind fun t' => run t' calls

variable {t t' : Table κ μ} {k : κ} {m m' : μ}

@[simp] theorem run_nil : run t [] = some t := rfl

theorem run_append (t : Table κ μ) (calls calls' : List (Call κ μ)) :
    run t (calls ++ calls') = (run t calls).bind fun t' => run t' calls' := by
  induction calls generalizing t with
  | nil => rfl
  | cons c calls ih =>
    rw [List.cons_append, run, run, Option.bind_assoc]
    exact congrArg _ (funext ih)

theorem run_cons {c : Call κ μ} {calls : List (Call κ μ)} (h : step t c = some t') :
    run t (c :: calls) = run t' calls := by
  rw [run, h, Option.bind_some]

theorem step_opened (h : t k = none) :
    step t (.opened k m) = some (Function.update t k (some m)) := by
  rw [step, h]
  rfl

theorem step_used (h : t k = some m) : step t (.used k) = some t := by
  rw [step, h]
  rfl

theorem step_set (h : t k = some m) :
    step t (.set k m') = some (Function.update t k (some m')) := by
  rw [step, h]
  rfl

theorem step_closed (h : t k = some m) : step t (.closed k) = some (Function.update t k none) := by
  rw [step, h]
  rfl

/-- Closing what was opened last goes back to the table before. -/
theorem step_closed_opened (h : t k = none) :
    step (Function.update t k (some m)) (.closed k) = some t := by
  rw [step_closed (Function.update_self k (some m) t), Function.update_idem]
  exact congrArg some (Function.update_eq_self_iff.mpr h.symm)

-- The rules for a single descriptor.

@[simp] theorem run_opened (calls : List (Call κ μ)) :
    run empty (.opened k m :: calls) = run (only k m) calls := rfl

@[simp] theorem run_set (calls : List (Call κ μ)) :
    run (only k m) (.set k m' :: calls) = run (only k m') calls := by
  simp [run, step, only]

@[simp] theorem run_used (calls : List (Call κ μ)) :
    run (only k m) (.used k :: calls) = run (only k m) calls := by
  simp [run, step, only]

@[simp] theorem run_closed (calls : List (Call κ μ)) :
    run (only k m) (.closed k :: calls) = run empty calls := by
  have hback : Function.update empty k (none : Option μ) = empty := Function.update_eq_self k empty
  simp [run, step, only, hback]

def opens (k : κ) (calls : List (Call κ μ)) : Nat :=
  calls.countP fun | .opened k' _ => k' = k | _ => false

def closes (k : κ) (calls : List (Call κ μ)) : Nat :=
  calls.countP fun | .closed k' => k' = k | _ => false

theorem opens_append (k : κ) (calls calls' : List (Call κ μ)) :
    opens k (calls ++ calls') = opens k calls + opens k calls' :=
  List.countP_append

theorem closes_append (k : κ) (calls calls' : List (Call κ μ)) :
    closes k (calls ++ calls') = closes k calls + closes k calls' :=
  List.countP_append

theorem opens_step {c : Call κ μ} (h : step t c = some t') (k : κ) :
    opens k [c] + (t k).isSome.toNat = closes k [c] + (t' k).isSome.toNat := by
  cases c with
  | opened k' mode =>
    rw [step] at h
    split_ifs at h with ho
    obtain rfl := Option.some.inj h
    by_cases hk : k = k'
    · subst hk
      simp [opens, closes, ho]
    · simp [opens, closes, hk, Ne.symm hk]
  | set k' mode =>
    rw [step] at h
    split_ifs at h with ho
    obtain rfl := Option.some.inj h
    by_cases hk : k = k'
    · subst hk
      simp [opens, closes, ho]
    · simp [opens, closes, hk]
  | used k' =>
    rw [step] at h
    split_ifs at h with ho
    obtain rfl := Option.some.inj h
    simp [opens, closes]
  | closed k' =>
    rw [step] at h
    split_ifs at h with ho
    obtain rfl := Option.some.inj h
    by_cases hk : k = k'
    · subst hk
      simp [opens, closes, ho]
    · simp [opens, closes, hk, Ne.symm hk]

/-- Every opening is followed by one closing, or the descriptor is still open. -/
theorem opens_eq {calls : List (Call κ μ)} (h : run t calls = some t') (k : κ) :
    opens k calls + (t k).isSome.toNat = closes k calls + (t' k).isSome.toNat := by
  induction calls generalizing t with
  | nil =>
    obtain rfl := Option.some.inj h
    rfl
  | cons c calls ih =>
    obtain ⟨t₁, hstep, hrun⟩ := Option.bind_eq_some_iff.mp h
    have hone := opens_step hstep k
    have hrest := ih hrun
    have ho : opens k (c :: calls) = opens k [c] + opens k calls := opens_append k [c] calls
    have hc : closes k (c :: calls) = closes k [c] + closes k calls := closes_append k [c] calls
    omega

/-- Closing one descriptor after another, where what is called for one of them
closes it and leaves the others as they are. -/
theorem run_closeAll {keys : List κ} {calls : κ → List (Call κ μ)} (good : Table κ μ → Prop)
    (hnodup : keys.Nodup) (hopen : ∀ k ∈ keys, (t k).isSome) (hgood : good t)
    (hcalls : ∀ u, ∀ k ∈ keys, good u → (u k).isSome →
      run u (calls k) = some (Function.update u k none) ∧ good (Function.update u k none)) :
    run t (keys.flatMap calls) = some fun k => if k ∈ keys then none else t k := by
  induction keys generalizing t with
  | nil => simp
  | cons k keys ih =>
    obtain ⟨hk, hnodup⟩ := List.nodup_cons.mp hnodup
    obtain ⟨hrun, hgood⟩ := hcalls t k List.mem_cons_self hgood (hopen k List.mem_cons_self)
    have hrest := ih hnodup (t := Function.update t k none) (fun k' hk' => ?_) hgood
      fun u k' hk' => hcalls u k' (List.mem_cons_of_mem k hk')
    · rw [List.flatMap_cons, run_append, hrun, Option.bind_some, hrest]
      refine congrArg some (funext fun k' => ?_)
      by_cases hk' : k' = k
      · subst hk'
        simp [hk]
      · simp [hk']
    · rw [Function.update_of_ne (ne_of_mem_of_not_mem hk' hk)]
      exact hopen k' (List.mem_cons_of_mem k hk')

-- ---------------------------------------------------------------------------
-- Several owners
-- ---------------------------------------------------------------------------

/-- Every open descriptor has one owner, who sees it in the mode that it is in. -/
structure Shared (t : Table κ μ) (own : ι → Table κ μ) : Prop where
  eq_iff : ∀ k m, t k = some m ↔ ∃ i, own i k = some m
  apart : ∀ i j k, (own i k).isSome → (own j k).isSome → i = j

namespace Shared

variable {ι : Type*} {own : ι → Table κ μ} {u : Table κ μ} {i : ι}

section
omit [DecidableEq κ]

theorem empty : Shared (empty : Table κ μ) fun _ : ι => Descriptors.empty :=
  ⟨by simp [Descriptors.empty], by simp [Descriptors.empty]⟩

theorem isSome_iff (h : Shared t own) : (t k).isSome ↔ ∃ i, (own i k).isSome := by
  simp only [Option.isSome_iff_exists, h.eq_iff]
  exact exists_comm

theorem eq_none (h : Shared t own) (hk : ∀ i, own i k = none) : t k = none := by
  rw [← Option.not_isSome_iff_eq_none, h.isSome_iff]
  rintro ⟨i, hi⟩
  rw [hk i] at hi
  cases hi

theorem others (h : Shared t own) (hk : (own i k).isSome) : ∀ j, j ≠ i → own j k = none :=
  fun j hj => Option.not_isSome_iff_eq_none.mp fun hj' => hj (h.apart j i k hj' hk)

end

variable [DecidableEq ι]

/-- An owner may do as it likes with a descriptor that no other has open. -/
theorem update (h : Shared t own) (hk : ∀ j, j ≠ i → own j k = none) (v : Option μ) :
    Shared (Function.update t k v) (Function.update own i (Function.update (own i) k v)) := by
  have hat (j : ι) (k' : κ) : Function.update own i (Function.update (own i) k v) j k' =
      if k' = k then if j = i then v else none else own j k' := by
    by_cases hj : j = i
    · subst hj
      by_cases hk' : k' = k <;> simp [hk']
    · rw [Function.update_of_ne hj, if_neg hj]
      split_ifs with hk'
      · rw [hk', hk j hj]
      · rfl
  refine ⟨fun k' m => ?_, fun j j' k' => ?_⟩
  · simp only [hat, Function.update_apply]
    split_ifs with hk'
    · simp
    · exact h.eq_iff k' m
  · simp only [hat]
    by_cases hk' : k' = k
    · simp only [if_pos hk']
      grind
    · simpa only [if_neg hk'] using h.apart j j' k'

theorem step {c : Call κ μ} (h : Shared t own) (hstep : step (own i) c = some u)
    (hfree : ∀ k m, c = .opened k m → ∀ j, j ≠ i → own j k = none) :
    ∃ t', Descriptors.step t c = some t' ∧ Shared t' (Function.update own i u) := by
  have hopen (k : κ) (hk : (own i k).isSome) : (t k).isSome := h.isSome_iff.mpr ⟨i, hk⟩
  cases c with
  | opened k m =>
    simp only [Descriptors.step, Option.ite_none_left_eq_some, Option.some.injEq] at hstep
    obtain ⟨hk, rfl⟩ := hstep
    have hothers := hfree k m rfl
    have hnone : t k = none := h.eq_none fun j => by
      by_cases hj : j = i
      · rw [hj]
        exact Option.not_isSome_iff_eq_none.mp hk
      · exact hothers j hj
    exact ⟨_, step_opened hnone, h.update hothers (some m)⟩
  | set k m =>
    simp only [Descriptors.step, Option.ite_none_right_eq_some, Option.some.injEq] at hstep
    obtain ⟨hk, rfl⟩ := hstep
    exact ⟨_, if_pos (hopen k hk), h.update (h.others hk) (some m)⟩
  | used k =>
    simp only [Descriptors.step, Option.ite_none_right_eq_some, Option.some.injEq] at hstep
    obtain ⟨hk, rfl⟩ := hstep
    refine ⟨t, if_pos (hopen k hk), ?_⟩
    rwa [Function.update_eq_self]
  | closed k =>
    simp only [Descriptors.step, Option.ite_none_right_eq_some, Option.some.injEq] at hstep
    obtain ⟨hk, rfl⟩ := hstep
    exact ⟨_, if_pos (hopen k hk), h.update (h.others hk) none⟩

/-- The frame rule: an owner that keeps to its own descriptors, and opens none
that others have open, keeps to the table of all. -/
theorem run {calls : List (Call κ μ)} (h : Shared t own) (hrun : run (own i) calls = some u)
    (hfree : ∀ k m, .opened k m ∈ calls → ∀ j, j ≠ i → own j k = none) :
    ∃ t', Descriptors.run t calls = some t' ∧ Shared t' (Function.update own i u) := by
  induction calls generalizing t own with
  | nil =>
    obtain rfl := Option.some.inj hrun
    refine ⟨t, rfl, ?_⟩
    rwa [Function.update_eq_self]
  | cons c calls ih =>
    obtain ⟨v, hstep, hrun⟩ := Option.bind_eq_some_iff.mp hrun
    obtain ⟨t₁, hstep', h₁⟩ := h.step hstep fun k m hc => hfree k m (hc ▸ List.mem_cons_self)
    obtain ⟨t', hrun', h'⟩ := ih h₁ (by rwa [Function.update_self]) fun k m hc j hj => by
      rw [Function.update_of_ne hj]
      exact hfree k m (List.mem_cons_of_mem c hc) j hj
    rw [Function.update_idem] at h'
    refine ⟨t', ?_, h'⟩
    rw [run_cons hstep', hrun']

end Shared

end ByeByeVpn.Descriptors
