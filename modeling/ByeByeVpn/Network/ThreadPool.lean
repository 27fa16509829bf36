import ByeByeVpn.Lib.Runs
import Mathlib.Data.Fintype.Basic
import Mathlib.Data.List.Nodup

/-!
# The thread pool (`ThreadPool`)

Workers take tasks from one queue. The destructor destroys `workers_` first:
each `std::jthread` is asked to stop and then joined. A stopped worker still
takes what is in the queue, since the wait with a stop token returns the
predicate. A task is named by its place in the order of the calls of `enqueue`.
-/

namespace ByeByeVpn

inductive WorkerState
  | waiting
  | running (task : Nat)
  | returned
  deriving DecidableEq, Repr

def WorkerState.isRunning : WorkerState → Bool
  | .running _ => true
  | _ => false

/-- The futures that were handed out are kept with the pool; `ρ` is what a
packaged task makes of its function, a value or an exception. -/
structure ThreadPool (n : Nat) (ρ : Type*) where
  tasks : List Nat := []
  futures : List (Option ρ) := []
  workers : Fin n → WorkerState := fun _ => .waiting
  stopRequested : Fin n → Bool := fun _ => false

namespace ThreadPool

/-- A call of `enqueue`, a turn of a worker under the lock, the end of the
task it runs, and the next `std::jthread` that is destroyed. -/
inductive Act (n : Nat) (ρ : Type*)
  | enqueue
  | wait (w : Fin n)
  | finish (w : Fin n) (result : ρ)
  | requestStop (w : Fin n)

variable {n : Nat} {ρ : Type*}

/-- `cv_.wait(lock, stoken, pred)`: it blocks only while there is no stop
request and the predicate is false, and otherwise returns the predicate. -/
def waitResult (stopRequested pred : Bool) : Option Bool :=
  if stopRequested then some pred else if pred then some true else none

/-- The pool is in use until its destructor is called, and after that only by
the tasks that it runs. -/
def InUse (s : ThreadPool n ρ) : Prop :=
  (∀ w, s.stopRequested w = false) ∨ ∃ w, (s.workers w).isRunning = true

instance (s : ThreadPool n ρ) : Decidable s.InUse := inferInstanceAs (Decidable (_ ∨ _))

def goto (s : ThreadPool n ρ) (w : Fin n) (x : WorkerState) : ThreadPool n ρ :=
  { s with workers := Function.update s.workers w x }

def step (s : ThreadPool n ρ) : Act n ρ → Option (ThreadPool n ρ)
  | .enqueue =>
    if s.InUse then
      some { s with tasks := s.tasks ++ [s.futures.length], futures := s.futures ++ [none] }
    else none
  | .wait w =>
    if s.workers w = .waiting then
      match waitResult (s.stopRequested w) (!s.tasks.isEmpty), s.tasks with
      | some true, task :: tasks => some ({ s with tasks }.goto w (.running task))
      | some false, _ => some (s.goto w .returned)
      | _, _ => none
    else none
  | .finish w result =>
    match s.workers w with
    | .running task =>
      some ({ s with futures := s.futures.set task (some result) }.goto w .waiting)
    | _ => none
  | .requestStop w =>
    if s.stopRequested w = false ∧ ∀ v, s.stopRequested v = true → s.workers v = .returned then
      some { s with stopRequested := Function.update s.stopRequested w true }
    else none

def takes (s : ThreadPool n ρ) : Act n ρ → List Nat
  | .wait _ => s.tasks.head?.toList
  | _ => []

-- ---------------------------------------------------------------------------
-- Steps
-- ---------------------------------------------------------------------------

variable {s t : ThreadPool n ρ} {w : Fin n}

/-- A turn takes the first task, or finds none after a stop request. -/
theorem wait_cases (h : s.step (.wait w) = some t) :
    s.workers w = .waiting ∧
      ((∃ task tasks, s.tasks = task :: tasks ∧
          t = { s with tasks }.goto w (.running task)) ∨
        (s.tasks = [] ∧ s.stopRequested w = true ∧ t = s.goto w .returned)) := by
  simp only [step] at h
  split_ifs at h with hw
  refine ⟨hw, ?_⟩
  cases htasks : s.tasks with
  | nil =>
    cases hstop : s.stopRequested w with
    | false => simp [htasks, hstop, waitResult] at h
    | true =>
      simp only [htasks, hstop, waitResult] at h
      exact .inr ⟨rfl, rfl, (Option.some.inj h).symm⟩
  | cons task tasks =>
    have hres : waitResult (s.stopRequested w) (!s.tasks.isEmpty) = some true := by
      simp [htasks, waitResult]
    rw [hres, htasks] at h
    exact .inl ⟨task, tasks, rfl, (Option.some.inj h).symm⟩

theorem finish_cases {result : ρ} (h : s.step (.finish w result) = some t) :
    ∃ task, s.workers w = .running task ∧
      t = { s with futures := s.futures.set task (some result) }.goto w .waiting := by
  simp only [step] at h
  split at h
  · next task hw => exact ⟨task, hw, (Option.some.inj h).symm⟩
  · cases h

-- ---------------------------------------------------------------------------
-- The account of the tasks
-- ---------------------------------------------------------------------------

/-- Each task is in the queue, or taken: then a worker runs it, or its future
has the result. -/
structure Accounted (s : ThreadPool n ρ) (log : List Nat) : Prop where
  order : log.reverse ++ s.tasks = List.range s.futures.length
  queued : ∀ task ∈ s.tasks, s.futures[task]? = some none
  taken : ∀ task ∈ log,
    (∃ w, s.workers w = .running task) ∨ ∃ result, s.futures[task]? = some (some result)
  running : ∀ w task, s.workers w = .running task → task ∈ log ∧ s.futures[task]? = some none
  apart : ∀ v w task, s.workers v = .running task → s.workers w = .running task → v = w
  returned : ∀ w, s.workers w = .returned → s.stopRequested w = true
  drained : (∀ w, s.workers w = .returned) → s.tasks = []

variable {log : List Nat}

theorem Accounted.start (hn : 0 < n) : Accounted ({} : ThreadPool n ρ) [] where
  order := rfl
  queued := by simp
  taken := by simp
  running := by simp
  apart := by simp
  returned := by simp
  drained := fun h => absurd (h ⟨0, hn⟩) (by simp)

theorem Accounted.nodup (h : s.Accounted log) : (log.reverse ++ s.tasks).Nodup := by
  rw [h.order]
  exact List.nodup_range

theorem Accounted.enqueue (hn : 0 < n) (h : s.Accounted log) (hs : s.step .enqueue = some t) :
    t.Accounted log := by
  simp only [step] at hs
  split_ifs at hs with huse
  obtain rfl := Option.some.inj hs
  have hold : ∀ {task : Nat} {f : Option ρ}, s.futures[task]? = some f →
      (s.futures ++ [none])[task]? = some f := by
    intro task f hf
    obtain ⟨hlt, -⟩ := List.getElem?_eq_some_iff.mp hf
    rw [List.getElem?_append_left hlt, hf]
  refine ⟨?_, ?_, ?_, ?_, h.apart, h.returned, ?_⟩
  · simp only [List.length_append, List.length_singleton, List.range_succ]
    rw [← List.append_assoc, h.order]
  · intro task hm
    rcases List.mem_append.mp hm with hm | hm
    · exact hold (h.queued task hm)
    · obtain rfl := List.mem_singleton.mp hm
      exact List.getElem?_concat_length
  · intro task hm
    exact (h.taken task hm).imp_right fun ⟨result, hr⟩ => ⟨result, hold hr⟩
  · intro w task hw
    exact (h.running w task hw).imp_right hold
  · -- the pool is not used any more when all workers have returned
    intro hall
    rcases huse with hno | ⟨w, hw⟩
    · have := h.returned ⟨0, hn⟩ (hall _)
      rw [hno] at this
      cases this
    · have hret : s.workers w = .returned := hall w
      rw [hret] at hw
      cases hw

theorem goto_cases {x y : WorkerState} {v : Fin n} (h : (s.goto w x).workers v = y) :
    v = w ∧ x = y ∨ v ≠ w ∧ s.workers v = y := by
  change Function.update s.workers w x v = y at h
  rcases eq_or_ne v w with rfl | hv
  · rw [Function.update_self] at h
    exact .inl ⟨rfl, h⟩
  · rw [Function.update_of_ne hv] at h
    exact .inr ⟨hv, h⟩

theorem goto_other {x y : WorkerState} {v : Fin n} (hw : s.workers w ≠ y) (hv : s.workers v = y) :
    (s.goto w x).workers v = y := by
  have hne : v ≠ w := by
    rintro rfl
    exact hw hv
  exact (Function.update_of_ne hne x s.workers).trans hv

theorem goto_self (x : WorkerState) : (s.goto w x).workers w = x := Function.update_self ..

theorem not_all_returned {x : WorkerState} (hx : x ≠ .returned) :
    ¬∀ v, (s.goto w x).workers v = .returned := by
  intro hall
  have := hall w
  rw [goto_self] at this
  exact hx this

theorem Accounted.take {task : Nat} {tasks : List Nat} (h : s.Accounted log)
    (hw : s.workers w = .waiting) (htasks : s.tasks = task :: tasks) :
    ({ s with tasks }.goto w (.running task)).Accounted (task :: log) := by
  have hfuture : s.futures[task]? = some none := h.queued task (by simp [htasks])
  have hnew : task ∉ log := by
    intro hm
    have hnodup := h.nodup
    rw [htasks, List.nodup_append] at hnodup
    exact hnodup.2.2 task (List.mem_reverse.mpr hm) task List.mem_cons_self rfl
  have hwait : ∀ {other : Nat}, s.workers w ≠ .running other := by
    intro other
    rw [hw]
    exact nofun
  refine ⟨?_, ?_, ?_, ?_, ?_, ?_, fun hall => absurd hall (not_all_returned nofun)⟩
  · show (task :: log).reverse ++ tasks = List.range s.futures.length
    rw [← h.order, htasks]
    simp
  · intro other hm
    exact h.queued other (by rw [htasks]; exact List.mem_cons_of_mem _ hm)
  · intro other hm
    rcases List.mem_cons.mp hm with rfl | hm
    · exact .inl ⟨w, goto_self _⟩
    · exact (h.taken other hm).imp_left fun ⟨v, hv⟩ => ⟨v, goto_other hwait hv⟩
  · intro v other hv
    rcases goto_cases hv with ⟨-, heq⟩ | ⟨-, hold⟩
    · obtain rfl := WorkerState.running.inj heq
      exact ⟨List.mem_cons_self, hfuture⟩
    · exact (h.running v other hold).imp_left (List.mem_cons_of_mem _)
  · intro u v other hu hv
    rcases goto_cases hu with ⟨hu, hut⟩ | ⟨-, hu⟩ <;> rcases goto_cases hv with ⟨hv, hvt⟩ | ⟨-, hv⟩
    · rw [hu, hv]
    · obtain rfl := WorkerState.running.inj hut
      exact absurd (h.running v _ hv).1 hnew
    · obtain rfl := WorkerState.running.inj hvt
      exact absurd (h.running u _ hu).1 hnew
    · exact h.apart u v other hu hv
  · intro v hv
    rcases goto_cases hv with ⟨-, heq⟩ | ⟨-, hold⟩
    · cases heq
    · exact h.returned v hold

theorem Accounted.finish {task : Nat} (h : s.Accounted log) (hw : s.workers w = .running task)
    (result : ρ) :
    ({ s with futures := s.futures.set task (some result) }.goto w .waiting).Accounted log := by
  obtain ⟨hm, hfuture⟩ := h.running w task hw
  have hlt : task < s.futures.length := (List.getElem?_eq_some_iff.mp hfuture).1
  have hother : ∀ {other : Nat}, other ≠ task →
      (s.futures.set task (some result))[other]? = s.futures[other]? :=
    fun hne => List.getElem?_set_ne hne.symm
  have hold : ∀ {v other}, ({ s with futures := s.futures.set task (some result) }.goto w
      .waiting).workers v = .running other → v ≠ w ∧ s.workers v = .running other := by
    intro v other hv
    rcases goto_cases hv with ⟨-, heq⟩ | hv
    · cases heq
    · exact hv
  refine ⟨?_, ?_, ?_, ?_, fun u v other hu hv => h.apart u v other (hold hu).2 (hold hv).2, ?_,
    fun hall => absurd hall (not_all_returned nofun)⟩
  · show log.reverse ++ s.tasks = List.range (s.futures.set task (some result)).length
    rw [List.length_set, h.order]
  · intro other ho
    have hne : other ≠ task := by
      rintro rfl
      exact (List.nodup_append.mp h.nodup).2.2 _ (List.mem_reverse.mpr hm) _ ho rfl
    exact (hother hne).trans (h.queued other ho)
  · intro other ho
    by_cases hne : other = task
    · subst hne
      exact .inr ⟨result, List.getElem?_set_self hlt⟩
    · refine (h.taken other ho).imp ?_ ?_
      · rintro ⟨v, hv⟩
        refine ⟨v, goto_other (fun heq => hne ?_) hv⟩
        rw [hw] at heq
        exact (WorkerState.running.inj heq).symm
      · rintro ⟨r, hr⟩
        exact ⟨r, (hother hne).trans hr⟩
  · intro v other hv
    obtain ⟨hvw, hrun⟩ := hold hv
    have hne : other ≠ task := by
      rintro rfl
      exact hvw (h.apart v w _ hrun hw)
    exact (h.running v other hrun).imp_right (hother hne).trans
  · intro v hv
    rcases goto_cases hv with ⟨-, heq⟩ | ⟨-, hv⟩
    · cases heq
    · exact h.returned v hv

theorem Accounted.leave (h : s.Accounted log) (hw : s.workers w = .waiting) (htasks : s.tasks = [])
    (hstop : s.stopRequested w = true) : (s.goto w .returned).Accounted log := by
  have hold : ∀ {v task}, (s.goto w .returned).workers v = .running task →
      s.workers v = .running task := by
    intro v task hv
    rcases goto_cases hv with ⟨-, heq⟩ | ⟨-, hv⟩
    · cases heq
    · exact hv
  refine ⟨h.order, h.queued, ?_, fun v task hv => h.running v task (hold hv),
    fun u v task hu hv => h.apart u v task (hold hu) (hold hv), ?_, fun _ => htasks⟩
  · intro task hm
    refine (h.taken task hm).imp_left ?_
    rintro ⟨v, hv⟩
    exact ⟨v, goto_other (by rw [hw]; exact nofun) hv⟩
  · intro v hv
    rcases goto_cases hv with ⟨rfl, -⟩ | ⟨-, hv⟩
    · exact hstop
    · exact h.returned v hv

theorem accounted_step (hn : 0 < n) {a : Act n ρ} (h : s.Accounted log) (hs : s.step a = some t) :
    t.Accounted (s.takes a ++ log) := by
  cases a with
  | enqueue => exact h.enqueue hn hs
  | wait w =>
    obtain ⟨hw, ⟨task, tasks, htasks, rfl⟩ | ⟨htasks, hstop, rfl⟩⟩ := wait_cases hs
    · have := h.take hw htasks
      simpa [takes, htasks] using this
    · have := h.leave hw htasks hstop
      simpa [takes, htasks] using this
  | finish w result =>
    obtain ⟨task, hw, rfl⟩ := finish_cases hs
    exact h.finish hw result
  | requestStop w =>
    simp only [step] at hs
    split_ifs at hs with hstop
    obtain rfl := Option.some.inj hs
    refine ⟨h.order, h.queued, h.taken, h.running, h.apart, ?_, h.drained⟩
    intro v hv
    show Function.update s.stopRequested w true v = true
    rcases eq_or_ne v w with rfl | hne
    · exact Function.update_self ..
    · rw [Function.update_of_ne hne]
      exact h.returned v hv

abbrev Reached (s : ThreadPool n ρ) (log : List Nat) : Prop :=
  Runs.Reachable (Runs.logged step takes) ({}, []) (s, log)

theorem Reached.accounted (hn : 0 < n) (run : Reached s log) : s.Accounted log := by
  refine run.invariant (P := fun x => x.1.Accounted x.2) (.start hn) ?_
  rintro ⟨s, log⟩ a ⟨t, log'⟩ - h - hs
  obtain ⟨u, hu, heq⟩ := Option.map_eq_some_iff.mp hs
  cases heq
  exact accounted_step hn h hu

/-- Tasks are taken in the order in which they were enqueued, each at most
once, and a worker returns only after a stop request. When all have returned,
each future has its result. -/
theorem threadPool_runs_once (hn : 0 < n) (run : Reached s log) :
    log.Nodup ∧ log.reverse <+: List.range s.futures.length ∧
      (∀ v w task, s.workers v = .running task → s.workers w = .running task → v = w) ∧
      (∀ w, s.workers w = .returned → s.stopRequested w = true) ∧
      ((∀ w, s.workers w = .returned) →
        s.tasks = [] ∧ ∀ task < s.futures.length,
          ∃ result, s.futures[task]? = some (some result)) := by
  have h := run.accounted hn
  have hnodup := List.nodup_append.mp h.nodup
  refine ⟨List.nodup_reverse.mp hnodup.1, ⟨_, h.order⟩, h.apart, h.returned, ?_⟩
  intro hall
  have htasks := h.drained hall
  refine ⟨htasks, fun task hlt => ?_⟩
  have hm : task ∈ log := by
    have := h.order
    rw [htasks, List.append_nil] at this
    rw [← List.mem_reverse, this]
    exact List.mem_range.mpr hlt
  rcases h.taken task hm with ⟨w, hw⟩ | hr
  · rw [hall w] at hw
    cases hw
  · exact hr

def drainedRun : List (Act 2 Nat) :=
  [.enqueue, .wait 0, .enqueue, .enqueue, .requestStop 0, .wait 1, .finish 0 7, .wait 0,
    .finish 0 8, .wait 0, .requestStop 1, .finish 1 9, .wait 1]

theorem threadPool_runs_once_drained :
    ∃ (s : ThreadPool 2 Nat) (log : List Nat), Reached s log ∧ log = [2, 1, 0] ∧
      s.tasks = [] ∧ ∀ task < s.futures.length,
        ∃ result, s.futures[task]? = some (some result) := by
  have hsome : (Runs.exec (Runs.logged step takes) (({}, []) : ThreadPool 2 Nat × List Nat)
      drainedRun).isSome = true := by decide
  obtain ⟨⟨s, log⟩, hs⟩ := Option.isSome_iff_exists.mp hsome
  have hlog : log = [2, 1, 0] := by
    have : (Runs.exec (Runs.logged step takes) (({}, []) : ThreadPool 2 Nat × List Nat)
        drainedRun).map (·.2) = some [2, 1, 0] := by decide
    rw [hs] at this
    exact Option.some.inj this
  have hall : ∀ w, s.workers w = .returned := by
    have : (Runs.exec (Runs.logged step takes) (({}, []) : ThreadPool 2 Nat × List Nat)
        drainedRun).all (fun x => decide (∀ w, x.1.workers w = .returned)) = true := by decide
    rw [hs] at this
    exact of_decide_eq_true this
  have run : Reached s log := Runs.reachable_of_exec hs
  exact ⟨s, log, run, hlog, (threadPool_runs_once (by decide) run).2.2.2.2 hall⟩

end ThreadPool

end ByeByeVpn
