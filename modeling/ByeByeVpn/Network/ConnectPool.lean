import ByeByeVpn.Lib.Runs
import ByeByeVpn.Network.EpollWorker
import Mathlib.Algebra.BigOperators.Fin

/-!
# The connect scan (`run_connect_scan_with_pool`, `scan_tcp_async`)

The workers of the pool and the thread that collects their results take
steps in any order. They share the stop flag, which only the watchdog sets,
and the count of scanned ports, which the watchdog reads. The workers' books
add up: what the collector has merged is a ledger of the shards it took.
-/

namespace ByeByeVpn

def WorkerResult.merge (total wr : WorkerResult) : WorkerResult where
  scanned := total.scanned + wr.scanned
  timeouts := total.timeouts + wr.timeouts
  refused := total.refused + wr.refused
  other := total.other + wr.other
  aborted := total.aborted || wr.aborted
  «open» := total.open ++ wr.open

namespace ConnectPool

structure Config where
  ports : List Int
  threads : Int
  timeoutMs : Int
  /-- `std::thread::hardware_concurrency()` -/
  hw : Nat

namespace Config

def inflightTotal (c : Config) : Int := max 64 (min c.threads 16384)

def workers (c : Config) : Nat :=
  let hw := if c.hw = 0 then 4 else c.hw
  let workers := max 1 (min (c.inflightTotal / 256).toNat (hw * 2))
  let workers := if 2048 ≤ c.ports.length then max 2 workers else workers
  min workers c.ports.length

def inflightPerWorker (c : Config) : Int := max 64 (c.inflightTotal / c.workers)

/-- `shards.at(i % workers).push_back(ports.at(i))`, from port number `i` on. -/
def deal (workers : Nat) : Nat → List Int → List (List Int) → List (List Int)
  | _, [], shards => shards
  | i, p :: ports, shards => deal workers (i + 1) ports (shards.modify (i % workers) (· ++ [p]))

def shards (c : Config) : List (List Int) :=
  deal c.workers 0 c.ports (List.replicate c.workers [])

def shard (c : Config) (i : Fin c.workers) : List Int := c.shards.getD i []

def worker (c : Config) (i : Fin c.workers) : Epoll.Config where
  ports := c.shard i
  timeoutMs := c.timeoutMs
  maxInflight := c.inflightPerWorker

def stallLimitMs (c : Config) : Int := max 8000 (c.timeoutMs * 6)

end Config

/-- The collecting thread: it asks one future after another, and then looks
at the progress. -/
inductive Point
  | futures (i : Nat)
  | progress
  | returned
  deriving DecidableEq, Repr

structure Pool (n : Nat) where
  stop : Bool := false
  progressScanned : Nat := 0
  workers : Fin n → Epoll.Worker := fun _ => {}
  point : Point
  taken : Fin n → Bool := fun _ => false
  done : Nat := 0
  total : WorkerResult := {}
  lastScanned : Nat := 0
  lastProgress : Time

inductive Act (n : Nat)
  | worker (i : Fin n) (a : Epoll.Act)
  | future
  | progress (now : Time)

variable {c : Config}

def start (c : Config) (now : Time) : Pool c.workers where
  point := if c.ports.isEmpty then .returned else .futures 0
  lastProgress := now

/-- The future of worker `i` is ready, and its result is added to the total. -/
def Pool.take (s : Pool n) (i : Fin n) : Pool n :=
  { s with
    taken := Function.update s.taken i true
    done := s.done + 1
    total := s.total.merge (s.workers i).out
    point := .futures (i + 1) }

def Pool.watch (c : Config) (s : Pool n) (now : Time) : Pool n :=
  if s.progressScanned ≠ s.lastScanned then
    { s with lastScanned := s.progressScanned, lastProgress := now }
  else if c.stallLimitMs < elapsedMs now s.lastProgress then { s with stop := true }
  else s

def step (c : Config) (s : Pool c.workers) : Act c.workers → Option (Pool c.workers)
  | .worker i a =>
    if ∀ j, (s.workers j).fresh a then
      ((s.workers i).step (c.worker i) s.stop a).map fun w =>
        { s with
          workers := Function.update s.workers i w
          progressScanned := s.progressScanned + (w.out.scanned - (s.workers i).out.scanned) }
    else none
  | .future =>
    match s.point with
    | .futures i =>
      if h : i < c.workers then
        if s.taken ⟨i, h⟩ = false ∧ (s.workers ⟨i, h⟩).point = .returned then some (s.take ⟨i, h⟩)
        else some { s with point := .futures (i + 1) }
      else some { s with point := .progress }
    | _ => none
  | .progress now =>
    if s.point = .progress then
      some { s.watch c now with
        point := if s.done = c.workers then .returned else .futures 0 }
    else none

-- ---------------------------------------------------------------------------
-- The shards
-- ---------------------------------------------------------------------------

open ConnectPool.Config

theorem sum_modify (shards : List (List Int)) (i : Nat) (hi : i < shards.length) (p : Int) :
    ((shards.modify i (· ++ [p])).map ((↑) : List Int → Multiset Int)).sum =
      (shards.map ((↑) : List Int → Multiset Int)).sum + {p} := by
  induction shards generalizing i with
  | nil => simp at hi
  | cons s shards ih =>
    cases i with
    | zero =>
      simp only [List.modify_zero_cons, List.map_cons, List.sum_cons, ← Multiset.coe_add,
        Multiset.coe_singleton]
      abel
    | succ i =>
      rw [List.modify_succ_cons, List.map_cons, List.sum_cons, ih i (by simpa using hi),
        List.map_cons, List.sum_cons, add_assoc]

theorem length_deal (workers i : Nat) (ports : List Int) (shards : List (List Int)) :
    (deal workers i ports shards).length = shards.length := by
  induction ports generalizing i shards with
  | nil => rfl
  | cons p ports ih => rw [deal, ih, List.length_modify]

theorem sum_deal (workers i : Nat) (hw : 0 < workers) (ports : List Int)
    (shards : List (List Int)) (hl : shards.length = workers) :
    ((deal workers i ports shards).map ((↑) : List Int → Multiset Int)).sum =
      (shards.map ((↑) : List Int → Multiset Int)).sum + ports := by
  induction ports generalizing i shards with
  | nil => simp [deal]
  | cons p ports ih =>
    have hi : i % workers < shards.length := hl.symm ▸ Nat.mod_lt i hw
    rw [deal, ih _ _ (by simpa using hl), sum_modify _ _ hi, add_assoc, Multiset.singleton_add,
      Multiset.cons_coe]

theorem workers_pos (h : c.ports ≠ []) : 0 < c.workers := by
  refine lt_min ?_ (List.length_pos_of_ne_nil h)
  split
  · exact lt_of_lt_of_le (by decide) (le_max_left 2 _)
  · exact lt_of_lt_of_le (by decide) (le_max_left 1 _)

theorem sum_shards (c : Config) : ∑ i, (c.shard i : Multiset Int) = c.ports := by
  by_cases h : c.ports = []
  · have hw : c.workers = 0 := by simp [Config.workers, h]
    have : IsEmpty (Fin c.workers) := by rw [hw]; infer_instance
    simp [h]
  · have hl : c.shards.length = c.workers := by simp [shards, length_deal]
    have hs : (c.shards.map ((↑) : List Int → Multiset Int)).sum = c.ports := by
      simpa [shards] using
        sum_deal c.workers 0 (workers_pos h) c.ports (List.replicate c.workers []) (by simp)
    rw [← hs, ← List.sum_ofFn]
    congr 1
    apply List.ext_getElem (by simp [hl])
    intro i h₁ h₂
    have hi : i < c.shards.length := by rwa [List.length_map] at h₂
    simp [shard, hi]

end ConnectPool

end ByeByeVpn
