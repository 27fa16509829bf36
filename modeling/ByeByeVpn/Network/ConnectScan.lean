import ByeByeVpn.Network.ConnectPool

/-!
# The books of the connect scan

Every worker keeps the invariant of its loops in every reachable state of
the pool, whatever the other threads do, and the merged result is the union
of the workers' books.
-/

namespace ByeByeVpn

/-- The counters of a result are consistent, and name no port that was not
requested. -/
structure Covers (ports : Multiset Int) (out : WorkerResult) : Prop where
  openPorts : out.openPorts ≤ ports
  scanned_le : out.scanned ≤ ports.card
  scanned_eq : out.scanned = out.open.length + out.timeouts + out.refused + out.other

def mergeAll (rs : List WorkerResult) : WorkerResult := rs.foldl WorkerResult.merge {}

theorem mergeAll_concat (rs : List WorkerResult) (r : WorkerResult) :
    mergeAll (rs ++ [r]) = (mergeAll rs).merge r := by
  simp [mergeAll]

theorem openPorts_merge (t r : WorkerResult) :
    (t.merge r).openPorts = t.openPorts + r.openPorts := by
  simp [WorkerResult.openPorts, WorkerResult.merge]

theorem aborted_mergeAll (rs : List WorkerResult) :
    (mergeAll rs).aborted = true ↔ ∃ r ∈ rs, r.aborted = true := by
  induction rs using List.reverseRecOn with
  | nil => simp [mergeAll]
  | append_singleton rs r ih =>
    rw [mergeAll_concat, WorkerResult.merge]
    simp only [Bool.or_eq_true, ih, List.mem_append, List.mem_singleton]
    aesop

theorem Books.covers (h : Books ports out inflight waiting) :
    Covers (ports : Multiset Int) out := by
  refine ⟨h.openPorts_le, ?_, h.scanned_eq⟩
  have := h.scanned_add
  rw [Multiset.coe_card]
  omega

theorem Covers.merge (h₁ : Covers p₁ r₁) (h₂ : Covers p₂ r₂) :
    Covers (p₁ + p₂) (r₁.merge r₂) := by
  refine ⟨?_, ?_, ?_⟩
  · rw [openPorts_merge]
    exact add_le_add h₁.openPorts h₂.openPorts
  · rw [Multiset.card_add]
    exact add_le_add h₁.scanned_le h₂.scanned_le
  · simp only [WorkerResult.merge, List.length_append, h₁.scanned_eq, h₂.scanned_eq]
    omega

theorem Classified.merge (h₁ : Classified p₁ r₁) (h₂ : Classified p₂ r₂) :
    Classified (p₁ + p₂) (r₁.merge r₂) := by
  obtain ⟨t₁, f₁, o₁, ht₁, hf₁, ho₁, rfl⟩ := h₁
  obtain ⟨t₂, f₂, o₂, ht₂, hf₂, ho₂, rfl⟩ := h₂
  refine ⟨t₁ + t₂, f₁ + f₂, o₁ + o₂, ?_, ?_, ?_, ?_⟩
  · rw [Multiset.card_add, ht₁, ht₂, WorkerResult.merge]
  · rw [Multiset.card_add, hf₁, hf₂, WorkerResult.merge]
  · rw [Multiset.card_add, ho₁, ho₂, WorkerResult.merge]
  · rw [openPorts_merge]
    abel

theorem mergeAll_induction {P : Multiset Int → WorkerResult → Prop} (zero : P 0 {})
    (merge : ∀ {p₁ r₁ p₂ r₂}, P p₁ r₁ → P p₂ r₂ → P (p₁ + p₂) (r₁.merge r₂))
    {ι : Type} (shard : ι → Multiset Int) (out : ι → WorkerResult) (order : List ι)
    (h : ∀ i ∈ order, P (shard i) (out i)) :
    P (order.map shard).sum (mergeAll (order.map out)) := by
  induction order using List.reverseRecOn with
  | nil => exact zero
  | append_singleton order i ih =>
    rw [List.map_append, List.sum_append, List.map_append, List.map_singleton, List.map_singleton,
      List.sum_singleton, mergeAll_concat]
    exact merge (ih fun j hj => h j (by simp [hj])) (h i (by simp))

namespace ConnectPool

open Runs

variable {c : Config} {s t : Pool c.workers} {a : Act c.workers}

/-- The collector has merged the results of the workers in `order`, and has
returned only when it has taken them all. -/
structure Merged (s : Pool n) (order : List (Fin n)) : Prop where
  nodup : order.Nodup
  taken : ∀ i, i ∈ order ↔ s.taken i = true
  done : s.done = order.length
  total : s.total = mergeAll (order.map fun i => (s.workers i).out)
  returned : ∀ i ∈ order, (s.workers i).point = .returned

structure Inv (c : Config) (s : Pool c.workers) : Prop where
  workers : ∀ i, Epoll.Worker.Inv (c.worker i) s.stop (s.workers i)
  merged : ∃ order, Merged s order
  all : s.point = .returned → s.done = c.workers

theorem inv_start (c : Config) (now : Time) : Inv c (start c now) := by
  refine ⟨fun i => ⟨rfl, rfl, rfl⟩, ⟨[], .nil, by simp [start], rfl, rfl, by simp⟩, ?_⟩
  intro h
  have he : c.ports = [] := by
    by_contra hne
    simp [start, hne] at h
  simp [start, Config.workers, he]

theorem step_returned {cfg : Epoll.Config} {w : Epoll.Worker} {b : Epoll.Act}
    (h : w.point = .returned) : w.step cfg stop b = none := by
  simp [Epoll.Worker.step, h]

theorem Merged.worker {b : Epoll.Act} (h : Merged s order)
    (hw : (s.workers i).step cfg stop b = some w) : Merged { s with
      workers := Function.update s.workers i w, progressScanned := p } order := by
  have hi : i ∉ order := fun hm => by
    rw [step_returned (h.returned i hm)] at hw
    cases hw
  have hu : ∀ j ∈ order, Function.update s.workers i w j = s.workers j := fun j hj =>
    Function.update_of_ne (ne_of_mem_of_not_mem hj hi) _ _
  refine ⟨h.nodup, h.taken, h.done, ?_, ?_⟩
  · rw [h.total, List.map_congr_left fun j hj => by rw [← hu j hj]]
  · intro j hj
    rw [← h.returned j hj, ← hu j hj]

theorem Merged.take (h : Merged s order) (ht : s.taken i = false)
    (hr : (s.workers i).point = .returned) : Merged (s.take i) (order ++ [i]) := by
  have hi : i ∉ order := fun hm => by simp [(h.taken i).mp hm] at ht
  refine ⟨?_, ?_, ?_, ?_, ?_⟩
  · exact h.nodup.append (List.nodup_singleton i) (by simpa using hi)
  · intro j
    by_cases hj : j = i <;> simp [Pool.take, hj, h.taken]
  · simp [Pool.take, h.done]
  · rw [List.map_append, List.map_singleton, mergeAll_concat]
    simp only [Pool.take, h.total]
  · intro j hj
    rcases List.mem_append.mp hj with hj | hj
    · exact h.returned j hj
    · rw [List.mem_singleton.mp hj]
      exact hr

theorem watch_done : (s.watch c now).done = s.done := by
  unfold Pool.watch
  split
  · rfl
  · split <;> rfl

theorem Inv.watch (h : Inv c s) (now : Time) : Inv c (s.watch c now) := by
  obtain ⟨order, hm⟩ := h.merged
  unfold Pool.watch
  split
  · exact ⟨h.workers, ⟨order, hm.nodup, hm.taken, hm.done, hm.total, hm.returned⟩, h.all⟩
  · split
    · refine ⟨fun i => ?_, ⟨order, hm.nodup, hm.taken, hm.done, hm.total, hm.returned⟩, h.all⟩
      cases hs : s.stop with
      | true => exact hs ▸ h.workers i
      | false => exact (hs ▸ h.workers i : Epoll.Worker.Inv _ false _).stopped
    · exact h

theorem step_inv (h : Inv c s) (hs : step c s a = some t) : Inv c t := by
  obtain ⟨order, hm⟩ := h.merged
  cases a with
  | worker i a =>
    simp only [step] at hs
    split at hs
    · next hf =>
      obtain ⟨w, hw, rfl⟩ := Option.map_eq_some_iff.mp hs
      refine ⟨fun j => ?_, ⟨order, hm.worker hw⟩, h.all⟩
      by_cases hj : j = i
      · subst hj
        simpa using Epoll.Worker.step_inv (h.workers j) (hf j) hw
      · simpa [Function.update_of_ne hj] using h.workers j
    · cases hs
  | future =>
    simp only [step] at hs
    split at hs
    · split at hs
      · split at hs <;> cases hs
        · next hr => exact ⟨h.workers, ⟨_, hm.take hr.1 hr.2⟩, by simp [Pool.take]⟩
        · exact ⟨h.workers, ⟨order, hm.nodup, hm.taken, hm.done, hm.total, hm.returned⟩, by simp⟩
      · cases hs
        exact ⟨h.workers, ⟨order, hm.nodup, hm.taken, hm.done, hm.total, hm.returned⟩, by simp⟩
    · cases hs
  | progress now =>
    simp only [step] at hs
    split at hs <;> cases hs
    have hw := h.watch now
    obtain ⟨order, hm⟩ := hw.merged
    refine ⟨hw.workers, ⟨order, hm.nodup, hm.taken, hm.done, hm.total, hm.returned⟩, ?_⟩
    intro hp
    simp only at hp
    split at hp
    · next hd => exact watch_done.trans hd
    · cases hp

theorem reachable_inv (run : Reachable (step c) (start c now) s) : Inv c s :=
  run.invariant (inv_start c now) fun _ h _ hs => step_inv h hs

-- ---------------------------------------------------------------------------
-- What `scan_tcp_async` returns
-- ---------------------------------------------------------------------------

theorem toFinset_order {order : List (Fin n)} (hn : order.Nodup) (hl : order.length = n) :
    order.toFinset = Finset.univ := by
  rw [← Finset.card_eq_iff_eq_univ, List.toFinset_card_of_nodup hn, hl, Fintype.card_fin]

/-- The collector comes back with the merged results of all workers. -/
theorem Inv.collected (h : Inv c s) (hr : s.point = .returned) :
    ∃ order : List (Fin c.workers), (∀ i, i ∈ order) ∧
      (∀ i, Concluded (c.shard i) (s.workers i).out) ∧
      s.total = mergeAll (order.map fun i => (s.workers i).out) ∧
      (order.map fun i => (c.shard i : Multiset Int)).sum = c.ports := by
  obtain ⟨order, hm⟩ := h.merged
  have hl : order.length = c.workers := hm.done.symm.trans (h.all hr)
  have hu := toFinset_order hm.nodup hl
  have hmem : ∀ i, i ∈ order := fun i => List.mem_toFinset.mp (hu ▸ Finset.mem_univ i)
  refine ⟨order, hmem, ?_, hm.total, ?_⟩
  · intro i
    have hw := h.workers i
    simpa [Epoll.Worker.Inv, hm.returned i (hmem i), Config.worker] using hw
  · rw [← List.sum_toFinset _ hm.nodup, hu, sum_shards]

theorem Inv.covers (h : Inv c s) (hr : s.point = .returned) : Covers c.ports s.total := by
  obtain ⟨order, -, hf, ht, hp⟩ := h.collected hr
  rw [ht, ← hp]
  refine mergeAll_induction ⟨by simp [WorkerResult.openPorts], le_rfl, rfl⟩ Covers.merge _ _ order
    fun i _ => ?_
  obtain ⟨inflight, waiting, hb, -⟩ := hf i
  exact hb.covers

theorem Inv.aborted (h : Inv c s) (hr : s.point = .returned) :
    s.total.aborted = true ↔ ∃ i, (s.workers i).out.aborted = true := by
  obtain ⟨order, hmem, -, ht, -⟩ := h.collected hr
  simp [ht, aborted_mergeAll, hmem]

theorem Inv.classified (h : Inv c s) (hr : s.point = .returned)
    (hna : ∀ i, (s.workers i).out.aborted = false) : Classified c.ports s.total := by
  obtain ⟨order, -, hf, ht, hp⟩ := h.collected hr
  rw [ht, ← hp]
  apply mergeAll_induction ⟨0, 0, 0, rfl, rfl, rfl, rfl⟩ Classified.merge _ _ order
  intro i _
  obtain ⟨inflight, waiting, hb, hd⟩ := hf i
  obtain ⟨rfl, rfl⟩ := hd (hna i)
  exact hb.classified

/-- What `scan_tcp_async` hands to its caller at the end of the connect path. -/
structure Returns (c : Config) (s : Pool c.workers) (opens : List TcpOpen) (stats : ScanStats) :
    Prop where
  returned : s.point = .returned
  sorted : SortedByPort s.total.open opens
  stats_eq : stats = finishScan c.ports s.total

theorem inflightPerWorker_pos (c : Config) : 0 ≤ c.inflightPerWorker :=
  le_trans (by decide) (le_max_left 64 _)

/-- Connect-scan accounting. At every loop head of every worker nothing is
lost or counted twice, and what is returned is a classification of requested
ports, of all of them when no worker was stopped. -/
theorem connectScan_accounting (c : Config) (now : Time) (s : Pool c.workers)
    (run : Reachable (step c) (start c now) s) :
    (∀ i, (s.workers i).point.IsHead →
      (s.workers i).out.scanned + (s.workers i).active.size = (s.workers i).nextIdx ∧
      ((s.workers i).active.size : Int) ≤ c.inflightPerWorker ∧
      (s.workers i).out.scanned = (s.workers i).out.open.length + (s.workers i).out.timeouts +
        (s.workers i).out.refused + (s.workers i).out.other) ∧
    ∀ opens stats, Returns c s opens stats →
      opens.Pairwise (fun a b => a.port ≤ b.port) ∧
      (opens.map TcpOpen.port : Multiset Int) ≤ c.ports ∧
      stats.scanned = opens.length + stats.timeouts + stats.refused + stats.other ∧
      stats.scanned ≤ c.ports.length ∧
      (stats.skipped = true ↔
        (∃ i, (s.workers i).out.aborted = true) ∨ stats.scanned < c.ports.length) ∧
      ((∀ i, (s.workers i).out.aborted = false) →
        stats.scanned = c.ports.length ∧
        ∃ timeouts refused other : Multiset Int,
          timeouts.card = stats.timeouts ∧ refused.card = stats.refused ∧
          other.card = stats.other ∧
          (c.ports : Multiset Int) = opens.map TcpOpen.port + timeouts + refused + other) := by
  have inv := reachable_inv run
  constructor
  · intro i hi
    have hw := (inv.workers i).running hi
    refine ⟨hw.accounted, ?_, hw.books.scanned_eq⟩
    have hroom := hw.room
    have hpos := inflightPerWorker_pos c
    simp only [Config.worker] at hroom
    omega
  · rintro opens _ ⟨hr, ⟨hperm, hsorted⟩, rfl⟩
    have hc := inv.covers hr
    have hopen : (opens.map TcpOpen.port : Multiset Int) = s.total.openPorts :=
      Multiset.coe_eq_coe.mpr (hperm.map _)
    refine ⟨hsorted, hopen ▸ hc.openPorts, ?_, hc.scanned_le, ?_, ?_⟩
    · rw [hperm.length_eq]
      exact hc.scanned_eq
    · simp [finishScan, inv.aborted hr]
    · intro hna
      obtain ⟨t, f, o, ht, hf, ho, hports⟩ := inv.classified hr hna
      refine ⟨?_, t, f, o, ht, hf, ho, hopen ▸ hports⟩
      have hcard := congrArg Multiset.card hports
      simp only [Multiset.coe_card, Multiset.card_add, WorkerResult.openPorts, List.length_map, ht,
        hf, ho] at hcard
      simp only [finishScan, hc.scanned_eq, hcard]

/-- Two ports for one worker: port 80 refuses at once while port 443 is in
flight, and then port 443 accepts. -/
def sample : Config := { ports := [443, 80], threads := 64, timeoutMs := 1000, hw := 4 }

def sampleRun : List (Act 1) :=
  [.tick, .epollCreate 3, .tick, .tick, .socket 4 0, .connectFailed EINPROGRESS, .epollCtl 0,
    .tick, .socket 5 1000000, .connectFailed ECONNREFUSED, .tick, .epollWait [4] 9000000,
    .soError 0, .tick, .tick, .tick, .tick].map (.worker 0) ++ [.future, .future, .progress 0]

theorem connectScan_accounting_sample :
    ∃ s, Returns sample s [{ port := 443, connectMs := 9 }] { scanned := 2, refused := 1 } ∧
      ({443} : Multiset Int) ≤ ([443, 80] : List Int) ∧ (false = true ↔
        (∃ i, (s.workers i).out.aborted = true) ∨ 2 < 2) := by
  obtain ⟨s, hs⟩ := Option.isSome_iff_exists.mp
    (show (exec (step sample) (start sample 0) sampleRun).isSome by decide)
  have hend : (exec (step sample) (start sample 0) sampleRun).map (fun s => (s.point, s.total)) =
      some (.returned,
        { «open» := [{ port := 443, connectMs := 9 }], scanned := 2, refused := 1 }) := by decide
  simp only [hs, Option.map_some, Option.some.injEq, Prod.mk.injEq] at hend
  have hr : Returns sample s [{ port := 443, connectMs := 9 }] { scanned := 2, refused := 1 } := by
    refine ⟨hend.1, ?_, ?_⟩
    · rw [hend.2]
      exact ⟨.refl _, by simp⟩
    · rw [hend.2]
      rfl
  have h := (connectScan_accounting sample 0 s (reachable_of_exec hs)).2 _ _ hr
  exact ⟨s, hr, h.2.1, h.2.2.2.2.1⟩

end ConnectPool

end ByeByeVpn
