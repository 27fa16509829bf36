import ByeByeVpn.Cli.Main
import ByeByeVpn.Network.ConnectFds

/-!
# Threads and descriptors (`clamp_threads_to_nofile_limit`)

The thread count is lowered until it leaves some descriptors unused. The
connect scan reads it as the number of sockets to hold at once, and deals
that number out to its workers with a floor of its own for each.
-/

namespace ByeByeVpn

/-- `rlim_t` has 64 bits. -/
def RLIM_INFINITY : UInt64 := 0xFFFFFFFFFFFFFFFF

def kNofileReserve : UInt64 := 128

def intMax : Int := 2147483647

def clampWarning (threads : Int) (rlimCur : UInt64) : Bytes :=
  ascii "warn: clamped --threads to " ++ decimal threads ++
    ascii " due to RLIMIT_NOFILE soft=" ++ decimal rlimCur.toNat ++
    ascii " (raise ulimit -n to allow more)\n"

/-- `lim` is the soft limit that `getrlimit` finds, unless it fails. The text
goes to `stderr`. -/
def clampThreadsToNofileLimit (lim : Option UInt64) (c : Config) : Config × Bytes :=
  match lim with
  | none => (c, [])
  | some rlimCur =>
    if rlimCur = RLIM_INFINITY then (c, [])
    else if rlimCur ≤ kNofileReserve then
      if c.threads ≠ kMinThreadCount then
        ({ c with threads := kMinThreadCount }, clampWarning kMinThreadCount rlimCur)
      else (c, [])
    else
      let maxThreadsRl := rlimCur - kNofileReserve
      let maxThreads := if intMax < maxThreadsRl.toNat then intMax else maxThreadsRl.toNat
      if maxThreads < c.threads then
        ({ c with threads := maxThreads }, clampWarning maxThreads rlimCur)
      else (c, [])

theorem threads_clamp {rlimCur : UInt64} (hfin : rlimCur ≠ RLIM_INFINITY)
    (hres : 128 < rlimCur.toNat) (c : Config) (hc : c.threads ≤ kMaxThreadCount) :
    (clampThreadsToNofileLimit (some rlimCur) c).1.threads =
      min c.threads (rlimCur.toNat - 128) := by
  have hle : ¬rlimCur ≤ kNofileReserve := by
    rw [UInt64.not_le, UInt64.lt_iff_toNat_lt]
    exact hres
  have hsub : (rlimCur - kNofileReserve).toNat = rlimCur.toNat - 128 :=
    UInt64.toNat_sub_of_le _ _ (UInt64.le_of_lt (UInt64.not_le.mp hle))
  unfold kMaxThreadCount at hc
  simp only [clampThreadsToNofileLimit, if_neg hfin, if_neg hle, hsub, intMax]
  split <;> split <;> simp only <;> omega

namespace ConnectPool

/-- The sockets that all workers together may hold at once. -/
def Config.budget (c : Config) : Int := c.workers * c.inflightPerWorker

variable {c : Config}

theorem mul_max_div_le {w total floor bound : Int} (hw : 0 < w) (htotal : total ≤ bound)
    (hfloor : w * floor ≤ bound) : w * max floor (total / w) ≤ bound := by
  rcases max_choice floor (total / w) with h | h
  · rwa [h]
  · rw [h]
    exact le_trans (Int.mul_ediv_self_le hw.ne') htotal

theorem workers_le (c : Config) :
    (c.workers : Int) ≤ max (if 2048 ≤ c.ports.length then 2 else 1) (c.inflightTotal / 256) := by
  unfold Config.workers
  dsimp only
  generalize (if c.hw = 0 then 4 else c.hw) * 2 = hw
  split <;> omega

theorem inflightTotal_pos (c : Config) : 64 ≤ c.inflightTotal := le_max_left _ _

theorem budget_le (h : c.ports.length < 2048 ∨ 128 ≤ bound) (htotal : c.inflightTotal ≤ bound) :
    c.budget ≤ bound := by
  have hpos := inflightTotal_pos c
  by_cases hp : c.ports = []
  · have hw : c.workers = 0 := by simp [Config.workers, hp]
    simp only [Config.budget, hw]
    omega
  · refine mul_max_div_le (by exact_mod_cast workers_pos hp) htotal ?_
    have hle := workers_le c
    split at hle <;> omega

theorem le_budget (h : 2048 ≤ c.ports.length) : 128 ≤ c.budget := by
  have hw : (2 : Int) ≤ c.workers := by
    unfold Config.workers
    dsimp only
    rw [if_pos h]
    omega
  have hfloor : 64 ≤ c.inflightPerWorker := le_max_left _ _
  calc (128 : Int) = 2 * 64 := rfl
    _ ≤ c.workers * c.inflightPerWorker :=
      Int.mul_le_mul hw hfloor (by decide) (by omega)

end ConnectPool

/-- Sockets and descriptors. Under a limit of at least 192 the clamped thread
count keeps the connect scan within what the limit leaves exactly for the
port lists with one worker, and for limits that leave room for two floors. -/
theorem budget_le_nofile_iff (rlimCur : UInt64) (hfin : rlimCur ≠ RLIM_INFINITY)
    (hlim : 192 ≤ rlimCur) (c : Config) (hmax : c.threads ≤ kMaxThreadCount) (ports : List Int)
    (timeoutMs : Int) (hw : Nat) :
    ConnectPool.Config.budget
        ⟨ports, (clampThreadsToNofileLimit (some rlimCur) c).1.threads, timeoutMs, hw⟩ ≤
      rlimCur.toNat - 128 ↔ ports.length < 2048 ∨ 256 ≤ rlimCur := by
  have hlim' : 192 ≤ rlimCur.toNat := UInt64.le_iff_toNat_le.mp hlim
  have h256 : 256 ≤ rlimCur ↔ 256 ≤ rlimCur.toNat := UInt64.le_iff_toNat_le
  rw [threads_clamp hfin (by omega) c hmax, h256]
  constructor
  · intro h
    by_contra hn
    simp only [not_or, not_lt] at hn
    have hle := ConnectPool.le_budget (c := ⟨ports, min c.threads (rlimCur.toNat - 128), timeoutMs,
      hw⟩) hn.1
    omega
  · intro h
    refine ConnectPool.budget_le ?_ ?_
    · simp only
      omega
    · simp only [ConnectPool.Config.inflightTotal]
      omega

theorem budget_le_nofile_iff_1024 :
    ConnectPool.Config.budget ⟨portsBetween 1 65535,
      (clampThreadsToNofileLimit (some 1024) {}).1.threads, 1000, 4⟩ ≤ 1024 - 128 :=
  (budget_le_nofile_iff 1024 (by decide) (by decide) {} (by decide) _ 1000 4).mpr
    (.inr (by decide))

/-- With 192 descriptors two workers may hold 128 sockets, of the 64 that are left. -/
theorem nofile_lt_budget :
    ¬ConnectPool.Config.budget ⟨portsBetween 1 65535,
      (clampThreadsToNofileLimit (some 192) {}).1.threads, 1000, 4⟩ ≤ 192 - 128 := by
  have hlen : (portsBetween 1 65535).length = 65535 := by
    rw [portsBetween, List.length_map, List.length_range]
    rfl
  have hle := ConnectPool.le_budget (c := ⟨portsBetween 1 65535,
    (clampThreadsToNofileLimit (some 192) {}).1.threads, 1000, 4⟩) (by rw [hlen]; omega)
  omega

-- ---------------------------------------------------------------------------
-- The descriptors that are open during a scan
-- ---------------------------------------------------------------------------

theorem threads_clamp_le {rlimCur : UInt64} (hfin : rlimCur ≠ RLIM_INFINITY) (c : Config)
    (hc : c.threads ≤ kMaxThreadCount) :
    (clampThreadsToNofileLimit (some rlimCur) c).1.threads ≤
      min 10000 (max 1 ((rlimCur.toNat : Int) - 128)) := by
  unfold kMaxThreadCount at hc
  by_cases hres : 128 < rlimCur.toNat
  · rw [threads_clamp hfin hres c hc]
    omega
  · have hle : rlimCur ≤ kNofileReserve := by
      rw [UInt64.le_iff_toNat_le]
      exact Nat.not_lt.mp hres
    have hone : (clampThreadsToNofileLimit (some rlimCur) c).1.threads = 1 := by
      simp only [clampThreadsToNofileLimit, if_neg hfin, if_pos hle]
      split_ifs with hthreads
      · rfl
      · exact of_not_not hthreads
    omega

namespace ConnectPool

/-- The sockets and the epoll instances, for a number of threads that is cut
to what `limit` leaves. -/
theorem budget_add_workers_le {c : Config} {limit : Nat}
    (h : c.threads ≤ min 10000 (max 1 ((limit : Int) - 128))) :
    c.budget + c.workers ≤ max 130 ((limit : Int) - 89) := by
  have htotal : c.inflightTotal ≤ max 64 (min 10000 ((limit : Int) - 128)) := by
    unfold Config.inflightTotal
    omega
  have hbudget : c.budget ≤ max 128 ((limit : Int) - 128) :=
    budget_le (.inr (le_max_left _ _)) (by omega)
  have hworkers := workers_le c
  split at hworkers <;> omega

end ConnectPool

/-- Under every limit, the scan with the clamped thread count has at most 130
descriptors open, or 89 fewer than the limit. From a limit of 192 on there are
always 62 left for the rest of the process. -/
theorem connectScan_openFiles (rlimCur : UInt64) (hfin : rlimCur ≠ RLIM_INFINITY) (c : Config)
    (hmax : c.threads ≤ kMaxThreadCount) (pool : ConnectPool.Config)
    (hpool : pool.threads = (clampThreadsToNofileLimit (some rlimCur) c).1.threads) (now : Time)
    (s : ConnectPool.Pool pool.workers)
    (run : Runs.Reachable (ConnectPool.step pool) (ConnectPool.start pool now) s) :
    ∃ fds : Finset Fd, (∀ fd, fd ∈ fds ↔ ∃ i, (s.workers i).holds fd = true) ∧
      (fds.card : Int) ≤ max 130 ((rlimCur.toNat : Int) - 89) ∧
      (192 ≤ rlimCur → fds.card + 62 ≤ rlimCur.toNat) := by
  obtain ⟨t, howned⟩ := ConnectPool.reachable_owned run
  have hthreads : pool.threads ≤ min 10000 (max 1 ((rlimCur.toNat : Int) - 128)) := by
    rw [hpool]
    exact threads_clamp_le hfin c hmax
  have hcard : ((ConnectPool.fds s).card : Int) ≤ max 130 ((rlimCur.toNat : Int) - 89) :=
    calc ((ConnectPool.fds s).card : Int) ≤ pool.workers * (pool.inflightPerWorker + 1) :=
          howned.card_fds (ConnectPool.reachable_inv run)
      _ = pool.budget + pool.workers := mul_add_one _ _
      _ ≤ max 130 ((rlimCur.toNat : Int) - 89) := ConnectPool.budget_add_workers_le hthreads
  refine ⟨ConnectPool.fds s, fun fd => ?_, hcard, fun hlim => ?_⟩
  · simp [ConnectPool.fds, Epoll.Worker.mem_fds]
  · have hlim' : 192 ≤ rlimCur.toNat := UInt64.le_iff_toNat_le.mp hlim
    omega

theorem connectScan_openFiles_1024 :
    ∃ s, Runs.Reachable (ConnectPool.step ConnectPool.sample)
        (ConnectPool.start ConnectPool.sample 0) s ∧
      ∃ fds : Finset Fd, (4 : Fd) ∈ fds ∧ fds.card + 62 ≤ 1024 := by
  let start : List (ConnectPool.Act 1) :=
    [.tick, .epollCreate 3, .tick, .tick, .socket 4 0].map (.worker 0)
  obtain ⟨s, hs⟩ := Option.isSome_iff_exists.mp
    (show (Runs.exec (ConnectPool.step ConnectPool.sample)
      (ConnectPool.start ConnectPool.sample 0) start).isSome by decide)
  have hholds : (Runs.exec (ConnectPool.step ConnectPool.sample)
      (ConnectPool.start ConnectPool.sample 0) start).map
        (fun s => (s.workers ⟨0, by decide⟩).holds 4) = some true := by decide
  rw [hs] at hholds
  have run := Runs.reachable_of_exec hs
  obtain ⟨fds, hfds, -, hlim⟩ := connectScan_openFiles 1024 (by decide) { threads := 64 }
    (by decide) ConnectPool.sample rfl 0 s run
  exact ⟨s, run, fds, (hfds 4).mpr ⟨⟨0, by decide⟩, Option.some.inj hholds⟩, hlim (by decide)⟩

end ByeByeVpn
