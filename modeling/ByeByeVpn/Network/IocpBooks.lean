import ByeByeVpn.Lib.Runs
import ByeByeVpn.Network.IocpLifetime

/-!
# The books of the Windows connect worker

Here the system may hand out any packet, also one for an address that no
connection ever had; an `IocpConn` only gets an address that is free. The
books are those of the Linux worker until the scan is aborted: then the
connections in flight are retired without a verdict.
-/

namespace ByeByeVpn.Iocp

structure Shard where
  worker : Worker := {}
  stop : Bool := false

namespace Shard

inductive Move
  | call (a : Act)
  | stop
  deriving DecidableEq, Repr

def step (cfg : Config) (s : Shard) : Move → Option Shard
  | .stop => some { s with stop := true }
  | .call (.makeConn ov) =>
    if ov ∈ s.worker.held then none
    else (s.worker.step cfg s.stop (.makeConn ov)).map fun worker => { s with worker }
  | .call a => (s.worker.step cfg s.stop a).map fun worker => { s with worker }

/-- The heads of the loops: the two loops of the scan, the loops over `active`,
and the loop that waits for the last packets. -/
def AtLoopHead (w : Worker) : Prop :=
  match w.point with
  | .outerHead | .innerHead | .sweep _ _ | .abandon _ | .drainHead _ => True
  | _ => False

def inflight (w : Worker) : Multiset Int := w.active.values.map IocpConn.port

-- ---------------------------------------------------------------------------
-- The invariant
-- ---------------------------------------------------------------------------

/-- The books when `idx` ports have been taken from the list. The ports that
an abort gives up stay in flight for good. -/
structure Kept (cfg : Config) (idx : Nat) (w : Worker) : Prop where
  books : ∃ lost, Books cfg.ports w.out (lost + inflight w) (cfg.ports.drop idx) ∧
    (w.out.aborted = false → lost = 0)
  idx : idx ≤ cfg.ports.length
  room : (w.active.size : Int) ≤ max cfg.maxInflight 0
  apart : ∀ ov ∈ w.active, ov ∉ w.retired

abbrev Running (cfg : Config) (w : Worker) : Prop := Kept cfg w.nextIdx w

structure Launching (cfg : Config) (w : Worker) : Prop extends Kept cfg w.nextIdx w where
  more : w.nextIdx < cfg.ports.length
  space : (w.active.size : Int) < cfg.maxInflight

structure Fresh (cfg : Config) (w : Worker) (ov : Overlapped) : Prop extends Launching cfg w where
  notActive : ov ∉ w.active
  notRetired : ov ∉ w.retired

structure Finished (cfg : Config) (w : Worker) : Prop extends Kept cfg w.nextIdx w where
  done : w.out.aborted = false → w.nextIdx = cfg.ports.length ∧ w.active.size = 0

def Inv (cfg : Config) (s : Shard) : Prop :=
  match s.worker.point with
  | .entry | .connectExPtr | .createPort =>
    s.worker.out = {} ∧ s.worker.active = ∅ ∧ s.worker.retired = ∅ ∧ s.worker.nextIdx = 0
  | .makeConn => Launching cfg s.worker
  | .socket ov => Fresh cfg s.worker ov
  | .associate ov conn | .bind ov conn =>
    Fresh cfg s.worker ov ∧ cfg.ports[s.worker.nextIdx]? = some conn.port
  | .connectEx ov => Kept cfg (s.worker.nextIdx + 1) s.worker ∧ ov ∈ s.worker.active
  | .stopCheck => Running cfg s.worker ∧
      (s.stop = false → s.worker.nextIdx = cfg.ports.length ∧ s.worker.active.size = 0)
  | .abandon _ => Running cfg s.worker ∧ s.worker.out.aborted = true
  | .drainStart | .drainHead _ | .drainWait _ | .clear => Finished cfg s.worker
  | .returned => Concluded cfg.ports s.worker.out
  | _ => Running cfg s.worker

-- ---------------------------------------------------------------------------
-- What the parts of a step do to the books
-- ---------------------------------------------------------------------------

variable {cfg : Config} {s t : Shard} {w : Worker} {a : Act} {ov : Overlapped}
  {conn : IocpConn} {idx : Nat}

theorem Kept.move (h : Kept cfg idx w) (p : Point) : Kept cfg idx { w with point := p } :=
  ⟨h.books, h.idx, h.room, h.apart⟩

theorem Kept.start {p : Point} : Kept cfg 0 { point := p } :=
  ⟨⟨0, by simpa [inflight] using Books.opening cfg.ports, fun _ => rfl⟩, Nat.zero_le _,
    le_max_right .., by simp⟩

theorem Launching.reject (h : Launching cfg w) : Running cfg w.reject := by
  obtain ⟨lost, hb, hl⟩ := h.books
  rw [drop_eq_cons (List.getElem?_eq_getElem h.more)] at hb
  refine ⟨⟨lost, hb.reject .other trivial, ?_⟩, h.more, h.room, h.apart⟩
  rw [Worker.reject, WorkerResult.aborted_classify]
  exact hl

theorem Fresh.emplace (h : Fresh cfg w ov) (hp : cfg.ports[w.nextIdx]? = some conn.port) :
    Kept cfg (w.nextIdx + 1)
      { w with point := .connectEx ov, active := w.active.emplace ov conn } := by
  obtain ⟨lost, hb, hl⟩ := h.books
  rw [drop_eq_cons hp] at hb
  refine ⟨⟨lost, ?_, hl⟩, h.more, ?_, ?_⟩
  · rw [inflight, KeyMap.values_emplace _ h.notActive, Multiset.map_cons, Multiset.add_cons]
    exact hb.launch
  · have hspace := h.space
    rw [KeyMap.size_emplace _ h.notActive]
    omega
  · intro k hk
    rcases KeyMap.mem_emplace.mp hk with rfl | hk
    · exact h.notRetired
    · exact h.apart k hk

theorem Kept.size_erase (h : Kept cfg idx w) (hc : w.active.find ov = some conn) :
    ((w.active.erase ov).size : Int) ≤ max cfg.maxInflight 0 := by
  have hroom := h.room
  have hsize := KeyMap.size_erase hc
  omega

/-- A connection in flight is classified and taken out of the map. -/
theorem Kept.settle (h : Kept cfg idx w) (hc : w.active.find ov = some conn) (oc : Outcome)
    (hf : oc.Fits conn.port) (p : Point) (n : Nat) :
    Kept cfg idx { w with
      point := p
      out := (w.out.classify oc).markDone
      active := w.active.erase ov
      nextIdx := n } := by
  obtain ⟨lost, hb, hl⟩ := h.books
  rw [inflight, KeyMap.values_erase hc, Multiset.map_cons, Multiset.add_cons] at hb
  refine ⟨⟨lost, hb.settle oc hf, ?_⟩, h.idx, h.size_erase hc,
    fun k hk => h.apart k (KeyMap.mem_erase.mp hk).2⟩
  rw [WorkerResult.aborted_classify]
  exact hl

theorem apart_retire (h : Kept cfg idx w) (conn : IocpConn) :
    ∀ k ∈ w.active.erase ov, k ∉ w.retired.emplace ov conn := by
  intro k hk
  obtain ⟨hne, hm⟩ := KeyMap.mem_erase.mp hk
  rw [KeyMap.mem_emplace, not_or]
  exact ⟨hne, h.apart k hm⟩

theorem Kept.timeOut (h : Kept cfg idx w) (hc : w.active.find ov = some conn) (p : Point) :
    Kept cfg idx { w.retire p ov conn with out := (w.out.classify .timedOut).markDone } := by
  have hs := h.settle hc .timedOut trivial p w.nextIdx
  exact ⟨hs.books, hs.idx, hs.room, apart_retire h _⟩

theorem Kept.giveUp (h : Kept cfg idx w) (hc : w.active.find ov = some conn)
    (ha : w.out.aborted = true) (p : Point) : Kept cfg idx (w.retire p ov conn) := by
  obtain ⟨lost, hb, -⟩ := h.books
  rw [inflight, KeyMap.values_erase hc, Multiset.map_cons, Multiset.add_cons,
    ← Multiset.cons_add] at hb
  refine ⟨⟨_, hb, fun hna => ?_⟩, h.idx, h.size_erase hc, apart_retire h _⟩
  rw [Worker.retire, ha] at hna
  cases hna

theorem Kept.eraseRetired (h : Kept cfg idx w) (ov : Overlapped) (p : Point) :
    Kept cfg idx { w with point := p, retired := w.retired.erase ov } :=
  ⟨h.books, h.idx, h.room, fun k hk hr => h.apart k hk (KeyMap.mem_erase.mp hr).2⟩

theorem Finished.concluded (h : Finished cfg w) : Concluded cfg.ports w.out := by
  obtain ⟨lost, hb, hl⟩ := h.books
  refine ⟨_, _, hb, fun hna => ?_⟩
  obtain ⟨hi, ha⟩ := h.done hna
  rw [hl hna, inflight, KeyMap.size_eq_zero.mp ha, hi]
  exact ⟨rfl, by simp⟩

-- ---------------------------------------------------------------------------
-- Every step keeps the invariant
-- ---------------------------------------------------------------------------

theorem step_call (h : step cfg s (.call a) = some t) :
    ∃ w, s.worker.step cfg s.stop a = some w ∧ t = { s with worker := w } ∧
      ∀ ov, a = .makeConn ov → ov ∉ s.worker.held := by
  cases a with
  | makeConn ov =>
    simp only [step] at h
    split_ifs at h with hm
    obtain ⟨w, hw, rfl⟩ := Option.map_eq_some_iff.mp h
    refine ⟨w, hw, rfl, ?_⟩
    rintro _ ⟨⟩
    exact hm
  | _ =>
    obtain ⟨w, hw, rfl⟩ := Option.map_eq_some_iff.mp h
    exact ⟨w, hw, rfl, nofun⟩

theorem inv_stop (h : Inv cfg s) : Inv cfg { s with stop := true } := by
  unfold Inv at h ⊢
  cases hp : s.worker.point with
  | stopCheck =>
    simp only [hp] at h ⊢
    exact ⟨h.1, nofun⟩
  | _ => simpa only [hp] using h

theorem call_inv (h : Inv cfg s) (hfresh : ∀ ov, a = .makeConn ov → ov ∉ s.worker.held)
    (hs : s.worker.step cfg s.stop a = some w) : Inv cfg { s with worker := w } := by
  unfold Inv at h
  cases Worker.took_of_step hs with
  | noPorts hp he =>
    rw [hp] at h
    show Concluded cfg.ports s.worker.out
    rw [h.1]
    exact .empty he
  | entry hp | connectExPtr hp =>
    rw [hp] at h
    exact h
  | noConnectEx hp | noCompletionPort hp => exact .failed cfg.ports
  | createPort hp =>
    rw [hp] at h
    obtain ⟨hout, hactive, hretired, hidx⟩ := h
    show Kept cfg s.worker.nextIdx _
    rw [hidx]
    have hstart : Kept cfg 0 { point := .outerHead } := .start
    exact ⟨by simpa [hout, hactive, inflight] using hstart.books, hstart.idx, by simp [hactive],
      by simp [hactive]⟩
  | outerLoop hp | innerExit hp | noPacket hp | packet hp | sweep hp | inTime hp | swept hp =>
    rw [hp] at h
    exact h.move _
  | outerExit hp hg =>
    rw [hp] at h
    refine ⟨h.move _, fun hstop => ?_⟩
    have hidx := h.idx
    have hrunning : s.stop = false := hstop
    simp only [Worker.Goes, hrunning, and_true, not_or, not_lt, ne_eq, not_not] at hg
    exact ⟨le_antisymm hidx hg.1, hg.2⟩
  | innerLoop hp hg =>
    rw [hp] at h
    exact ⟨h.move _, hg.1, hg.2.1⟩
  | makeConn hp =>
    rw [hp] at h
    have hheld := hfresh _ rfl
    simp only [Worker.held, hp, Multiset.mem_add, KeyMap.mem_keySet, not_or] at hheld
    exact ⟨⟨h.toKept.move _, h.more, h.space⟩, hheld.1, hheld.2⟩
  | noSocket hp =>
    rw [hp] at h
    exact h.toLaunching.reject
  | socket hp hport =>
    rw [hp] at h
    exact ⟨⟨⟨h.toKept.move _, h.more, h.space⟩, h.notActive, h.notRetired⟩, hport⟩
  | associateFailed hp | bindFailed hp =>
    rw [hp] at h
    exact h.1.toLaunching.reject
  | associate hp =>
    rw [hp] at h
    obtain ⟨h, hport⟩ := h
    exact ⟨⟨⟨h.toKept.move _, h.more, h.space⟩, h.notActive, h.notRetired⟩, hport⟩
  | bind hp =>
    rw [hp] at h
    exact ⟨h.1.emplace h.2, KeyMap.mem_emplace.mpr (.inl rfl)⟩
  | connected hp hc hf =>
    rw [hp] at h
    exact h.1.settle hc _ hf _ _
  | pending hp =>
    rw [hp] at h
    exact ⟨h.1.books, h.1.idx, h.1.room, h.1.apart⟩
  | connectFailed hp _ hoc =>
    rw [hp] at h
    obtain ⟨conn, hconn⟩ := KeyMap.exists_find h.2
    exact h.1.settle hconn _ (by rcases hoc with rfl | rfl <;> trivial) _ _
  | freed hp =>
    rw [hp] at h
    exact h.eraseRetired _ _
  | completion hp hc hf =>
    rw [hp] at h
    exact h.settle hc _ hf _ _
  | timedOut hp hc =>
    rw [hp] at h
    exact h.timeOut hc _
  | notStopped hp hstop =>
    rw [hp] at h
    exact ⟨h.1.move _, fun _ => h.2 hstop⟩
  | stopped hp =>
    rw [hp] at h
    obtain ⟨lost, hb, -⟩ := h.1.books
    refine ⟨⟨⟨lost, hb.setAborted true, fun hna => ?_⟩, h.1.idx, h.1.room, h.1.apart⟩, rfl⟩
    cases hna
  | «abandon» hp hc =>
    rw [hp] at h
    exact ⟨h.1.giveUp hc h.2 _, h.2⟩
  | abandoned hp =>
    rw [hp] at h
    refine ⟨h.1.move _, fun hna => ?_⟩
    rw [h.2] at hna
    cases hna
  | drainStart hp | drainLoop hp | drainExit hp | drainTimeout hp | drainNone hp =>
    rw [hp] at h
    exact ⟨h.toKept.move _, h.done⟩
  | drained hp =>
    rw [hp] at h
    exact ⟨h.toKept.eraseRetired _ _, h.done⟩
  | clear hp =>
    rw [hp] at h
    exact h.concluded

theorem step_inv {m : Move} (h : Inv cfg s) (hs : step cfg s m = some t) : Inv cfg t := by
  cases m with
  | stop =>
    cases hs
    exact inv_stop h
  | call a =>
    obtain ⟨w, hw, rfl, hfresh⟩ := step_call hs
    exact call_inv h hfresh hw

theorem reachable_inv (run : Runs.Reachable (step cfg) {} s) : Inv cfg s := by
  have hstart : Inv cfg {} := ⟨rfl, rfl, rfl, rfl⟩
  exact run.invariant hstart fun _ h _ hs => step_inv h hs

-- ---------------------------------------------------------------------------
-- The loop heads and the result
-- ---------------------------------------------------------------------------

/-- What holds at a loop head. After an abort the ports that were given up
are missing from the first sum. -/
structure LoopBooks (cfg : Config) (w : Worker) : Prop where
  taken : w.out.scanned + w.active.size ≤ w.nextIdx
  taken_eq : w.out.aborted = false → w.out.scanned + w.active.size = w.nextIdx
  room : (w.active.size : Int) ≤ max cfg.maxInflight 0
  apart : ∀ ov ∈ w.active, ov ∉ w.retired
  scanned_eq : w.out.scanned = w.out.open.length + w.out.timeouts + w.out.refused + w.out.other

theorem Kept.loopBooks (h : Running cfg w) : LoopBooks cfg w := by
  obtain ⟨lost, hb, hl⟩ := h.books
  have hidx := h.idx
  have hcard := hb.scanned_add
  simp only [Multiset.card_add, inflight, Multiset.card_map, KeyMap.card_values, List.length_drop]
    at hcard
  refine ⟨by omega, fun hna => ?_, h.room, h.apart, hb.scanned_eq⟩
  rw [hl hna, Multiset.card_zero] at hcard
  omega

theorem Inv.loopBooks (h : Inv cfg s) (hat : AtLoopHead s.worker) : LoopBooks cfg s.worker := by
  unfold AtLoopHead at hat
  unfold Inv at h
  cases hp : s.worker.point with
  | outerHead | innerHead | sweep _ _ =>
    simp only [hp] at h
    exact h.loopBooks
  | «abandon» _ =>
    simp only [hp] at h
    exact h.1.loopBooks
  | drainHead _ =>
    simp only [hp] at h
    exact h.toKept.loopBooks
  | _ =>
    rw [hp] at hat
    cases hat

theorem scanned_of_concluded {out : WorkerResult} (h : Concluded cfg.ports out)
    (ha : out.aborted = false) : out.scanned = cfg.ports.length := by
  obtain ⟨inflight, waiting, hb, hnone⟩ := h
  obtain ⟨rfl, rfl⟩ := hnone ha
  simpa using hb.scanned_add

theorem setUp_failed (ha : a = .connectExPtr false ∨ a = .createPort false)
    (hs : step cfg s (.call a) = some t) :
    t.worker.point = .returned ∧
      t.worker.out = { scanned := cfg.ports.length, other := cfg.ports.length } := by
  obtain ⟨w, hw, rfl, -⟩ := step_call hs
  rcases ha with rfl | rfl
  · cases Worker.took_of_step hw with
    | noConnectEx => exact ⟨rfl, rfl⟩
  · cases Worker.took_of_step hw with
    | noCompletionPort => exact ⟨rfl, rfl⟩

/-- The books at every loop head, the result of a scan that was not aborted,
and the result when the worker cannot be set up. -/
theorem iocp_books (cfg : Config) (s : Shard) (run : Runs.Reachable (step cfg) {} s) :
    (AtLoopHead s.worker → LoopBooks cfg s.worker) ∧
      (s.worker.point = .returned → s.worker.out.aborted = false →
        s.worker.out.scanned = cfg.ports.length) ∧
      ∀ a t, a = .connectExPtr false ∨ a = .createPort false → step cfg s (.call a) = some t →
        t.worker.point = .returned ∧
          t.worker.out = { scanned := cfg.ports.length, other := cfg.ports.length } := by
  have h := reachable_inv run
  refine ⟨h.loopBooks, fun hp ha => ?_, fun a t ha hs => setUp_failed ha hs⟩
  unfold Inv at h
  rw [hp] at h
  exact scanned_of_concluded h ha

def sample : Config := { ports := [443, 80], timeoutMs := 1000, maxInflight := 64 }

def launched : List Move :=
  [.call .tick, .call (.connectExPtr true), .call (.createPort true), .call .tick, .call .tick,
    .call (.makeConn 16), .call (.socket 5 0), .call (.associate true), .call (.bind true),
    .call (.connectFailed ERROR_IO_PENDING)]

/-- Port 80 is refused at once; a packet for no connection comes before that of port 443. -/
def finishedRun : List Move :=
  launched ++
    [.call .tick, .call (.makeConn 32), .call (.socket 6 0), .call (.associate true),
      .call (.bind true), .call (.connectFailed WSAECONNREFUSED), .call .tick,
      .call (.packet 99 true), .call (.sweep 0 [16]), .call .tick, .call .tick, .call .tick,
      .call .tick, .call (.packet 16 true), .call (.soError 0 9000000), .call (.sweep 0 []),
      .call .tick, .call .tick, .call .tick, .call (.clock 0), .call (.clock 0), .call .tick]

theorem iocp_books_finished :
    ∃ s, Runs.exec (step sample) {} finishedRun = some s ∧ s.worker.out.scanned = 2 := by
  obtain ⟨s, hs⟩ := Option.isSome_iff_exists.mp
    (show (Runs.exec (step sample) {} finishedRun).isSome by decide +kernel)
  have hend : (Runs.exec (step sample) {} finishedRun).map (fun s =>
      (s.worker.point, s.worker.out.aborted)) = some (.returned, false) := by
    decide +kernel
  rw [hs] at hend
  obtain ⟨hp, ha⟩ := Prod.mk.inj (Option.some.inj hend)
  exact ⟨s, hs, (iocp_books sample s (Runs.reachable_of_exec hs)).2.1 hp ha⟩

/-- The scan is stopped while port 443 is in flight. -/
def abortedRun : List Move :=
  launched ++
    [.stop, .call .tick, .call (.noPacket false WAIT_TIMEOUT), .call (.sweep 0 [16]), .call .tick,
      .call .tick, .call .tick, .call (.abandon [16]), .call .tick, .call .tick, .call (.clock 0)]

theorem iocp_books_aborted :
    ¬∀ (cfg : Config) (s : Shard), Runs.Reachable (step cfg) {} s → AtLoopHead s.worker →
      s.worker.out.scanned + s.worker.active.size = s.worker.nextIdx ∧
        (s.worker.active.size : Int) ≤ cfg.maxInflight ∧
        (∀ ov ∈ s.worker.active, ov ∉ s.worker.retired) ∧
        s.worker.out.scanned = s.worker.out.open.length + s.worker.out.timeouts +
          s.worker.out.refused + s.worker.out.other := by
  intro h
  obtain ⟨s, hs⟩ := Option.isSome_iff_exists.mp
    (show (Runs.exec (step sample) {} abortedRun).isSome by decide +kernel)
  have hend : (Runs.exec (step sample) {} abortedRun).map (fun s =>
      (s.worker.point, s.worker.out.scanned + s.worker.active.size, s.worker.nextIdx)) =
      some (.drainHead 1000000000, 0, 1) := by
    decide +kernel
  rw [hs] at hend
  simp only [Option.map_some, Option.some.injEq, Prod.mk.injEq] at hend
  obtain ⟨hp, hsum, hidx⟩ := hend
  have heq := (h sample s (Runs.reachable_of_exec hs) (by simp [AtLoopHead, hp])).1
  omega

end Shard

end ByeByeVpn.Iocp
