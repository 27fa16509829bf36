import ByeByeVpn.Lib.Custody
import ByeByeVpn.Lib.Runs
import ByeByeVpn.Network.IocpWorker

/-!
# The lifetime of a connection in the Windows worker

The worker runs with a system that queues one packet for every `ConnectEx`
that succeeds or is pending, and hands the packets out in any order, and
with an allocator that gives any free address to the next `IocpConn`. The
record of the connections tells two of them apart that had the same address.
-/

namespace ByeByeVpn.Iocp

open Runs

-- ---------------------------------------------------------------------------
-- The system
-- ---------------------------------------------------------------------------

structure System where
  worker : Worker := {}
  stop : Bool := false
  /-- The connections made, each for a port, and the packets to be dequeued. -/
  conns : Custody Overlapped Int := {}
  /-- The packet that was dequeued last. -/
  last : Option (Overlapped × Nat) := none
  /-- The ports reported open, each with the connection that had completed. -/
  reports : List (Int × Option Nat) := []

inductive Move
  /-- The worker goes on, with the result of a call. -/
  | call (a : Act)
  /-- The worker dequeues one of the packets. -/
  | packet (i : Nat) (ok : Bool)
  | stop
  deriving DecidableEq, Repr

/-- `ConnectEx` returns `TRUE`. -/
def Move.immediate : Move → Bool
  | .call (.connected _) => true
  | _ => false

/-- The addresses of the connections that are not destroyed. -/
def Worker.held (w : Worker) : Multiset Overlapped :=
  match w.point with
  | .socket ov | .associate ov _ | .bind ov _ => ov ::ₘ (w.active.keySet + w.retired.keySet)
  | _ => w.active.keySet + w.retired.keySet

namespace System

/-- `ConnectEx` has queued a packet, or will do so. -/
def queued (s : System) (a : Act) : List Overlapped :=
  match s.worker.point, a with
  | .connectEx ov, .connected _ => [ov]
  | .connectEx ov, .connectFailed err => if err = ERROR_IO_PENDING then [ov] else []
  | _, _ => []

/-- The connection whose completion the worker is looking at. -/
def completed (s : System) : Option Nat :=
  match s.worker.point with
  | .connectEx ov => some (s.conns.owner ov)
  | .completion _ _ => s.last.map Prod.snd
  | _ => none

def advance (s : System) (conns : Custody Overlapped Int) (w : Worker) : System :=
  { s with
    worker := w
    conns := conns.destroy (s.worker.held - w.held)
    reports := s.reports ++
      (w.out.open.drop s.worker.out.open.length).map fun o => (o.port, s.completed) }

def step (cfg : Config) (s : System) : Move → Option System
  | .stop => some { s with stop := true }
  | .packet i ok =>
    s.conns.packets[i]?.bind fun p =>
      (s.worker.step cfg s.stop (.packet p.1 ok)).map fun w =>
        { s.advance (s.conns.deliver i) w with last := some p }
  | .call (.packet _ _) => none
  | .call (.makeConn ov) =>
    if ov ∈ s.worker.held then none
    else
      cfg.ports[s.worker.nextIdx]?.bind fun port =>
        (s.worker.step cfg s.stop (.makeConn ov)).map (s.advance (s.conns.make ov port))
  | .call a => (s.worker.step cfg s.stop a).map (s.advance (s.conns.owe (s.queued a)))

/-- No connection is destroyed before its packet is dequeued, a packet that is
found in `active` is that of the connection there, and each port that is
reported open is the port of the connection that completed. -/
structure Safe (s : System) : Prop where
  alive : ∀ p ∈ s.conns.packets, p.2 ∉ s.conns.destroyed
  belongs : ∀ ov ok, s.worker.point = .completion ov ok → s.last = some (ov, s.conns.owner ov)
  reported : s.reports.map Prod.fst = s.worker.out.open.map TcpOpen.port
  reports : ∀ r ∈ s.reports, ∃ id, r.2 = some id ∧ s.conns.made[id]? = some r.1

/-- `ConnectEx` does not succeed at once, and the worker does not leave while
packets for its retired connections are to come. -/
def Graceful (s : System) (m : Move) : Prop :=
  m.immediate = false ∧
    (m = .call .tick → s.worker.point = .clear → s.worker.retired.size = 0)

instance (s : System) (m : Move) : Decidable (Graceful s m) := inferInstanceAs (Decidable (_ ∧ _))

-- ---------------------------------------------------------------------------
-- The invariant
-- ---------------------------------------------------------------------------

/-- The addresses for which a packet is owed: not before `ConnectEx` is
called, and not after the packet is dequeued. -/
def owed (w : Worker) : Multiset Overlapped :=
  match w.point with
  | .connectEx ov | .completion ov _ => w.active.keySet.erase ov + w.retired.keySet
  | _ => w.active.keySet + w.retired.keySet

/-- What is known where the worker stands. -/
def Here (cfg : Config) (s : System) : Prop :=
  match s.worker.point with
  | .entry | .connectExPtr | .createPort => s.worker.out = {}
  | .socket ov => s.conns.made[s.conns.owner ov]? = cfg.ports[s.worker.nextIdx]?
  | .associate ov conn | .bind ov conn => s.conns.made[s.conns.owner ov]? = some conn.port
  | .connectEx ov => ov ∈ s.worker.active
  | .completion ov _ => ov ∈ s.worker.active ∧ s.last = some (ov, s.conns.owner ov)
  | .stopCheck => s.stop = false → s.worker.active = ∅
  | .abandon todo => s.worker.active.keySet = todo
  | .drainStart | .drainHead _ | .drainWait _ | .clear => s.worker.active = ∅
  | _ => True

structure Inv (cfg : Config) (s : System) : Prop where
  custody : s.conns.Sound s.worker.held (owed s.worker)
  ports : ∀ ov conn, s.worker.active.find ov = some conn →
    s.conns.made[s.conns.owner ov]? = some conn.port
  reported : s.reports.map Prod.fst = s.worker.out.open.map TcpOpen.port
  reports : ∀ r ∈ s.reports, ∃ id, r.2 = some id ∧ s.conns.made[id]? = some r.1
  here : Here cfg s

variable {cfg : Config} {s t : System} {m : Move} {w : Worker}

theorem Inv.start (cfg : Config) : Inv cfg {} where
  custody := .opening
  ports := by simp
  reported := rfl
  reports := by simp
  here := rfl

theorem Inv.safe (h : Inv cfg s) : Safe s where
  alive _ := h.custody.alive
  belongs ov ok hp := by
    have hh := h.here
    simp only [Here, hp] at hh
    exact hh.2
  reported := h.reported
  reports := h.reports

/-- A step after which packets are owed for `queued` as well, in which
connections may be destroyed, and which reports the ports in `new` open. -/
theorem Inv.advance (h : Inv cfg s) (queued : List Overlapped)
    (howed : owed w = owed s.worker + queued) (hheld : w.held ≤ s.worker.held)
    (hle : owed w ≤ w.held) (hports : ∀ ov conn, w.active.find ov = some conn →
      s.conns.made[s.conns.owner ov]? = some conn.port)
    (new : List TcpOpen) (hnew : w.out.open = s.worker.out.open ++ new)
    (hrep : ∀ o ∈ new, ∃ id, s.completed = some id ∧ s.conns.made[id]? = some o.port)
    (hhere : Here cfg { s with worker := w }) :
    Inv cfg (s.advance (s.conns.owe queued) w) := by
  refine ⟨?_, hports, ?_, ?_, hhere⟩
  · have hc := h.custody.owe queued (howed ▸ hle.trans hheld)
    exact (howed ▸ hc).destroy hheld hle
  · simp only [System.advance, List.map_append, h.reported, hnew, List.drop_left, List.map_map]
    rfl
  · intro r hr
    simp only [System.advance, hnew, List.drop_left, List.mem_append, List.mem_map] at hr
    rcases hr with hr | ⟨o, ho, rfl⟩
    · exact h.reports r hr
    · exact hrep o ho

def Plain : Point → Prop
  | .socket _ | .associate _ _ | .bind _ _ | .connectEx _ | .completion _ _ => False
  | _ => True

theorem held_plain (h : Plain w.point) : w.held = w.active.keySet + w.retired.keySet := by
  unfold Worker.held
  split <;> simp_all [Plain]

theorem owed_plain (h : Plain w.point) : owed w = w.active.keySet + w.retired.keySet := by
  unfold owed
  split <;> simp_all [Plain]

theorem queued_plain (h : Plain s.worker.point) (a : Act) : s.queued a = [] := by
  unfold queued
  split <;> simp_all [Plain]

theorem Inv.move (h : Inv cfg s) (hp : s.worker.point = p) (hs : Plain p) (hw : Plain w.point)
    (hactive : w.active = s.worker.active) (hretired : w.retired = s.worker.retired)
    (hopen : w.out.open = s.worker.out.open) (hhere : Here cfg { s with worker := w }) :
    Inv cfg (s.advance (s.conns.owe (s.queued a)) w) := by
  rw [← hp] at hs
  rw [queued_plain hs]
  refine h.advance [] ?_ ?_ ?_ ?_ [] (by simp [hopen]) (by simp) hhere
  · simp [owed_plain hs, owed_plain hw, hactive, hretired]
  · rw [held_plain hs, held_plain hw, hactive, hretired]
  · rw [held_plain hw, owed_plain hw]
  · rw [hactive]
    exact h.ports

theorem ports_erase (h : Inv cfg s) (ov : Overlapped) :
    ∀ ov' conn, (s.worker.active.erase ov).find ov' = some conn →
      s.conns.made[s.conns.owner ov']? = some conn.port := by
  intro ov' conn hc
  rw [KeyMap.find_erase] at hc
  split at hc
  · cases hc
  · exact h.ports ov' conn hc

theorem Inv.drop (h : Inv cfg s) (hw : Plain w.point)
    (hheld : s.worker.held = s.worker.active.keySet + s.worker.retired.keySet)
    (howed : owed s.worker = s.worker.active.keySet.erase ov + s.worker.retired.keySet)
    (hactive : w.active = s.worker.active.erase ov) (hretired : w.retired = s.worker.retired)
    (new : List TcpOpen) (hnew : w.out.open = s.worker.out.open ++ new)
    (hrep : ∀ o ∈ new, ∃ id, s.completed = some id ∧ s.conns.made[id]? = some o.port)
    (hhere : Here cfg { s with worker := w }) :
    Inv cfg (s.advance (s.conns.owe []) w) := by
  refine h.advance [] ?_ ?_ ?_ ?_ new hnew hrep hhere
  · simp [howed, owed_plain hw, hactive, hretired, KeyMap.keySet_erase]
  · rw [hheld, held_plain hw, hactive, hretired, KeyMap.keySet_erase]
    exact Multiset.add_le_add_right (Multiset.erase_le ..)
  · rw [held_plain hw, owed_plain hw]
  · rw [hactive]
    exact ports_erase h ov

theorem Inv.retire (h : Inv cfg s) (hp : s.worker.point = p) (hs : Plain p)
    (hc : s.worker.active.find ov = some conn) (q : Point) (hq : Plain q) (out : WorkerResult)
    (hopen : out.open = s.worker.out.open)
    (hhere : Here cfg { s with worker := { s.worker.retire q ov conn with out } }) :
    Inv cfg (s.advance (s.conns.owe (s.queued a)) { s.worker.retire q ov conn with out }) := by
  rw [← hp] at hs
  rw [queued_plain hs]
  have hm : ov ∈ s.worker.active.keySet := KeyMap.mem_keySet.mpr (KeyMap.mem_of_find hc)
  have hn : ov ∉ s.worker.retired := by
    have hnodup := h.custody.nodup
    rw [held_plain hs] at hnodup
    exact fun hr => Multiset.disjoint_left.mp (Multiset.nodup_add.mp hnodup).2.2 hm
      (KeyMap.mem_keySet.mpr hr)
  have hkeys : (s.worker.active.erase ov).keySet +
      (s.worker.retired.emplace ov { conn with sock := INVALID_SOCKET }).keySet =
      s.worker.active.keySet + s.worker.retired.keySet := by
    rw [KeyMap.keySet_erase, KeyMap.keySet_emplace _ hn, Multiset.add_cons, ← Multiset.cons_add,
      Multiset.cons_erase hm]
  have hw : Plain { s.worker.retire q ov conn with out }.point := hq
  refine h.advance [] ?_ ?_ ?_ (ports_erase h ov) [] (by simp [hopen]) (by simp) hhere
  · rw [owed_plain hw, owed_plain hs]
    simpa [Worker.retire] using hkeys
  · rw [held_plain hw, held_plain hs]
    exact hkeys.le
  · rw [held_plain hw, owed_plain hw]

/-- `launch_connect` gives up before the connection is in the map. -/
theorem Inv.reject (h : Inv cfg s)
    (hheld : s.worker.active.keySet + s.worker.retired.keySet ≤ s.worker.held)
    (howed : owed s.worker = s.worker.active.keySet + s.worker.retired.keySet) :
    Inv cfg (s.advance (s.conns.owe []) s.worker.reject) := by
  refine h.advance [] ?_ hheld le_rfl h.ports [] (WorkerResult.open_classify ..) (by simp) trivial
  rw [howed]
  simp [owed, Worker.reject]

-- ---------------------------------------------------------------------------
-- Every graceful step keeps the invariant
-- ---------------------------------------------------------------------------

theorem Inv.bind (h : Inv cfg s) (hp : s.worker.point = .bind ov conn) :
    Inv cfg (s.advance (s.conns.owe [])
      { s.worker with point := .connectEx ov, active := s.worker.active.emplace ov conn }) := by
  have hheld : s.worker.held = ov ::ₘ (s.worker.active.keySet + s.worker.retired.keySet) := by
    simp [Worker.held, hp]
  have hn : ov ∉ s.worker.active := by
    have hnodup := h.custody.nodup
    rw [hheld, Multiset.nodup_cons, Multiset.mem_add, not_or] at hnodup
    exact fun hm => hnodup.1.1 (KeyMap.mem_keySet.mpr hm)
  have hhere := h.here
  simp only [Here, hp] at hhere
  refine h.advance [] ?_ ?_ ?_ ?_ [] (by simp) (by simp) (KeyMap.mem_emplace.mpr (.inl rfl))
  · simp [owed, hp, KeyMap.keySet_emplace _ hn]
  · rw [hheld]
    simp [Worker.held, KeyMap.keySet_emplace _ hn]
  · simp [owed, Worker.held, KeyMap.keySet_emplace _ hn, Multiset.le_cons_self]
  · intro ov' conn' hc
    rw [KeyMap.find_emplace hn] at hc
    split at hc
    · next he =>
      cases hc
      rw [he]
      exact hhere
    · exact h.ports ov' conn' hc

theorem Inv.pending (h : Inv cfg s) (hp : s.worker.point = .connectEx ov) :
    Inv cfg (s.advance (s.conns.owe [ov])
      { s.worker with point := .innerHead, nextIdx := s.worker.nextIdx + 1 }) := by
  have hm := h.here
  simp only [Here, hp] at hm
  refine h.advance [ov] ?_ ?_ le_rfl h.ports [] (by simp) (by simp) trivial
  · have he := Multiset.cons_erase (KeyMap.mem_keySet.mpr hm)
    simp only [owed, hp, Multiset.coe_singleton]
    rw [add_right_comm, add_comm (Multiset.erase _ _), Multiset.singleton_add, he]
  · simp [Worker.held, hp]

theorem Inv.completion (h : Inv cfg s) (hp : s.worker.point = .completion ov ok)
    (hc : s.worker.active.find ov = some conn) {oc : Outcome} (hf : oc.Fits conn.port) :
    Inv cfg (s.advance (s.conns.owe []) (s.worker.complete ov oc)) := by
  have hhere := h.here
  simp only [Here, hp] at hhere
  refine h.drop trivial (by simp [Worker.held, hp]) (by simp [owed, hp]) rfl rfl _
    (WorkerResult.open_classify ..) ?_ trivial
  intro o ho
  cases oc <;> simp only [Outcome.opens, List.not_mem_nil, List.mem_singleton] at ho
  subst ho
  exact ⟨_, by simp [completed, hp, hhere.2], (h.ports ov conn hc).trans (congrArg _ hf.symm)⟩

theorem call_inv (h : Inv cfg s) (hg : Graceful s (.call a)) (hm : ∀ ov, a ≠ .makeConn ov)
    (hpk : ∀ ov ok, a ≠ .packet ov ok) (hs : s.worker.step cfg s.stop a = some w) :
    Inv cfg (s.advance (s.conns.owe (s.queued a)) w) := by
  have hhere := h.here
  unfold Here at hhere
  cases Worker.took_of_step hs with
  | noPorts hp | createPort hp | outerLoop hp | innerLoop hp | innerExit hp | noPacket hp
  | sweep hp | inTime hp | swept hp => exact h.move hp trivial trivial rfl rfl rfl trivial
  | entry hp | connectExPtr hp | drainStart hp | drainLoop hp | drainExit hp | drainTimeout hp
  | drainNone hp =>
    rw [hp] at hhere
    exact h.move hp trivial trivial rfl rfl rfl hhere
  | noConnectEx hp | noCompletionPort hp =>
    rw [hp] at hhere
    exact h.move hp trivial trivial rfl rfl (hhere ▸ rfl) trivial
  | outerExit hp hd =>
    refine h.move hp trivial trivial rfl rfl rfl ?_
    intro hstop
    simp only [Worker.Goes, show s.stop = false from hstop, and_true, not_or, not_not] at hd
    exact KeyMap.size_eq_zero.mp hd.2
  | makeConn => exact absurd rfl (hm _)
  | packet | freed | drained => exact absurd rfl (hpk _ _)
  | noSocket hp | associateFailed hp | bindFailed hp =>
    simp only [queued, hp]
    exact h.reject (by simp [Worker.held, hp, Multiset.le_cons_self]) (by simp [owed, hp])
  | socket hp hport =>
    rw [hp] at hhere
    simp only [queued, hp]
    refine h.advance [] (by simp [owed, hp]) (by simp [Worker.held, hp]) ?_ h.ports [] (by simp)
      (by simp) (hhere.trans hport)
    simp [owed, Worker.held, Multiset.le_cons_self]
  | associate hp =>
    rw [hp] at hhere
    simp only [queued, hp]
    refine h.advance [] (by simp [owed, hp]) (by simp [Worker.held, hp]) ?_ h.ports [] (by simp)
      (by simp) hhere
    simp [owed, Worker.held, Multiset.le_cons_self]
  | bind hp =>
    simp only [queued, hp]
    exact h.bind hp
  | connected => cases hg.1
  | pending hp =>
    simp only [queued, hp, if_true]
    exact h.pending hp
  | connectFailed hp herr hoc =>
    simp only [queued, hp, if_neg herr]
    refine h.drop trivial (by simp [Worker.held, hp]) (by simp [owed, hp]) rfl rfl _
      (WorkerResult.open_classify ..) ?_ trivial
    rcases hoc with rfl | rfl <;> simp [Outcome.opens]
  | completion hp hc hf =>
    simp only [queued, hp]
    exact h.completion hp hc hf
  | @timedOut now ov todo conn hp hc =>
    exact h.retire hp trivial hc (.sweep now todo) trivial _ rfl trivial
  | notStopped hp hstop =>
    rw [hp] at hhere
    exact h.move hp trivial trivial rfl rfl rfl (hhere hstop)
  | stopped hp _ horder =>
    exact h.move hp trivial trivial rfl rfl rfl (Multiset.coe_eq_coe.mpr horder.symm)
  | @«abandon» ov todo conn hp hc =>
    rw [hp] at hhere
    refine h.retire hp trivial hc (.abandon todo) trivial _ rfl ?_
    show (s.worker.active.erase ov).keySet = todo
    rw [KeyMap.keySet_erase, hhere, Multiset.coe_erase, List.erase_cons_head]
  | abandoned hp =>
    rw [hp] at hhere
    exact h.move hp trivial trivial rfl rfl rfl (KeyMap.keySet_eq_zero.mp hhere)
  | clear hp =>
    rw [hp] at hhere
    have hretired := KeyMap.size_eq_zero.mp (hg.2 rfl hp)
    exact h.move hp trivial trivial hhere.symm hretired.symm rfl trivial

theorem make_inv (h : Inv cfg s) (hov : ov ∉ s.worker.held)
    (hport : cfg.ports[s.worker.nextIdx]? = some port)
    (hs : s.worker.step cfg s.stop (.makeConn ov) = some w) :
    Inv cfg (s.advance (s.conns.make ov port) w) := by
  cases Worker.took_of_step hs with
  | makeConn hp =>
    have hplain : Plain s.worker.point := by simp [hp, Plain]
    have hheld : { s.worker with point := .socket ov }.held = ov ::ₘ s.worker.held := by
      rw [held_plain hplain]
      rfl
    have howed : owed { s.worker with point := .socket ov } = owed s.worker := by
      rw [owed_plain hplain]
      rfl
    have hconns : (s.advance (s.conns.make ov port) { s.worker with point := .socket ov }).conns =
        s.conns.make ov port :=
      Custody.destroy_of_le _ (hheld ▸ Multiset.le_cons_self ..)
    have hc := h.custody.make hov port
    rw [← hheld, ← howed] at hc
    refine ⟨?_, ?_, by simp [System.advance, h.reported], ?_, ?_⟩
    · rw [hconns]
      exact hc
    · intro ov' conn hfind
      have hne : ov' ≠ ov := by
        rintro rfl
        refine hov ?_
        rw [held_plain hplain, Multiset.mem_add, KeyMap.mem_keySet]
        exact .inl (KeyMap.mem_of_find hfind)
      rw [hconns, Custody.owner_make hne]
      exact Custody.made_make (h.ports ov' conn hfind)
    · intro r hr
      obtain ⟨id, hid, hr⟩ := h.reports r (by simpa [System.advance] using hr)
      rw [hconns]
      exact ⟨id, hid, Custody.made_make hr⟩
    · show (System.conns _).made[(System.conns _).owner ov]? = _
      rw [hconns, Custody.made_owner_make]
      exact hport.symm

/-- The packet that is dequeued is no longer owed. -/
theorem Inv.dequeue (h : Inv cfg s) (hp : s.conns.packets[i]? = some p)
    (howed : owed w = (owed s.worker).erase p.1) (hheld : w.held ≤ s.worker.held)
    (hle : owed w ≤ w.held) (hactive : w.active = s.worker.active)
    (hopen : w.out.open = s.worker.out.open)
    (hhere : Here cfg { s with worker := w, last := some p }) :
    Inv cfg { s.advance (s.conns.deliver i) w with last := some p } := by
  have hc := h.custody.deliver hp
  rw [← howed] at hc
  refine ⟨hc.destroy hheld hle, ?_, ?_, ?_, hhere⟩
  · simp only [System.advance, hactive]
    exact h.ports
  · simp [System.advance, hopen, h.reported]
  · exact fun r hr => h.reports r (by simpa [System.advance, hopen] using hr)

theorem Inv.free (h : Inv cfg s) (hp : s.conns.packets[i]? = some p)
    (hw : s.worker.point = q) (hs : Plain q) (ha : p.1 ∉ s.worker.active) (point : Point)
    (hpoint : Plain point)
    (hhere : Here cfg { s with
      worker := { s.worker with point, retired := s.worker.retired.erase p.1 }, last := some p }) :
    Inv cfg { s.advance (s.conns.deliver i)
      { s.worker with point, retired := s.worker.retired.erase p.1 } with last := some p } := by
  rw [← hw] at hs
  obtain ⟨hm, -⟩ := h.custody.owner_eq (List.mem_of_getElem? hp)
  rw [owed_plain hs, Multiset.mem_add, KeyMap.mem_keySet] at hm
  have hr := hm.resolve_left ha
  have hw : Plain { s.worker with point, retired := s.worker.retired.erase p.1 }.point := hpoint
  have hkeys : s.worker.active.keySet + (s.worker.retired.erase p.1).keySet =
      (s.worker.active.keySet + s.worker.retired.keySet).erase p.1 := by
    rw [KeyMap.keySet_erase, Multiset.erase_add_right_pos _ hr]
  refine h.dequeue hp ?_ ?_ ?_ rfl rfl hhere
  · rw [owed_plain hw, owed_plain hs]
    exact hkeys
  · rw [held_plain hw, held_plain hs]
    exact hkeys.le.trans (Multiset.erase_le ..)
  · rw [held_plain hw, owed_plain hw]

theorem packet_inv (h : Inv cfg s) (hp : s.conns.packets[i]? = some p)
    (hs : s.worker.step cfg s.stop (.packet p.1 ok) = some w) :
    Inv cfg { s.advance (s.conns.deliver i) w with last := some p } := by
  cases Worker.took_of_step hs with
  | packet hw ha =>
    have hplain : Plain s.worker.point := by simp [hw, Plain]
    have hin := KeyMap.mem_keySet.mpr ha
    obtain ⟨-, howner⟩ := h.custody.owner_eq (List.mem_of_getElem? hp)
    refine h.dequeue hp ?_ ?_ ?_ rfl rfl ⟨ha, ?_⟩
    · rw [owed_plain hplain, Multiset.erase_add_left_pos _ hin]
      rfl
    · rw [held_plain hplain]
      exact le_rfl
    · exact Multiset.add_le_add_right (Multiset.erase_le ..)
    · show some p = some (p.1, s.conns.owner p.1)
      rw [howner]
  | freed hw ha => exact h.free hp hw trivial ha _ trivial trivial
  | drained hw =>
    have hhere := h.here
    simp only [Here, hw] at hhere
    exact h.free hp hw trivial (by simp [hhere]) (.drainHead _) trivial hhere

theorem Here.stop (h : Here cfg s) : Here cfg { s with stop := true } := by
  unfold Here at h ⊢
  cases hp : s.worker.point <;> simp only [hp] at h ⊢
  all_goals first | exact h | exact nofun

theorem step_inv (h : Inv cfg s) (hg : Graceful s m) (hs : step cfg s m = some t) : Inv cfg t := by
  cases m with
  | stop =>
    cases hs
    exact ⟨h.custody, h.ports, h.reported, h.reports, h.here.stop⟩
  | packet i ok =>
    obtain ⟨p, hp, hs⟩ := Option.bind_eq_some_iff.mp hs
    obtain ⟨w, hw, rfl⟩ := Option.map_eq_some_iff.mp hs
    exact packet_inv h hp hw
  | call a => cases a with
    | packet ov ok => cases hs
    | makeConn ov =>
      simp only [step] at hs
      split at hs
      · cases hs
      · next hov =>
        obtain ⟨port, hport, hs⟩ := Option.bind_eq_some_iff.mp hs
        obtain ⟨w, hw, rfl⟩ := Option.map_eq_some_iff.mp hs
        exact make_inv h hov hport hw
    | _ =>
      obtain ⟨w, hw, rfl⟩ := Option.map_eq_some_iff.mp hs
      exact call_inv h hg nofun nofun hw

theorem reachable_inv (run : ReachableIf Graceful (step cfg) {} s) : Inv cfg s :=
  run.invariant (.start cfg) fun _ h hg hs => step_inv h hg hs

-- ---------------------------------------------------------------------------
-- When connections live long enough
-- ---------------------------------------------------------------------------

theorem not_safe {conns : Custody Overlapped Int} (k : Overlapped)
    (h : conns.Sound held owed') (hk : k ∈ owed')
    (hd : k ∈ s.worker.held) (hw : k ∉ w.held) (hn : s.worker.held.Nodup) :
    ¬Safe (s.advance conns w) := by
  intro hsafe
  obtain ⟨hp, hgone⟩ := h.stranded hk ((Multiset.mem_sub_of_nodup hn).mpr ⟨hd, hw⟩)
  exact hsafe.alive _ hp hgone

/-- `ConnectEx` succeeds at once: its packet is still to come. -/
theorem not_safe_connected (h : Inv cfg s)
    (hs : s.worker.step cfg s.stop (.connected now) = some w) :
    ¬Safe (s.advance (s.conns.owe (s.queued (.connected now))) w) := by
  have hnodup := h.custody.nodup
  cases Worker.took_of_step hs with
  | @connected ov conn oc _ hp hc =>
    have hheld : s.worker.held = s.worker.active.keySet + s.worker.retired.keySet := by
      simp [Worker.held, hp]
    have howed : owed s.worker = s.worker.active.keySet.erase ov + s.worker.retired.keySet := by
      simp [owed, hp]
    have hin : ov ∈ s.worker.active.keySet := KeyMap.mem_keySet.mpr (KeyMap.mem_of_find hc)
    have hq : s.queued (.connected now) = [ov] := by simp [queued, hp]
    have hle : owed s.worker + [ov] ≤ s.worker.held := by
      rw [howed, hheld, add_right_comm, add_comm (Multiset.erase _ _), Multiset.coe_singleton,
        Multiset.singleton_add, Multiset.cons_erase hin]
    rw [hq]
    refine not_safe ov (h.custody.owe [ov] hle) (by simp) ?_ ?_ hnodup
    · rw [hheld, Multiset.mem_add]
      exact .inl hin
    · rw [hheld] at hnodup
      obtain ⟨hn, -, hd⟩ := Multiset.nodup_add.mp hnodup
      show ov ∉ (s.worker.active.erase ov).keySet + s.worker.retired.keySet
      rw [KeyMap.keySet_erase, Multiset.mem_add, not_or]
      exact ⟨hn.notMem_erase, Multiset.disjoint_left.mp hd hin⟩

/-- The worker leaves while packets for retired connections are to come. -/
theorem not_safe_clear (h : Inv cfg s) (hp : s.worker.point = .clear)
    (hr : s.worker.retired.size ≠ 0) (hs : s.worker.step cfg s.stop .tick = some w) :
    ¬Safe (s.advance (s.conns.owe (s.queued .tick)) w) := by
  simp only [Worker.step, hp, Option.some.injEq] at hs
  subst hs
  have hplain : Plain s.worker.point := by simp [hp, Plain]
  have hne : s.worker.retired.keySet ≠ 0 := fun h0 =>
    hr (KeyMap.size_eq_zero.mpr (KeyMap.keySet_eq_zero.mp h0))
  obtain ⟨k, hk⟩ := Multiset.exists_mem_of_ne_zero hne
  have hin : k ∈ s.worker.active.keySet + s.worker.retired.keySet :=
    Multiset.mem_add.mpr (.inr hk)
  rw [queued_plain hplain]
  refine not_safe k (h.custody.owe [] (by simpa using h.custody.owed_le)) ?_
    (held_plain hplain ▸ hin) (by simp [Worker.held]) h.custody.nodup
  simpa [owed_plain hplain] using hin

/-- When `ConnectEx` succeeds at once, or the worker leaves while packets are
to come, a connection is destroyed before its packet is dequeued. -/
theorem unsafe_of_not_graceful (h : Inv cfg s) (hg : ¬Graceful s m) (hs : step cfg s m = some t) :
    ¬Safe t := by
  rw [Graceful, not_and_or] at hg
  rcases hg with hg | hg
  · unfold Move.immediate at hg
    split at hg
    · obtain ⟨w, hw, rfl⟩ := Option.map_eq_some_iff.mp hs
      exact not_safe_connected h hw
    · exact absurd rfl hg
  · push Not at hg
    obtain ⟨rfl, hp, hr⟩ := hg
    obtain ⟨w, hw, rfl⟩ := Option.map_eq_some_iff.mp hs
    exact not_safe_clear h hp hr hw

/-- The lifetime of a connection. In the runs without an immediate success in
which the worker waits for every packet, each state is safe; and the first
step of another kind ends in a state that is not. -/
theorem lifetime_safe_iff (cfg : Config) (s : System)
    (run : ReachableIf Graceful (step cfg) {} s) :
    Safe s ∧ ∀ m t, step cfg s m = some t → (Safe t ↔ Graceful s m) := by
  have h := reachable_inv run
  refine ⟨h.safe, fun m t hs => ⟨fun ht => ?_, fun hg => (step_inv h hg hs).safe⟩⟩
  by_contra hg
  exact unsafe_of_not_graceful h hg hs ht

-- ---------------------------------------------------------------------------
-- Two runs
-- ---------------------------------------------------------------------------

def sample : Config := { ports := [443, 80], timeoutMs := 1000, maxInflight := 64 }

def setUp : List Move := [.call .tick, .call (.connectExPtr true), .call (.createPort true),
  .call .tick]

def launch (ov : Overlapped) (result : Act) : List Move :=
  [.call .tick, .call (.makeConn ov), .call (.socket 5 0), .call (.associate true),
    .call (.bind true), .call result]

/-- Port 443 accepts later; port 80 is refused at once, so its address is free. -/
def gracefulRun : List Move :=
  setUp ++ launch 16 (.connectFailed ERROR_IO_PENDING) ++
    launch 32 (.connectFailed WSAECONNREFUSED) ++
    [.call .tick, .packet 0 true, .call (.soError 0 9000000)]

theorem lifetime_safe_iff_sample :
    ∃ s, s.reports = [(443, some 0)] ∧ Safe s := by
  obtain ⟨s, hs⟩ := Option.isSome_iff_exists.mp
    (show (exec (guarded Graceful (step sample)) {} gracefulRun).isSome by decide +kernel)
  have hend : (exec (guarded Graceful (step sample)) {} gracefulRun).map (·.reports) =
      some [(443, some 0)] := by
    decide +kernel
  rw [hs] at hend
  exact ⟨s, Option.some.inj hend, (lifetime_safe_iff sample s (reachable_of_exec hs).unguarded).1⟩

/-- Port 443 accepts at once, and port 80 gets the address of its connection. -/
def reuseRun : List Move :=
  setUp ++ launch 16 (.connected 1000000) ++ launch 16 (.connectFailed ERROR_IO_PENDING) ++
    [.call .tick, .packet 0 true, .call (.soError 0 9000000)]

/-- The packet of port 443 is taken for that of port 80, which is reported open. -/
theorem lifetime_not_safe : ∃ s, Reachable (step sample) {} s ∧
    s.reports = [(443, some 0), (80, some 0)] ∧ ¬Safe s := by
  obtain ⟨s, hs⟩ := Option.isSome_iff_exists.mp
    (show (exec (step sample) {} reuseRun).isSome by decide +kernel)
  have hend : (exec (step sample) {} reuseRun).map (fun s => (s.reports, s.conns.made)) =
      some ([(443, some 0), (80, some 0)], [443, 80]) := by
    decide +kernel
  simp only [hs, Option.map_some, Option.some.injEq, Prod.mk.injEq] at hend
  obtain ⟨hreports, hmade⟩ := hend
  refine ⟨s, reachable_of_exec hs, hreports, ?_⟩
  intro h
  obtain ⟨id, hid, hport⟩ := h.reports (80, some 0) (by simp [hreports])
  cases hid
  simp [hmade] at hport

end System

end ByeByeVpn.Iocp
