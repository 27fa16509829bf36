import ByeByeVpn.Lib.KeyMap
import ByeByeVpn.Network.TcpAsyncScan

/-!
# The Linux connect worker (`scan_connect_worker_epoll`)

The worker is a machine whose points are the places where it asks the
operating system or reads the stop flag. An action carries the answer; the
shared stop flag is an argument of the step. `Inv` is the invariant of the
two nested loops.
-/

namespace ByeByeVpn

/-- A descriptor (`SOCKET` is `int` on POSIX). -/
abbrev Fd := Int

def INVALID_SOCKET : Fd := -1

-- The values of <errno.h> on Linux.
def EAGAIN : Int := 11
def EWOULDBLOCK : Int := EAGAIN
def ECONNREFUSED : Int := 111
def EALREADY : Int := 114
def EINPROGRESS : Int := 115

def isConnectInProgressError (err : Int) : Bool :=
  err == EINPROGRESS || err == EALREADY || err == EWOULDBLOCK

def isRefusedError (err : Int) : Bool := err == ECONNREFUSED

structure PendingConnect where
  sock : Fd
  port : Int
  started : Time
  deriving DecidableEq, Repr

namespace Epoll

structure Config where
  ports : List Int
  timeoutMs : Int
  maxInflight : Int
  deriving DecidableEq, Repr

inductive Point
  | entry
  | create
  | outerHead
  | innerHead
  | launch
  | connect (s : Fd) (started : Time)
  | ctlAdd (s : Fd) (started : Time)
  | wait
  | event (batch : List Fd) (now : Time)
  | sweep (now : Time)
  | exit
  | returned
  deriving DecidableEq, Repr

def Point.IsHead : Point → Prop
  | .outerHead | .innerHead | .event _ _ | .sweep _ => True
  | _ => False

inductive Act
  | tick
  | epollCreate (fd : Fd)
  | socket (s : Fd) (started : Time)
  | connected (now : Time)
  | connectFailed (err : Int)
  | epollCtl (rc : Int)
  | epollWait (events : List Fd) (now : Time)
  | soError (se : Int)
  deriving DecidableEq, Repr

structure Worker where
  point : Point := .entry
  out : WorkerResult := {}
  epfd : Fd := INVALID_SOCKET
  active : KeyMap Fd PendingConnect := ∅
  nextIdx : Nat := 0

namespace Worker

/-- `launch_connect` classifies the port at once; its guard closes the socket. -/
def reject (w : Worker) (oc : Outcome) : Worker :=
  { w with point := .innerHead, out := (w.out.classify oc).markDone, nextIdx := w.nextIdx + 1 }

/-- An event for a socket in flight; erasing the entry closes the socket. -/
def settle (w : Worker) (s : Fd) (oc : Outcome) (rest : List Fd) (now : Time) : Worker :=
  { w with
    point := .event rest now
    out := (w.out.classify oc).markDone
    active := w.active.erase s }

def expired (cfg : Config) (now : Time) (c : PendingConnect) : Bool :=
  cfg.timeoutMs ≤ elapsedMs now c.started

/-- The loop over `active` that drops what has been in flight too long. -/
def sweepTimeouts (cfg : Config) (w : Worker) (now : Time) : Worker :=
  { w with
    point := .outerHead
    out := w.out.timeOut (w.active.valuesIf fun _ c => expired cfg now c).card
    active := w.active.eraseIf fun _ c => expired cfg now c }

def holds (w : Worker) (fd : Fd) : Bool :=
  decide (fd ∈ w.active) ||
    match w.point with
    | .entry | .create | .returned => false
    | .connect s _ | .ctlAdd s _ => fd == s || fd == w.epfd
    | _ => fd == w.epfd

/-- The system hands out no descriptor that this worker still has open. -/
def fresh (w : Worker) : Act → Bool
  | .epollCreate fd => decide (fd < 0) || !w.holds fd
  | .socket s _ => s == INVALID_SOCKET || !w.holds s
  | _ => true

def step (cfg : Config) (stop : Bool) (w : Worker) (a : Act) : Option Worker :=
  match w.point, a with
  | .entry, .tick =>
    if cfg.ports.isEmpty then some { w with point := .returned }
    else some { w with point := .create }
  | .create, .epollCreate fd =>
    if fd < 0 then some { w with point := .returned, out := .failed cfg.ports.length }
    else some { w with point := .outerHead, epfd := fd }
  | .outerHead, .tick =>
    if (w.nextIdx < cfg.ports.length ∨ w.active.size ≠ 0) ∧ stop = false then
      some { w with point := .innerHead }
    else some { w with point := .exit }
  | .innerHead, .tick =>
    if w.nextIdx < cfg.ports.length ∧ (w.active.size : Int) < cfg.maxInflight ∧ stop = false then
      some { w with point := .launch }
    else if w.active.size = 0 then some { w with point := .outerHead }
    else some { w with point := .wait }
  | .launch, .socket s started =>
    if s = INVALID_SOCKET then some (w.reject .other)
    else some { w with point := .connect s started }
  | .connect _ started, .connected now =>
    cfg.ports[w.nextIdx]?.map fun port =>
      w.reject (.opened { port, connectMs := elapsedMs now started })
  | .connect s started, .connectFailed err =>
    if isConnectInProgressError err then some { w with point := .ctlAdd s started }
    else if isRefusedError err then some (w.reject .refused)
    else some (w.reject .other)
  | .ctlAdd s started, .epollCtl rc =>
    if rc ≠ 0 then some (w.reject .other)
    else cfg.ports[w.nextIdx]?.map fun port =>
      { w with
        point := .innerHead
        active := w.active.emplace s ⟨s, port, started⟩
        nextIdx := w.nextIdx + 1 }
  | .wait, .epollWait events now => some { w with point := .event events now }
  | .event [] now, .tick => some { w with point := .sweep now }
  | .event (s :: rest) now, .tick =>
    if s ∈ w.active then none else some { w with point := .event rest now }
  | .event (s :: rest) now, .soError se =>
    (w.active.find s).map fun c =>
      if se = 0 then
        w.settle s (.opened { port := c.port, connectMs := elapsedMs now c.started }) rest now
      else if isRefusedError se then w.settle s .refused rest now
      else w.settle s .other rest now
  | .sweep now, .tick => some (w.sweepTimeouts cfg now)
  | .exit, .tick =>
    some { w with
      point := .returned, active := ∅, out := { w.out with aborted := w.out.aborted || stop } }
  | _, _ => none

-- ---------------------------------------------------------------------------
-- The steps one by one
-- ---------------------------------------------------------------------------

def Goes (cfg : Config) (stop : Bool) (w : Worker) : Prop :=
  (w.nextIdx < cfg.ports.length ∨ w.active.size ≠ 0) ∧ stop = false

def Fills (cfg : Config) (stop : Bool) (w : Worker) : Prop :=
  w.nextIdx < cfg.ports.length ∧ (w.active.size : Int) < cfg.maxInflight ∧ stop = false

/-- `Took cfg stop w a w'`: with the result `a` the worker goes from `w` to
`w'`. Of a verdict it says only which port it can report open. -/
inductive Took (cfg : Config) (stop : Bool) (w : Worker) : Act → Worker → Prop
  | noPorts (hp : w.point = .entry) (he : cfg.ports.isEmpty) :
    Took cfg stop w .tick { w with point := .returned }
  | entry (hp : w.point = .entry) (he : ¬cfg.ports.isEmpty) :
    Took cfg stop w .tick { w with point := .create }
  | createFailed (hp : w.point = .create) (hfd : fd < 0) :
    Took cfg stop w (.epollCreate fd)
      { w with point := .returned, out := .failed cfg.ports.length }
  | create (hp : w.point = .create) (hfd : ¬fd < 0) :
    Took cfg stop w (.epollCreate fd) { w with point := .outerHead, epfd := fd }
  | outerLoop (hp : w.point = .outerHead) (hg : Goes cfg stop w) :
    Took cfg stop w .tick { w with point := .innerHead }
  | outerExit (hp : w.point = .outerHead) (hg : ¬Goes cfg stop w) :
    Took cfg stop w .tick { w with point := .exit }
  | innerLoop (hp : w.point = .innerHead) (hg : Fills cfg stop w) :
    Took cfg stop w .tick { w with point := .launch }
  | innerBack (hp : w.point = .innerHead) (hg : ¬Fills cfg stop w) (hsize : w.active.size = 0) :
    Took cfg stop w .tick { w with point := .outerHead }
  | innerExit (hp : w.point = .innerHead) (hg : ¬Fills cfg stop w) (hsize : w.active.size ≠ 0) :
    Took cfg stop w .tick { w with point := .wait }
  | noSocket (hp : w.point = .launch) :
    Took cfg stop w (.socket INVALID_SOCKET started) (w.reject .other)
  | socket (hp : w.point = .launch) (hs : s ≠ INVALID_SOCKET) :
    Took cfg stop w (.socket s started) { w with point := .connect s started }
  | connected (hp : w.point = .connect s started) (hport : cfg.ports[w.nextIdx]? = some port)
      (hf : oc.Fits port) :
    Took cfg stop w (.connected now) (w.reject oc)
  | inProgress (hp : w.point = .connect s started) (herr : isConnectInProgressError err) :
    Took cfg stop w (.connectFailed err) { w with point := .ctlAdd s started }
  | connectFailed (hp : w.point = .connect s started) (herr : ¬isConnectInProgressError err)
      (hoc : oc = .refused ∨ oc = .other) :
    Took cfg stop w (.connectFailed err) (w.reject oc)
  | ctlAddFailed (hp : w.point = .ctlAdd s started) (hrc : rc ≠ 0) :
    Took cfg stop w (.epollCtl rc) (w.reject .other)
  | ctlAdd (hp : w.point = .ctlAdd s started) (hport : cfg.ports[w.nextIdx]? = some port) :
    Took cfg stop w (.epollCtl 0)
      { w with
        point := .innerHead
        active := w.active.emplace s ⟨s, port, started⟩
        nextIdx := w.nextIdx + 1 }
  | wait (hp : w.point = .wait) :
    Took cfg stop w (.epollWait events now) { w with point := .event events now }
  | eventsDone (hp : w.point = .event [] now) :
    Took cfg stop w .tick { w with point := .sweep now }
  | unknown (hp : w.point = .event (s :: rest) now) (hm : s ∉ w.active) :
    Took cfg stop w .tick { w with point := .event rest now }
  | event (hp : w.point = .event (s :: rest) now) (hc : w.active.find s = some c)
      (hf : oc.Fits c.port) :
    Took cfg stop w (.soError se) (w.settle s oc rest now)
  | sweep (hp : w.point = .sweep now) : Took cfg stop w .tick (w.sweepTimeouts cfg now)
  | exit (hp : w.point = .exit) :
    Took cfg stop w .tick { w with
      point := .returned, active := ∅, out := { w.out with aborted := w.out.aborted || stop } }

variable {cfg : Config} {stop : Bool} {w w' : Worker} {a : Act} {oc : Outcome} {port : Int}

theorem took_of_step (h : step cfg stop w a = some w') : Took cfg stop w a w' := by
  cases hp : w.point with
  | entry => cases a with
    | tick =>
      simp only [step, hp] at h
      split at h <;> cases h
      · next he => exact .noPorts hp he
      · next he => exact .entry hp he
    | _ => simp [step, hp] at h
  | create => cases a with
    | epollCreate fd =>
      simp only [step, hp] at h
      split at h <;> cases h
      · next hfd => exact .createFailed hp hfd
      · next hfd => exact .create hp hfd
    | _ => simp [step, hp] at h
  | outerHead => cases a with
    | tick =>
      simp only [step, hp] at h
      split at h <;> cases h
      · next hg => exact .outerLoop hp hg
      · next hg => exact .outerExit hp hg
    | _ => simp [step, hp] at h
  | innerHead => cases a with
    | tick =>
      simp only [step, hp] at h
      split at h
      · next hg =>
        cases h
        exact .innerLoop hp hg
      · next hg =>
        split at h <;> cases h
        · next hsize => exact .innerBack hp hg hsize
        · next hsize => exact .innerExit hp hg hsize
    | _ => simp [step, hp] at h
  | launch => cases a with
    | socket s started =>
      simp only [step, hp] at h
      split at h <;> cases h
      · next hs =>
        subst hs
        exact .noSocket hp
      · next hs => exact .socket hp hs
    | _ => simp [step, hp] at h
  | connect s started => cases a with
    | connected now =>
      simp only [step, hp] at h
      obtain ⟨port, hport, rfl⟩ := Option.map_eq_some_iff.mp h
      exact .connected hp hport rfl
    | connectFailed err =>
      simp only [step, hp] at h
      split at h
      · next herr =>
        cases h
        exact .inProgress hp herr
      · next herr =>
        split at h <;> cases h
        · exact .connectFailed hp herr (.inl rfl)
        · exact .connectFailed hp herr (.inr rfl)
    | _ => simp [step, hp] at h
  | ctlAdd s started => cases a with
    | epollCtl rc =>
      simp only [step, hp] at h
      split at h
      · next hrc =>
        cases h
        exact .ctlAddFailed hp hrc
      · next hrc =>
        obtain rfl := not_not.mp hrc
        obtain ⟨port, hport, rfl⟩ := Option.map_eq_some_iff.mp h
        exact .ctlAdd hp hport
    | _ => simp [step, hp] at h
  | wait => cases a with
    | epollWait events now =>
      simp only [step, hp] at h
      cases h
      exact .wait hp
    | _ => simp [step, hp] at h
  | event batch now => cases batch with
    | nil => cases a with
      | tick =>
        simp only [step, hp, Option.some.injEq] at h
        subst h
        exact .eventsDone hp
      | _ => simp [step, hp] at h
    | cons s rest => cases a with
      | tick =>
        simp only [step, hp] at h
        split at h <;> cases h
        next hm => exact .unknown hp hm
      | soError se =>
        simp only [step, hp] at h
        obtain ⟨c, hc, rfl⟩ := Option.map_eq_some_iff.mp h
        split
        · exact .event hp hc rfl
        · split <;> exact .event hp hc trivial
      | _ => simp [step, hp] at h
  | sweep now => cases a with
    | tick =>
      simp only [step, hp] at h
      cases h
      exact .sweep hp
    | _ => simp [step, hp] at h
  | exit => cases a with
    | tick =>
      simp only [step, hp] at h
      cases h
      exact .exit hp
    | _ => simp [step, hp] at h
  | returned => simp [step, hp] at h

-- ---------------------------------------------------------------------------
-- The invariant
-- ---------------------------------------------------------------------------

def inflight (w : Worker) : Multiset Int := w.active.values.map PendingConnect.port

structure Running (cfg : Config) (w : Worker) : Prop where
  books : Books cfg.ports w.out w.inflight (cfg.ports.drop w.nextIdx)
  idx : w.nextIdx ≤ cfg.ports.length
  room : (w.active.size : Int) ≤ max cfg.maxInflight 0
  notAborted : w.out.aborted = false

structure Launching (cfg : Config) (w : Worker) : Prop extends Running cfg w where
  more : w.nextIdx < cfg.ports.length
  space : (w.active.size : Int) < cfg.maxInflight

def Inv (cfg : Config) (stop : Bool) (w : Worker) : Prop :=
  match w.point with
  | .entry | .create => w.out = {} ∧ w.active = ∅ ∧ w.nextIdx = 0
  | .launch => Launching cfg w
  | .connect s _ | .ctlAdd s _ => Launching cfg w ∧ s ∉ w.active
  | .exit => Running cfg w ∧
      (stop = false → w.nextIdx = cfg.ports.length ∧ w.active.size = 0)
  | .returned => Concluded cfg.ports w.out
  | _ => Running cfg w

-- ---------------------------------------------------------------------------
-- What the parts of a step do to the books
-- ---------------------------------------------------------------------------

theorem Running.move (h : Running cfg w) (p : Point) : Running cfg { w with point := p } :=
  ⟨h.books, h.idx, h.room, h.notAborted⟩

theorem Running.start : Running cfg { point := p, epfd := e } :=
  ⟨.opening _, Nat.zero_le _, le_max_right .., rfl⟩

theorem Launching.nextPort (h : Launching cfg w) : ∃ p, cfg.ports[w.nextIdx]? = some p :=
  ⟨_, List.getElem?_eq_getElem h.more⟩

theorem Launching.reject (h : Launching cfg w) (hp : cfg.ports[w.nextIdx]? = some port)
    (hf : oc.Fits port) : Running cfg (w.reject oc) := by
  have hb := h.books
  rw [drop_eq_cons hp] at hb
  exact ⟨hb.reject oc hf, h.more, h.room, by simp [Worker.reject, h.notAborted]⟩

theorem Launching.reject_closed (h : Launching cfg w) (hf : ∀ p, oc.Fits p) :
    Running cfg (w.reject oc) := by
  obtain ⟨p, hp⟩ := h.nextPort
  exact h.reject hp (hf p)

theorem Launching.emplace (h : Launching cfg w) (hp : cfg.ports[w.nextIdx]? = some port)
    (hs : s ∉ w.active) :
    Running cfg { w with
      point := .innerHead, active := w.active.emplace s ⟨s, port, started⟩,
      nextIdx := w.nextIdx + 1 } := by
  have hb := h.books
  rw [drop_eq_cons hp] at hb
  refine ⟨?_, h.more, ?_, h.notAborted⟩
  · rw [inflight, KeyMap.values_emplace _ hs, Multiset.map_cons]
    exact hb.launch
  · have hspace := h.space
    rw [KeyMap.size_emplace _ hs]
    omega

theorem Running.settle (h : Running cfg w) (hc : w.active.find s = some c) (hf : oc.Fits c.port) :
    Running cfg (w.settle s oc rest now) := by
  have hb := h.books
  rw [inflight, KeyMap.values_erase hc, Multiset.map_cons] at hb
  refine ⟨hb.settle oc hf, h.idx, ?_, by simp [Worker.settle, h.notAborted]⟩
  have hroom := h.room
  have hsize := KeyMap.size_erase hc
  simp only [Worker.settle]
  omega

theorem Running.sweepTimeouts (h : Running cfg w) (now : Time) :
    Running cfg (w.sweepTimeouts cfg now) := by
  have hb := h.books
  rw [inflight, KeyMap.values_eraseIf (fun _ c => expired cfg now c), Multiset.map_add] at hb
  refine ⟨?_, h.idx, ?_, h.notAborted⟩
  · have := hb.timeOut
    rwa [Multiset.card_map] at this
  · have hroom := h.room
    have hsize := KeyMap.size_eraseIf (fun _ c => expired cfg now c) w.active
    simp only [Worker.sweepTimeouts]
    omega

theorem Running.concluded (h : Running cfg w)
    (hd : stop = false → w.nextIdx = cfg.ports.length ∧ w.active.size = 0) :
    Concluded cfg.ports { w.out with aborted := w.out.aborted || stop } := by
  refine ⟨_, _, h.books.setAborted _, ?_⟩
  intro hna
  have hstop : stop = false := (Bool.or_eq_false_iff.mp hna).2
  obtain ⟨hi, ha⟩ := hd hstop
  refine ⟨?_, by simp [hi]⟩
  rw [inflight, KeyMap.size_eq_zero.mp ha]
  rfl

-- ---------------------------------------------------------------------------
-- Every step keeps the invariant
-- ---------------------------------------------------------------------------

theorem notMem_of_fresh (h : w.fresh (.socket s t)) (hs : s ≠ INVALID_SOCKET) :
    s ∉ w.active := by
  intro hm
  simp [fresh, holds, hs, hm] at h

theorem step_inv (h : Inv cfg stop w) (hf : w.fresh a)
    (hs : step cfg stop w a = some w') : Inv cfg stop w' := by
  unfold Inv at h
  cases took_of_step hs with
  | noPorts hp he =>
    rw [hp] at h
    show Concluded cfg.ports w.out
    rw [h.1]
    exact .empty he
  | entry hp =>
    rw [hp] at h
    exact h
  | createFailed hp => exact .failed cfg.ports
  | create hp =>
    rw [hp] at h
    obtain ⟨point, out, epfd, active, nextIdx⟩ := w
    obtain ⟨rfl, rfl, rfl⟩ := h
    exact Running.start
  | outerLoop hp | innerBack hp | innerExit hp | wait hp | eventsDone hp | unknown hp =>
    rw [hp] at h
    exact h.move _
  | outerExit hp hg =>
    rw [hp] at h
    refine ⟨h.move _, fun hstop => ?_⟩
    have hidx := h.idx
    simp only [Goes, hstop, and_true, not_or, not_lt, ne_eq, not_not] at hg
    exact ⟨le_antisymm hidx hg.1, hg.2⟩
  | innerLoop hp hg =>
    rw [hp] at h
    exact ⟨h.move _, hg.1, hg.2.1⟩
  | noSocket hp =>
    rw [hp] at h
    exact h.reject_closed fun _ => trivial
  | socket hp hne =>
    rw [hp] at h
    have hm := notMem_of_fresh hf hne
    exact ⟨⟨h.toRunning.move _, h.more, h.space⟩, hm⟩
  | connected hp hport hfits =>
    rw [hp] at h
    exact h.1.reject hport hfits
  | inProgress hp =>
    rw [hp] at h
    exact ⟨⟨h.1.toRunning.move _, h.1.more, h.1.space⟩, h.2⟩
  | connectFailed hp _ hoc =>
    rw [hp] at h
    rcases hoc with rfl | rfl <;> exact h.1.reject_closed fun _ => trivial
  | ctlAddFailed hp =>
    rw [hp] at h
    exact h.1.reject_closed fun _ => trivial
  | ctlAdd hp hport =>
    rw [hp] at h
    exact h.1.emplace hport h.2
  | event hp hc hfits =>
    rw [hp] at h
    exact h.settle hc hfits
  | sweep hp =>
    rw [hp] at h
    exact h.sweepTimeouts _
  | exit hp =>
    rw [hp] at h
    exact h.1.concluded h.2

/-- The invariant survives another thread setting the stop flag. -/
theorem Inv.stopped (h : Inv cfg false w) : Inv cfg true w := by
  unfold Inv at h ⊢
  split at h <;> simp_all

theorem Inv.running (h : Inv cfg stop w) (hp : w.point.IsHead) : Running cfg w := by
  unfold Inv at h
  cases hw : w.point <;> simp_all [Point.IsHead]

theorem Running.accounted (h : Running cfg w) : w.out.scanned + w.active.size = w.nextIdx := by
  have hb := h.books.scanned_add
  have hi := h.idx
  rw [inflight, Multiset.card_map, KeyMap.card_values, List.length_drop] at hb
  omega

end Worker

end Epoll

end ByeByeVpn
