import ByeByeVpn.Lib.KeyMap
import ByeByeVpn.Network.TcpAsyncScan

/-!
# The Windows connect worker (`scan_connect_worker_iocp`)

The worker is a machine like the Linux one. It keeps its connections under
the addresses of their `OVERLAPPED`, which the system hands back in the
completion packets: those in flight in `active`, and those that timed out or
were abandoned in `retired`, until their packets come.
-/

namespace ByeByeVpn.Iocp

/-- The address of an `OVERLAPPED`, which is that of its `IocpConn`. -/
abbrev Overlapped := Nat

abbrev Socket := Nat

def INVALID_SOCKET : Socket := 2 ^ 64 - 1

-- The values of <winerror.h> and <winsock2.h>.
def WAIT_TIMEOUT : Int := 258
def ERROR_IO_PENDING : Int := 997
def WSAECONNREFUSED : Int := 10061

def isRefusedError (err : Int) : Bool := err == WSAECONNREFUSED

structure IocpConn where
  sock : Socket := INVALID_SOCKET
  port : Int := 0
  started : Time := 0
  deriving DecidableEq, Repr

structure Config where
  ports : List Int
  timeoutMs : Int
  maxInflight : Int
  deriving DecidableEq, Repr

/-- A connection is in a map, or in a local variable while it is launched. -/
inductive Point
  | entry
  | connectExPtr
  | createPort
  | outerHead
  | innerHead
  | makeConn
  | socket (ov : Overlapped)
  | associate (ov : Overlapped) (conn : IocpConn)
  | bind (ov : Overlapped) (conn : IocpConn)
  | connectEx (ov : Overlapped)
  | wait
  | completion (ov : Overlapped) (ok : Bool)
  | clock
  | sweep (now : Time) (todo : List Overlapped)
  | stopCheck
  | abandon (todo : List Overlapped)
  | drainStart
  | drainHead (deadline : Time)
  | drainWait (deadline : Time)
  | clear
  | returned
  deriving DecidableEq, Repr

inductive Act
  | tick
  | connectExPtr (ok : Bool)
  | createPort (ok : Bool)
  | makeConn (ov : Overlapped)
  | socket (s : Socket) (started : Time)
  | associate (ok : Bool)
  | bind (ok : Bool)
  | connected (now : Time)
  | connectFailed (err : Int)
  | packet (ov : Overlapped) (ok : Bool)
  | noPacket (got : Bool) (err : Int)
  | soError (se : Int) (now : Time)
  | clock (now : Time)
  /-- A loop over `active` visits the connections in any order. -/
  | sweep (now : Time) (order : List Overlapped)
  | abandon (order : List Overlapped)
  deriving DecidableEq, Repr

structure Worker where
  point : Point := .entry
  out : WorkerResult := {}
  active : KeyMap Overlapped IocpConn := ∅
  retired : KeyMap Overlapped IocpConn := ∅
  nextIdx : Nat := 0

namespace Worker

/-- The worker cannot be set up. -/
def fail (cfg : Config) (w : Worker) : Worker :=
  { w with point := .returned, out := .failed cfg.ports.length }

/-- `launch_connect` classifies the port before the connection is in the map. -/
def reject (w : Worker) : Worker :=
  { w with
    point := .innerHead, out := (w.out.classify .other).markDone, nextIdx := w.nextIdx + 1 }

def finish (w : Worker) (ov : Overlapped) (oc : Outcome) : Worker :=
  { w with
    point := .innerHead
    out := (w.out.classify oc).markDone
    active := w.active.erase ov
    nextIdx := w.nextIdx + 1 }

/-- A completion for a connection in flight. -/
def complete (w : Worker) (ov : Overlapped) (oc : Outcome) : Worker :=
  { w with
    point := .clock, out := (w.out.classify oc).markDone, active := w.active.erase ov }

/-- A connection is cancelled and kept until its packet comes. -/
def retire (w : Worker) (point : Point) (ov : Overlapped) (conn : IocpConn) : Worker :=
  { w with
    point
    active := w.active.erase ov
    retired := w.retired.emplace ov { conn with sock := INVALID_SOCKET } }

def expired (cfg : Config) (now : Time) (conn : IocpConn) : Bool :=
  cfg.timeoutMs ≤ elapsedMs now conn.started

def kRetiredDrainTimeoutMs : Int := 1000

def step (cfg : Config) (stop : Bool) (w : Worker) (a : Act) : Option Worker :=
  match w.point, a with
  | .entry, .tick =>
    some { w with point := if cfg.ports.isEmpty then .returned else .connectExPtr }
  | .connectExPtr, .connectExPtr ok =>
    some (if ok then { w with point := .createPort } else w.fail cfg)
  | .createPort, .createPort ok => some (if ok then { w with point := .outerHead } else w.fail cfg)
  | .outerHead, .tick =>
    if (w.nextIdx < cfg.ports.length ∨ w.active.size ≠ 0) ∧ stop = false then
      some { w with point := .innerHead }
    else some { w with point := .stopCheck }
  | .innerHead, .tick =>
    if w.nextIdx < cfg.ports.length ∧ (w.active.size : Int) < cfg.maxInflight ∧ stop = false then
      some { w with point := .makeConn }
    else some { w with point := .wait }
  | .makeConn, .makeConn ov => some { w with point := .socket ov }
  | .socket ov, .socket s started =>
    cfg.ports[w.nextIdx]?.map fun port =>
      if s = INVALID_SOCKET then w.reject
      else { w with point := .associate ov { sock := s, port, started } }
  | .associate ov conn, .associate ok =>
    if ok then some { w with point := .bind ov conn } else some w.reject
  | .bind ov conn, .bind ok =>
    if ok then some { w with point := .connectEx ov, active := w.active.emplace ov conn }
    else some w.reject
  | .connectEx ov, .connected now =>
    (w.active.find ov).map fun done =>
      w.finish ov (.opened { port := done.port, connectMs := elapsedMs now done.started })
  | .connectEx ov, .connectFailed err =>
    if err = ERROR_IO_PENDING then some { w with point := .innerHead, nextIdx := w.nextIdx + 1 }
    else some (w.finish ov (if isRefusedError err then .refused else .other))
  | .wait, .noPacket _ _ => some { w with point := .clock }
  | .wait, .packet ov ok =>
    if ov ∈ w.active then some { w with point := .completion ov ok }
    else some { w with point := .clock, retired := w.retired.erase ov }
  | .completion ov ok, .soError se now =>
    (w.active.find ov).map fun done =>
      w.complete ov <|
        if ok && se == 0 then
          .opened { port := done.port, connectMs := elapsedMs now done.started }
        else if isRefusedError se then .refused
        else .other
  | .clock, .sweep now order =>
    if order.Perm w.active.keys then some { w with point := .sweep now order } else none
  | .sweep now (ov :: todo), .tick =>
    (w.active.find ov).map fun conn =>
      if expired cfg now conn then
        { w.retire (.sweep now todo) ov conn with out := (w.out.classify .timedOut).markDone }
      else { w with point := .sweep now todo }
  | .sweep _ [], .tick => some { w with point := .outerHead }
  | .stopCheck, .tick => if stop then none else some { w with point := .drainStart }
  | .stopCheck, .abandon order =>
    if stop ∧ order.Perm w.active.keys then
      some { w with point := .abandon order, out := { w.out with aborted := true } }
    else none
  | .abandon (ov :: todo), .tick => (w.active.find ov).map (w.retire (.abandon todo) ov)
  | .abandon [], .tick => some { w with point := .drainStart }
  | .drainStart, .clock now =>
    some { w with point := .drainHead (now + kRetiredDrainTimeoutMs * 1000000) }
  | .drainHead deadline, .clock now =>
    if w.retired.size ≠ 0 ∧ now < deadline then some { w with point := .drainWait deadline }
    else some { w with point := .clear }
  | .drainWait deadline, .packet ov _ =>
    some { w with point := .drainHead deadline, retired := w.retired.erase ov }
  | .drainWait deadline, .noPacket got err =>
    some { w with
      point := if got = false ∧ err = WAIT_TIMEOUT then .clear else .drainHead deadline }
  | .clear, .tick => some { w with point := .returned, active := ∅, retired := ∅ }
  | _, _ => none

-- ---------------------------------------------------------------------------
-- The steps one by one
-- ---------------------------------------------------------------------------

def Goes (cfg : Config) (stop : Bool) (w : Worker) : Prop :=
  (w.nextIdx < cfg.ports.length ∨ w.active.size ≠ 0) ∧ stop = false

def Fills (cfg : Config) (stop : Bool) (w : Worker) : Prop :=
  w.nextIdx < cfg.ports.length ∧ (w.active.size : Int) < cfg.maxInflight ∧ stop = false

/-- `Took cfg stop w a w'`: with the result `a` the worker goes from `w` to
`w'`. Of a verdict it says only which port it can report open. -/
inductive Took (cfg : Config) (stop : Bool) (w : Worker) : Act → Worker → Prop
  | noPorts (hp : w.point = .entry) (he : cfg.ports.isEmpty) :
    Took cfg stop w .tick { w with point := .returned }
  | entry (hp : w.point = .entry) (he : ¬cfg.ports.isEmpty) :
    Took cfg stop w .tick { w with point := .connectExPtr }
  | noConnectEx (hp : w.point = .connectExPtr) :
    Took cfg stop w (.connectExPtr false) (w.fail cfg)
  | connectExPtr (hp : w.point = .connectExPtr) :
    Took cfg stop w (.connectExPtr true) { w with point := .createPort }
  | noCompletionPort (hp : w.point = .createPort) :
    Took cfg stop w (.createPort false) (w.fail cfg)
  | createPort (hp : w.point = .createPort) :
    Took cfg stop w (.createPort true) { w with point := .outerHead }
  | outerLoop (hp : w.point = .outerHead) (hg : Goes cfg stop w) :
    Took cfg stop w .tick { w with point := .innerHead }
  | outerExit (hp : w.point = .outerHead) (hg : ¬Goes cfg stop w) :
    Took cfg stop w .tick { w with point := .stopCheck }
  | innerLoop (hp : w.point = .innerHead) (hg : Fills cfg stop w) :
    Took cfg stop w .tick { w with point := .makeConn }
  | innerExit (hp : w.point = .innerHead) (hg : ¬Fills cfg stop w) :
    Took cfg stop w .tick { w with point := .wait }
  | makeConn (hp : w.point = .makeConn) :
    Took cfg stop w (.makeConn ov) { w with point := .socket ov }
  | noSocket (hp : w.point = .socket ov) (hmore : w.nextIdx < cfg.ports.length) :
    Took cfg stop w (.socket INVALID_SOCKET started) w.reject
  | socket (hp : w.point = .socket ov) (hport : cfg.ports[w.nextIdx]? = some port)
      (hs : s ≠ INVALID_SOCKET) :
    Took cfg stop w (.socket s started)
      { w with point := .associate ov { sock := s, port, started } }
  | associateFailed (hp : w.point = .associate ov conn) :
    Took cfg stop w (.associate false) w.reject
  | associate (hp : w.point = .associate ov conn) :
    Took cfg stop w (.associate true) { w with point := .bind ov conn }
  | bindFailed (hp : w.point = .bind ov conn) : Took cfg stop w (.bind false) w.reject
  | bind (hp : w.point = .bind ov conn) :
    Took cfg stop w (.bind true)
      { w with point := .connectEx ov, active := w.active.emplace ov conn }
  | connected (hp : w.point = .connectEx ov) (hc : w.active.find ov = some conn)
      (hf : oc.Fits conn.port) :
    Took cfg stop w (.connected now) (w.finish ov oc)
  | pending (hp : w.point = .connectEx ov) :
    Took cfg stop w (.connectFailed ERROR_IO_PENDING)
      { w with point := .innerHead, nextIdx := w.nextIdx + 1 }
  | connectFailed (hp : w.point = .connectEx ov) (herr : err ≠ ERROR_IO_PENDING)
      (hoc : oc = .refused ∨ oc = .other) :
    Took cfg stop w (.connectFailed err) (w.finish ov oc)
  | noPacket (hp : w.point = .wait) : Took cfg stop w (.noPacket got err) { w with point := .clock }
  | packet (hp : w.point = .wait) (hm : ov ∈ w.active) :
    Took cfg stop w (.packet ov ok) { w with point := .completion ov ok }
  | freed (hp : w.point = .wait) (hm : ov ∉ w.active) :
    Took cfg stop w (.packet ov ok)
      { w with point := .clock, retired := w.retired.erase ov }
  | completion (hp : w.point = .completion ov ok) (hc : w.active.find ov = some conn)
      (hf : oc.Fits conn.port) :
    Took cfg stop w (.soError se now) (w.complete ov oc)
  | sweep (hp : w.point = .clock) (horder : order.Perm w.active.keys) :
    Took cfg stop w (.sweep now order) { w with point := .sweep now order }
  | timedOut (hp : w.point = .sweep now (ov :: todo)) (hc : w.active.find ov = some conn)
      (he : expired cfg now conn) :
    Took cfg stop w .tick
      { w.retire (.sweep now todo) ov conn with out := (w.out.classify .timedOut).markDone }
  | inTime (hp : w.point = .sweep now (ov :: todo)) (hc : w.active.find ov = some conn)
      (he : ¬expired cfg now conn) :
    Took cfg stop w .tick { w with point := .sweep now todo }
  | swept (hp : w.point = .sweep now []) : Took cfg stop w .tick { w with point := .outerHead }
  | notStopped (hp : w.point = .stopCheck) (hstop : stop = false) :
    Took cfg stop w .tick { w with point := .drainStart }
  | stopped (hp : w.point = .stopCheck) (hstop : stop = true)
      (horder : order.Perm w.active.keys) :
    Took cfg stop w (.abandon order)
      { w with point := .abandon order, out := { w.out with aborted := true } }
  | abandon (hp : w.point = .abandon (ov :: todo)) (hc : w.active.find ov = some conn) :
    Took cfg stop w .tick (w.retire (.abandon todo) ov conn)
  | abandoned (hp : w.point = .abandon []) : Took cfg stop w .tick { w with point := .drainStart }
  | drainStart (hp : w.point = .drainStart) :
    Took cfg stop w (.clock now)
      { w with point := .drainHead (now + kRetiredDrainTimeoutMs * 1000000) }
  | drainLoop (hp : w.point = .drainHead deadline)
      (hg : w.retired.size ≠ 0 ∧ now < deadline) :
    Took cfg stop w (.clock now) { w with point := .drainWait deadline }
  | drainExit (hp : w.point = .drainHead deadline)
      (hg : ¬(w.retired.size ≠ 0 ∧ now < deadline)) :
    Took cfg stop w (.clock now) { w with point := .clear }
  | drained (hp : w.point = .drainWait deadline) :
    Took cfg stop w (.packet ov ok)
      { w with point := .drainHead deadline, retired := w.retired.erase ov }
  | drainTimeout (hp : w.point = .drainWait deadline) :
    Took cfg stop w (.noPacket false WAIT_TIMEOUT) { w with point := .clear }
  | drainNone (hp : w.point = .drainWait deadline) (hg : ¬(got = false ∧ err = WAIT_TIMEOUT)) :
    Took cfg stop w (.noPacket got err) { w with point := .drainHead deadline }
  | clear (hp : w.point = .clear) :
    Took cfg stop w .tick { w with point := .returned, active := ∅, retired := ∅ }

variable {cfg : Config} {stop : Bool} {w w' : Worker} {a : Act}

theorem took_of_step (h : w.step cfg stop a = some w') : Took cfg stop w a w' := by
  cases hp : w.point with
  | entry => cases a with
    | tick =>
      simp only [step, hp] at h
      split at h <;> cases h
      · next he => exact .noPorts hp he
      · next he => exact .entry hp he
    | _ => simp [step, hp] at h
  | connectExPtr => cases a with
    | connectExPtr ok =>
      simp only [step, hp] at h
      cases ok <;> cases h
      · exact .noConnectEx hp
      · exact .connectExPtr hp
    | _ => simp [step, hp] at h
  | createPort => cases a with
    | createPort ok =>
      simp only [step, hp] at h
      cases ok <;> cases h
      · exact .noCompletionPort hp
      · exact .createPort hp
    | _ => simp [step, hp] at h
  | outerHead => cases a with
    | tick =>
      simp only [step, hp] at h
      split at h <;> cases h
      · next hg => exact .outerLoop hp hg
      · next hg => exact .outerExit hp hg
    | _ => simp [step, hp] at h
  | innerHead => cases a with
    | tick =>
      simp only [step, hp] at h
      split at h <;> cases h
      · next hg => exact .innerLoop hp hg
      · next hg => exact .innerExit hp hg
    | _ => simp [step, hp] at h
  | makeConn => cases a with
    | makeConn ov =>
      simp only [step, hp] at h
      cases h
      exact .makeConn hp
    | _ => simp [step, hp] at h
  | socket ov => cases a with
    | socket s started =>
      simp only [step, hp] at h
      obtain ⟨port, hport, rfl⟩ := Option.map_eq_some_iff.mp h
      split
      · next hs =>
        subst hs
        exact .noSocket hp (List.getElem?_eq_some_iff.mp hport).1
      · next hs => exact .socket hp hport hs
    | _ => simp [step, hp] at h
  | associate ov conn => cases a with
    | associate ok =>
      simp only [step, hp] at h
      cases ok <;> cases h
      · exact .associateFailed hp
      · exact .associate hp
    | _ => simp [step, hp] at h
  | bind ov conn => cases a with
    | bind ok =>
      simp only [step, hp] at h
      cases ok <;> cases h
      · exact .bindFailed hp
      · exact .bind hp
    | _ => simp [step, hp] at h
  | connectEx ov => cases a with
    | connected now =>
      simp only [step, hp] at h
      obtain ⟨done, hdone, rfl⟩ := Option.map_eq_some_iff.mp h
      exact .connected hp hdone rfl
    | connectFailed err =>
      simp only [step, hp] at h
      split at h <;> cases h
      · next he =>
        subst he
        exact .pending hp
      · next he =>
        refine .connectFailed hp he ?_
        split
        · exact .inl rfl
        · exact .inr rfl
    | _ => simp [step, hp] at h
  | wait => cases a with
    | noPacket got err =>
      simp only [step, hp] at h
      cases h
      exact .noPacket hp
    | packet ov ok =>
      simp only [step, hp] at h
      split at h <;> cases h
      · next hm => exact .packet hp hm
      · next hm => exact .freed hp hm
    | _ => simp [step, hp] at h
  | completion ov ok => cases a with
    | soError se now =>
      simp only [step, hp] at h
      obtain ⟨done, hdone, rfl⟩ := Option.map_eq_some_iff.mp h
      refine .completion hp hdone ?_
      split
      · rfl
      · split <;> trivial
    | _ => simp [step, hp] at h
  | clock => cases a with
    | sweep now order =>
      simp only [step, hp] at h
      split at h <;> cases h
      next horder => exact .sweep hp horder
    | _ => simp [step, hp] at h
  | sweep now todo => cases a with
    | tick => cases todo with
      | nil =>
        simp only [step, hp, Option.some.injEq] at h
        subst h
        exact .swept hp
      | cons ov todo =>
        simp only [step, hp] at h
        obtain ⟨conn, hconn, rfl⟩ := Option.map_eq_some_iff.mp h
        split
        · next he => exact .timedOut hp hconn he
        · next he => exact .inTime hp hconn he
    | _ => simp [step, hp] at h
  | stopCheck => cases a with
    | tick =>
      simp only [step, hp] at h
      split at h <;> cases h
      next hstop => exact .notStopped hp (Bool.not_eq_true _ ▸ hstop)
    | abandon order =>
      simp only [step, hp] at h
      split at h <;> cases h
      next hg => exact .stopped hp hg.1 hg.2
    | _ => simp [step, hp] at h
  | abandon todo => cases a with
    | tick => cases todo with
      | nil =>
        simp only [step, hp, Option.some.injEq] at h
        subst h
        exact .abandoned hp
      | cons ov todo =>
        simp only [step, hp] at h
        obtain ⟨conn, hconn, rfl⟩ := Option.map_eq_some_iff.mp h
        exact .abandon hp hconn
    | _ => simp [step, hp] at h
  | drainStart => cases a with
    | clock now =>
      simp only [step, hp] at h
      cases h
      exact .drainStart hp
    | _ => simp [step, hp] at h
  | drainHead deadline => cases a with
    | clock now =>
      simp only [step, hp] at h
      split at h <;> cases h
      · next hg => exact .drainLoop hp hg
      · next hg => exact .drainExit hp hg
    | _ => simp [step, hp] at h
  | drainWait deadline => cases a with
    | packet ov ok =>
      simp only [step, hp] at h
      cases h
      exact .drained hp
    | noPacket got err =>
      simp only [step, hp] at h
      cases h
      split
      · next hg =>
        obtain ⟨rfl, rfl⟩ := hg
        exact .drainTimeout hp
      · next hg => exact .drainNone hp hg
    | _ => simp [step, hp] at h
  | clear => cases a with
    | tick =>
      simp only [step, hp] at h
      cases h
      exact .clear hp
    | _ => simp [step, hp] at h
  | returned => simp [step, hp] at h

end Worker

end ByeByeVpn.Iocp
