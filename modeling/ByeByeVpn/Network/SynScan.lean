import ByeByeVpn.Lib.KeyMap
import ByeByeVpn.Lib.Runs
import ByeByeVpn.Network.SynFrame
import ByeByeVpn.Network.TcpAsyncScan

/-!
# The SYN scan (`scan_syn_half_open_linux`)

The scanner is a machine like the connect workers. Its probes wait in
`pending` under their source ports, which `alloc_src_port` hands out again
once they are free.
-/

namespace ByeByeVpn

open Runs

structure SynPending where
  port : Int := 0
  srcPort : UInt16 := 0
  sent : Time := 0
  deriving DecidableEq, Repr

-- ---------------------------------------------------------------------------
-- Received datagrams
-- ---------------------------------------------------------------------------

def load16 (b : Bytes) (i : Nat) : UInt16 :=
  .ofNat ((b.getD i 0).toNat + (b.getD (i + 1) 0).toNat * 0x100)

def load32 (b : Bytes) (i : Nat) : UInt32 :=
  .ofNat ((load16 b i).toNat + (load16 b (i + 2)).toNat * 0x10000)

def ntohs (v : UInt16) : UInt16 := htons v

/-- `reinterpret_cast<const iphdr*>(b)` -/
def IpHdr.load (b : Bytes) : IpHdr where
  ihl := b.getD 0 0 &&& 0x0F
  version := b.getD 0 0 >>> 4
  tos := b.getD 1 0
  totLen := load16 b 2
  id := load16 b 4
  fragOff := load16 b 6
  ttl := b.getD 8 0
  protocol := b.getD 9 0
  check := load16 b 10
  saddr := load32 b 12
  daddr := load32 b 16

/-- `reinterpret_cast<const tcphdr*>(b)` -/
def TcpHdr.load (b : Bytes) : TcpHdr where
  source := load16 b 0
  dest := load16 b 2
  seq := load32 b 4
  ackSeq := load32 b 8
  doff := b.getD 12 0 >>> 4
  fin := (b.getD 13 0).toNat.testBit 0
  syn := (b.getD 13 0).toNat.testBit 1
  rst := (b.getD 13 0).toNat.testBit 2
  psh := (b.getD 13 0).toNat.testBit 3
  ack := (b.getD 13 0).toNat.testBit 4
  urg := (b.getD 13 0).toNat.testBit 5
  window := load16 b 14
  check := load16 b 16
  urgPtr := load16 b 18

namespace SynScan

abbrev Inflight := {n : Int // 64 ≤ n ∧ n ≤ 4000}

/-- `std::clamp(threads, 64, 4000)`, which `scan_tcp_async` passes on. -/
def Inflight.clamp (threads : Int) : Inflight := ⟨max 64 (min threads 4000), by omega⟩

/-- The arguments of the scanner, and the two addresses (`s_addr` values)
that its setup finds. -/
structure Config where
  ports : List Int
  timeoutMs : Int
  maxInflight : Inflight
  src : UInt32
  dst : UInt32

def segment (c : Config) (buf : Bytes) : Option TcpHdr :=
  if buf.length < 20 + 20 then none
  else
    let iph := IpHdr.load buf
    if iph.protocol ≠ IPPROTO_TCP then none
    else
      let ipHlen := iph.ihl.toNat * 4
      if ipHlen < 20 ∨ buf.length < ipHlen + 20 then none
      else if iph.saddr ≠ c.dst ∨ iph.daddr ≠ c.src then none
      else some (TcpHdr.load (buf.drop ipHlen))

/-- What a segment for a pending probe says about its port. -/
def reply (e : SynPending) (tcp : TcpHdr) (now : Time) : Outcome :=
  if tcp.syn && tcp.ack then .opened { port := e.port, connectMs := elapsedMs now e.sent }
  else if tcp.rst then .refused
  else .other

-- ---------------------------------------------------------------------------
-- Source ports
-- ---------------------------------------------------------------------------

/-- The remainder of a wrapped cursor is negative, as in C++. -/
def srcPortOf (cursor : UInt16) : UInt16 :=
  .ofInt (40000 + ((cursor.toNat : Int) - 40000).tmod 20000)

/-- `alloc_src_port` with `n` tries left: the port, or 0, and the new cursor. -/
def allocSrcPort (pending : KeyMap UInt16 SynPending) : Nat → UInt16 → UInt16 × UInt16
  | 0, cursor => (0, cursor)
  | n + 1, cursor =>
    if srcPortOf cursor ∈ pending then allocSrcPort pending n (cursor + 1)
    else (srcPortOf cursor, cursor + 1)

theorem allocSrcPort_free {pending : KeyMap UInt16 SynPending}
    (h : (allocSrcPort pending n cursor).1 ≠ 0) :
    (allocSrcPort pending n cursor).1 ∉ pending := by
  fun_induction allocSrcPort pending n cursor with
  | case1 => exact absurd rfl h
  | case2 n cursor _ ih => exact ih h
  | case3 n cursor hfree => exact hfree

-- ---------------------------------------------------------------------------
-- The machine
-- ---------------------------------------------------------------------------

inductive Point
  | entry
  | setup
  | outerHead
  | abortFlag
  | sendHead
  | send (port : Int) (srcPort : UInt16)
  | poll
  | recv
  | clock
  | sweep (now : Time) (todo : List UInt16)
  | returned
  /-- `std::nullopt`: the caller goes on with a connect scan. -/
  | fallback
  deriving DecidableEq, Repr

def Point.IsHead : Point → Prop
  | .outerHead | .sendHead | .recv | .sweep _ _ => True
  | _ => False

inductive Act
  | tick
  | setup (ok : Bool)
  | abortFlag (raised : Bool)
  | sendto (seqNo : UInt32) (rc : Int) (now : Time)
  | epollWait (readable : Bool)
  /-- The bytes received; none at all when the call fails. -/
  | recvfrom (buf : Bytes) (now : Time)
  /-- The sweep visits the probes in any order. -/
  | clock (now : Time) (order : List UInt16)
  deriving DecidableEq, Repr

structure Scan where
  point : Point := .entry
  out : WorkerResult := {}
  pending : KeyMap UInt16 SynPending := ∅
  cursor : UInt16 := 40000
  nextIdx : Nat := 0

namespace Scan

def settle (s : Scan) (point : Point) (srcPort : UInt16) (oc : Outcome) : Scan :=
  { s with
    point
    out := (s.out.classify oc).markDone
    pending := s.pending.erase srcPort }

def take (s : Scan) (port : Int) : Scan :=
  let alloc := allocSrcPort s.pending 20000 s.cursor
  let s := { s with cursor := alloc.2, nextIdx := s.nextIdx + 1 }
  if alloc.1 = 0 then { s with point := .sendHead, out := (s.out.classify .other).markDone }
  else { s with point := .send port alloc.1 }

/-- The SYN is on its way, or could not be sent. -/
def sent (s : Scan) (ok : Bool) (e : SynPending) : Scan :=
  if ok then { s with point := .sendHead, pending := s.pending.emplace e.srcPort e }
  else { s with point := .sendHead, out := (s.out.classify .other).markDone }

/-- The probe that a datagram answers, and the TCP header of the answer. -/
def answered (c : Config) (s : Scan) (buf : Bytes) : Option (SynPending × TcpHdr) := do
  let tcp ← segment c buf
  let e ← s.pending.find (ntohs tcp.dest)
  some (e, tcp)

/-- A datagram that answers no probe is ignored. -/
def receive (c : Config) (s : Scan) (buf : Bytes) (now : Time) : Scan :=
  match s.answered c buf with
  | none => s
  | some (e, tcp) => s.settle .recv (ntohs tcp.dest) (reply e tcp now)

def expired (c : Config) (now : Time) (e : SynPending) : Bool := c.timeoutMs ≤ elapsedMs now e.sent

def step (c : Config) (s : Scan) (a : Act) : Option Scan :=
  match s.point, a with
  | .entry, .tick =>
    if c.ports.isEmpty then some { s with point := .returned } else some { s with point := .setup }
  | .setup, .setup ok => some { s with point := if ok then .outerHead else .fallback }
  | .outerHead, .tick =>
    if s.nextIdx < c.ports.length ∨ s.pending.size ≠ 0 then some { s with point := .abortFlag }
    else some { s with point := .returned }
  | .abortFlag, .abortFlag raised =>
    if raised then some { s with point := .returned, out := { s.out with aborted := true } }
    else some { s with point := .sendHead }
  | .sendHead, .tick =>
    match c.ports[s.nextIdx]? with
    | none => some { s with point := .poll }
    | some port =>
      if (s.pending.size : Int) < c.maxInflight then some (s.take port)
      else some { s with point := .poll }
  | .send port srcPort, .sendto seqNo rc now =>
    let ok := sendSynPacket (fun _ => rc) c.src c.dst srcPort (.ofInt port) seqNo
    some (s.sent ok { port, srcPort, sent := now })
  | .poll, .epollWait readable => some { s with point := if readable then .recv else .clock }
  | .recv, .recvfrom buf now =>
    if buf = [] then some { s with point := .clock }
    else if buf.length ≤ 2048 then some (s.receive c buf now)
    else none
  | .clock, .clock now order =>
    if order.Perm s.pending.keys then some { s with point := .sweep now order } else none
  | .sweep now (q :: todo), .tick =>
    (s.pending.find q).map fun e =>
      if expired c now e then s.settle (.sweep now todo) q .timedOut
      else { s with point := .sweep now todo }
  | .sweep _ [], .tick => some { s with point := .outerHead }
  | _, _ => none

def inflight (s : Scan) : Multiset Int := s.pending.values.map SynPending.port

/-- Every probe waits under its own source port. -/
def Keyed (s : Scan) : Prop := ∀ q e, s.pending.find q = some e → e.srcPort = q

structure Running (c : Config) (s : Scan) : Prop where
  books : Books c.ports s.out s.inflight (c.ports.drop s.nextIdx)
  idx : s.nextIdx ≤ c.ports.length
  room : (s.pending.size : Int) ≤ c.maxInflight
  keyed : s.Keyed
  notAborted : s.out.aborted = false

structure Sending (c : Config) (s : Scan) (port : Int) (srcPort : UInt16) : Prop where
  books : Books c.ports s.out s.inflight (port :: c.ports.drop s.nextIdx)
  idx : s.nextIdx ≤ c.ports.length
  space : (s.pending.size : Int) < c.maxInflight
  keyed : s.Keyed
  notAborted : s.out.aborted = false
  free : srcPort ∉ s.pending

def Inv (c : Config) (s : Scan) : Prop :=
  match s.point with
  | .entry | .setup => s.out = {} ∧ s.pending = ∅ ∧ s.nextIdx = 0
  | .send port srcPort => Sending c s port srcPort
  | .returned => Concluded c.ports s.out
  | .fallback => True
  | _ => Running c s

-- ---------------------------------------------------------------------------
-- What the parts of a step do to the books
-- ---------------------------------------------------------------------------

variable {c : Config} {s t : Scan} {a : Act} {e : SynPending}

theorem Running.move (h : Running c s) (p : Point) : Running c { s with point := p } :=
  ⟨h.books, h.idx, h.room, h.keyed, h.notAborted⟩

theorem Running.start (c : Config) : Running c { point := p, cursor := q } where
  books := .opening _
  idx := Nat.zero_le _
  room := le_trans (by decide : (0 : Int) ≤ 64) c.maxInflight.2.1
  keyed := by simp [Keyed]
  notAborted := rfl

theorem Running.take (h : Running c s) (hp : c.ports[s.nextIdx]? = some port)
    (hroom : (s.pending.size : Int) < c.maxInflight) : Inv c (s.take port) := by
  have hi : s.nextIdx < c.ports.length := (List.getElem?_eq_some_iff.mp hp).1
  have hb := h.books
  rw [drop_eq_cons hp] at hb
  unfold Scan.take
  dsimp only
  split
  · exact ⟨hb.reject .other trivial, hi, h.room, h.keyed, by simp [h.notAborted]⟩
  · next hq => exact ⟨hb, hi, hroom, h.keyed, h.notAborted, allocSrcPort_free hq⟩

theorem Keyed.emplace (h : s.Keyed) (hq : e.srcPort ∉ s.pending) :
    Keyed { s with pending := s.pending.emplace e.srcPort e } := by
  intro q e' he
  rw [KeyMap.find_emplace hq] at he
  split at he
  · next hk =>
    cases he
    exact hk.symm
  · exact h q e' he

theorem Keyed.erase (h : s.Keyed) (q : UInt16) : Keyed { s with pending := s.pending.erase q } := by
  intro q' e' he
  rw [KeyMap.find_erase] at he
  split at he
  · cases he
  · exact h q' e' he

theorem Sending.sent (h : Sending c s port srcPort) (ok : Bool) (now : Time) :
    Inv c (s.sent ok { port, srcPort, sent := now }) := by
  cases ok with
  | true =>
    refine ⟨?_, h.idx, ?_, Keyed.emplace h.keyed h.free, h.notAborted⟩
    · have hb := h.books.launch
      simpa [Scan.sent, inflight, KeyMap.values_emplace _ h.free] using hb
    · have hspace := h.space
      simp only [Scan.sent, if_true, KeyMap.size_emplace _ h.free]
      omega
  | false =>
    exact ⟨h.books.reject .other trivial, h.idx, h.space.le, h.keyed, by
      simp [Scan.sent, h.notAborted]⟩

theorem Running.settle (h : Running c s) (he : s.pending.find q = some e) (oc : Outcome)
    (hf : oc.Fits e.port) (p : Point) : Running c (s.settle p q oc) := by
  have hb := h.books
  rw [inflight, KeyMap.values_erase he, Multiset.map_cons] at hb
  refine ⟨hb.settle oc hf, h.idx, ?_, Keyed.erase h.keyed q, by simp [Scan.settle, h.notAborted]⟩
  have hroom := h.room
  have hsize := KeyMap.size_erase he
  simp only [Scan.settle]
  omega

theorem reply_fits (e : SynPending) (tcp : TcpHdr) (now : Time) :
    (reply e tcp now).Fits e.port := by
  unfold reply
  split
  · rfl
  · split <;> trivial

theorem of_answered (h : s.answered c buf = some (e, tcp)) :
    segment c buf = some tcp ∧ s.pending.find (ntohs tcp.dest) = some e := by
  obtain ⟨tcp', hseg, h⟩ := Option.bind_eq_some_iff.mp h
  obtain ⟨e', hfind, h⟩ := Option.bind_eq_some_iff.mp h
  cases h
  exact ⟨hseg, hfind⟩

theorem Running.receive (h : Running c s) (hp : s.point = .recv) (buf : Bytes) (now : Time) :
    Inv c (s.receive c buf now) := by
  have hs : Inv c s := by simpa [Inv, hp] using h
  unfold Scan.receive
  split
  · exact hs
  · next ha => exact h.settle (of_answered ha).2 _ (reply_fits ..) _

theorem Running.concluded (h : Running c s)
    (hd : ¬(s.nextIdx < c.ports.length ∨ s.pending.size ≠ 0)) : Concluded c.ports s.out := by
  simp only [not_or, not_lt, ne_eq, not_not] at hd
  refine ⟨_, _, h.books, fun _ => ⟨?_, by simp [hd.1]⟩⟩
  rw [inflight, KeyMap.size_eq_zero.mp hd.2]
  rfl

-- ---------------------------------------------------------------------------
-- The steps one by one
-- ---------------------------------------------------------------------------

/-- `Took c s a t`: with the result `a` the scanner goes from `s` to `t`. -/
inductive Took (c : Config) (s : Scan) : Act → Scan → Prop
  | noPorts (hp : s.point = .entry) (he : c.ports.isEmpty) :
    Took c s .tick { s with point := .returned }
  | entry (hp : s.point = .entry) (he : ¬c.ports.isEmpty) :
    Took c s .tick { s with point := .setup }
  | noSetup (hp : s.point = .setup) : Took c s (.setup false) { s with point := .fallback }
  | setup (hp : s.point = .setup) : Took c s (.setup true) { s with point := .outerHead }
  | outerLoop (hp : s.point = .outerHead) (hg : s.nextIdx < c.ports.length ∨ s.pending.size ≠ 0) :
    Took c s .tick { s with point := .abortFlag }
  | outerExit (hp : s.point = .outerHead)
      (hg : ¬(s.nextIdx < c.ports.length ∨ s.pending.size ≠ 0)) :
    Took c s .tick { s with point := .returned }
  | aborted (hp : s.point = .abortFlag) :
    Took c s (.abortFlag true)
      { s with point := .returned, out := { s.out with aborted := true } }
  | notAborted (hp : s.point = .abortFlag) :
    Took c s (.abortFlag false) { s with point := .sendHead }
  | take (hp : s.point = .sendHead) (hport : c.ports[s.nextIdx]? = some port)
      (hroom : (s.pending.size : Int) < c.maxInflight) :
    Took c s .tick (s.take port)
  | sendExit (hp : s.point = .sendHead)
      (hg : s.nextIdx < c.ports.length → ¬(s.pending.size : Int) < c.maxInflight) :
    Took c s .tick { s with point := .poll }
  | send (hp : s.point = .send port srcPort)
      (hok : sendSynPacket (fun _ => rc) c.src c.dst srcPort (.ofInt port) seqNo = ok) :
    Took c s (.sendto seqNo rc now) (s.sent ok { port, srcPort, sent := now })
  | readable (hp : s.point = .poll) : Took c s (.epollWait true) { s with point := .recv }
  | notReadable (hp : s.point = .poll) : Took c s (.epollWait false) { s with point := .clock }
  | noDatagram (hp : s.point = .recv) : Took c s (.recvfrom [] now) { s with point := .clock }
  | recv (hp : s.point = .recv) (hb : buf ≠ []) (hlen : buf.length ≤ 2048) :
    Took c s (.recvfrom buf now) (s.receive c buf now)
  | clock (hp : s.point = .clock) (horder : order.Perm s.pending.keys) :
    Took c s (.clock now order) { s with point := .sweep now order }
  | timedOut {e : SynPending} (hp : s.point = .sweep now (q :: todo))
      (he : s.pending.find q = some e) (hx : expired c now e) :
    Took c s .tick (s.settle (.sweep now todo) q .timedOut)
  | inTime {e : SynPending} (hp : s.point = .sweep now (q :: todo))
      (he : s.pending.find q = some e) (hx : ¬expired c now e) :
    Took c s .tick { s with point := .sweep now todo }
  | swept (hp : s.point = .sweep now []) : Took c s .tick { s with point := .outerHead }

theorem took_of_step (h : step c s a = some t) : Took c s a t := by
  cases hp : s.point with
  | entry => cases a with
    | tick =>
      simp only [step, hp] at h
      split at h <;> cases h
      · next he => exact .noPorts hp he
      · next he => exact .entry hp he
    | _ => simp [step, hp] at h
  | setup => cases a with
    | setup ok =>
      simp only [step, hp] at h
      cases h
      cases ok with
      | false => exact .noSetup hp
      | true => exact .setup hp
    | _ => simp [step, hp] at h
  | outerHead => cases a with
    | tick =>
      simp only [step, hp] at h
      split at h <;> cases h
      · next hg => exact .outerLoop hp hg
      · next hg => exact .outerExit hp hg
    | _ => simp [step, hp] at h
  | abortFlag => cases a with
    | abortFlag raised =>
      simp only [step, hp] at h
      cases raised <;> cases h
      · exact .notAborted hp
      · exact .aborted hp
    | _ => simp [step, hp] at h
  | sendHead => cases a with
    | tick =>
      simp only [step, hp] at h
      split at h
      · next hnone =>
        cases h
        exact .sendExit hp fun hmore => absurd hnone (by simp [hmore])
      · next hport =>
        split at h <;> cases h
        · next hroom => exact .take hp hport hroom
        · next hroom => exact .sendExit hp fun _ => hroom
    | _ => simp [step, hp] at h
  | send port srcPort => cases a with
    | sendto seqNo rc now =>
      simp only [step, hp] at h
      cases h
      exact .send hp rfl
    | _ => simp [step, hp] at h
  | poll => cases a with
    | epollWait readable =>
      simp only [step, hp] at h
      cases h
      cases readable with
      | false => exact .notReadable hp
      | true => exact .readable hp
    | _ => simp [step, hp] at h
  | recv => cases a with
    | recvfrom buf now =>
      simp only [step, hp] at h
      split at h
      · next hb =>
        cases h
        subst hb
        exact .noDatagram hp
      · next hb =>
        split at h <;> cases h
        next hlen => exact .recv hp hb hlen
    | _ => simp [step, hp] at h
  | clock => cases a with
    | clock now order =>
      simp only [step, hp] at h
      split at h <;> cases h
      next horder => exact .clock hp horder
    | _ => simp [step, hp] at h
  | sweep now todo => cases a with
    | tick => cases todo with
      | nil =>
        simp only [step, hp, Option.some.injEq] at h
        subst h
        exact .swept hp
      | cons q todo =>
        simp only [step, hp] at h
        obtain ⟨e, he, rfl⟩ := Option.map_eq_some_iff.mp h
        split
        · next hx => exact .timedOut hp he hx
        · next hx => exact .inTime hp he hx
    | _ => simp [step, hp] at h
  | returned => simp [step, hp] at h
  | fallback => simp [step, hp] at h

-- ---------------------------------------------------------------------------
-- Every step keeps the invariant
-- ---------------------------------------------------------------------------

theorem step_inv (h : Inv c s) (hs : step c s a = some t) : Inv c t := by
  unfold Inv at h
  cases took_of_step hs with
  | noPorts hp he =>
    rw [hp] at h
    show Concluded c.ports s.out
    rw [h.1]
    exact .empty he
  | entry hp =>
    rw [hp] at h
    exact h
  | noSetup => trivial
  | setup hp =>
    rw [hp] at h
    obtain ⟨point, out, pending, cursor, nextIdx⟩ := s
    obtain ⟨rfl, rfl, rfl⟩ := h
    exact Running.start c
  | outerLoop hp | notAborted hp | sendExit hp | readable hp | notReadable hp | noDatagram hp
  | clock hp | inTime hp | swept hp =>
    rw [hp] at h
    exact h.move _
  | outerExit hp hg =>
    rw [hp] at h
    exact h.concluded hg
  | aborted hp =>
    rw [hp] at h
    exact ⟨_, _, h.books.setAborted true, nofun⟩
  | take hp hport hroom =>
    rw [hp] at h
    exact h.take hport hroom
  | send hp =>
    rw [hp] at h
    exact h.sent ..
  | recv hp =>
    rw [hp] at h
    exact h.receive hp ..
  | timedOut hp he =>
    rw [hp] at h
    exact h.settle he .timedOut trivial _

theorem inv_start (c : Config) : Inv c {} := ⟨rfl, rfl, rfl⟩

theorem reachable_inv (run : Reachable (step c) {} s) : Inv c s :=
  run.invariant (inv_start c) fun _ h _ hs => step_inv h hs

theorem Inv.running (h : Inv c s) (hp : s.point.IsHead) : Running c s := by
  unfold Inv at h
  cases hs : s.point <;> simp_all [Point.IsHead]

theorem Running.accounted (h : Running c s) : s.out.scanned + s.pending.size = s.nextIdx := by
  have hb := h.books.scanned_add
  have hi := h.idx
  rw [inflight, Multiset.card_map, KeyMap.card_values, List.length_drop] at hb
  omega

end Scan

open Scan

-- ---------------------------------------------------------------------------
-- What `scan_tcp_async` returns
-- ---------------------------------------------------------------------------

/-- What `scan_tcp_async` hands to its caller when the scanner gives it a result. -/
structure Returns (c : Config) (s : Scan) (opens : List TcpOpen) (stats : ScanStats) : Prop where
  returned : s.point = .returned
  sorted : SortedByPort s.out.open opens
  stats_eq : stats = finishScan c.ports s.out

/-- SYN-scan accounting. At every loop head nothing is lost or counted twice
and every probe has its own source port; a probe that is sent joins those in
flight; and a scan that is not aborted counts every requested port. -/
theorem synScan_accounting (c : Config) (s : Scan) (run : Reachable (step c) {} s) :
    (s.point.IsHead →
      s.out.scanned + s.pending.size = s.nextIdx ∧
      (s.pending.size : Int) ≤ c.maxInflight ∧
      (∀ q e, s.pending.find q = some e → e.srcPort = q) ∧
      s.out.scanned = s.out.open.length + s.out.timeouts + s.out.refused + s.out.other) ∧
    (∀ port q, s.point = .send port q → q ∉ s.pending ∧
      ∀ seqNo rc now t, step c s (.sendto seqNo rc now) = some t →
        if rc = 40 then t.pending.values = ⟨port, q, now⟩ ::ₘ s.pending.values
        else t.pending = s.pending ∧ t.out.other = s.out.other + 1) ∧
    ∀ opens stats, Returns c s opens stats →
      if s.out.aborted then stats.skipped = true
      else stats.scanned = c.ports.length ∧ stats.skipped = false := by
  have inv := reachable_inv run
  refine ⟨?_, ?_, ?_⟩
  · intro hp
    have h := inv.running hp
    exact ⟨h.accounted, h.room, h.keyed, h.books.scanned_eq⟩
  · intro port q hp
    simp only [Scan.Inv, hp] at inv
    refine ⟨inv.free, ?_⟩
    intro seqNo rc now t ht
    simp only [step, hp, sendSynPacket, Option.some.injEq] at ht
    subst ht
    split
    · next hrc => simp [sent, hrc, KeyMap.values_emplace _ inv.free]
    · next hrc => simp [sent, hrc, WorkerResult.classify, WorkerResult.markDone]
  · rintro opens _ ⟨hp, -, rfl⟩
    simp only [Scan.Inv, hp] at inv
    obtain ⟨inflight, waiting, hb, hd⟩ := inv
    split
    · next ha => simp [finishScan, ha]
    · next ha =>
      obtain ⟨rfl, rfl⟩ := hd (by simpa using ha)
      have hn : s.out.scanned = c.ports.length := hb.scanned_add
      simp [finishScan, hn, ha]

/-- Port 443 answers with SYN and ACK; the SYN for port 80 cannot be sent. -/
def sample : Config :=
  { ports := [443, 80], timeoutMs := 1000, maxInflight := .clamp 64, src := 0x0201A8C0,
    dst := 0x22D8B85D }

def datagram (c : Config) (tcp : TcpHdr) : Bytes :=
  SynFrame.bytes
    ⟨{ ihl := 5, version := 4, protocol := IPPROTO_TCP, saddr := c.dst, daddr := c.src }, tcp⟩

def sampleAnswer : Bytes :=
  datagram sample { source := htons 443, dest := htons 40000, syn := true, ack := true }

def sampleRun : List Act :=
  [.tick, .setup true, .tick, .abortFlag false, .tick, .sendto 7 40 0, .tick, .sendto 8 (-1) 0,
    .tick, .epollWait true, .recvfrom sampleAnswer 9000000, .recvfrom [] 0, .clock 9000000 [],
    .tick, .tick]

def sampleStats : ScanStats := { scanned := 2, other := 1 }

theorem synScan_accounting_sample :
    ∃ s, Returns sample s [{ port := 443, connectMs := 9 }] sampleStats ∧
      sampleStats.scanned = sample.ports.length ∧ sampleStats.skipped = false := by
  obtain ⟨s, hs⟩ := Option.isSome_iff_exists.mp
    (show (exec (step sample) {} sampleRun).isSome by decide +kernel)
  have hend : (exec (step sample) {} sampleRun).map (fun s => (s.point, s.out)) =
      some (.returned, { «open» := [{ port := 443, connectMs := 9 }], scanned := 2, other := 1 }) :=
    by decide +kernel
  simp only [hs, Option.map_some, Option.some.injEq, Prod.mk.injEq] at hend
  have hr : Returns sample s [{ port := 443, connectMs := 9 }] sampleStats := by
    refine ⟨hend.1, ?_, ?_⟩
    · rw [hend.2]
      exact ⟨.refl _, by simp⟩
    · rw [hend.2]
      rfl
  have h := (synScan_accounting sample s (reachable_of_exec hs)).2.2 _ _ hr
  rw [hend.2] at h
  exact ⟨s, hr, h⟩

end SynScan

end ByeByeVpn
