import ByeByeVpn.Analysis.Verdict
import ByeByeVpn.Core.Encoders
import ByeByeVpn.Lib.Session
import ByeByeVpn.Network.AddressChoice
import ByeByeVpn.Network.TlsHelloProbe

/-!
# UDP probes (`network/udp_scanner.cpp`, `network/vpn_probes.cpp`)

A UDP probe sends one datagram and waits for one reply. The probes for
WireGuard and AmneziaWG make the datagram from random bytes. What the system
and the generator answer is data.
-/

namespace ByeByeVpn

open Session

def EINTR : Int := 4
def EINVAL : Int := 22
def WSAETIMEDOUT : Int := 110
def WSAECONNRESET : Int := 104

-- ---------------------------------------------------------------------------
-- One datagram
-- ---------------------------------------------------------------------------

inductive UdpCall
  | sleep (ms : Int)
  | socket (family : AddrFamily)
  | setTimeout (tvSec tvUsec : Int)
  | connect (addr : AddrInfo)
  | send (payload : Bytes)
  | recv
  | close
  deriving DecidableEq

structure UdpReport extends UdpResult where
  bytes : Nat := 0
  replyHex : Bytes := []
  ms : Int := 0
  err : Bytes := []

structure UdpNet where
  /-- With jitter, the random byte; zero if there is none. -/
  jitter : Option UInt8
  getaddrinfo : GetAddrInfo
  socket : Bool
  connect : Option Int
  sent : Int
  /-- The datagram, or the error. -/
  recv : Except Int Bytes
  ms : Int

def isTimeoutError (err : Int) : Bool :=
  err == EAGAIN || err == EWOULDBLOCK || err == EINTR || err == EINVAL || err == WSAETIMEDOUT ||
    err == 0

def isPortUnreachable (err : Int) : Bool := err == ECONNREFUSED || err == WSAECONNRESET

/-- The error as Windows has it. -/
def normalizeError (err : Int) : Int :=
  if err == EAGAIN || err == EWOULDBLOCK || err == EINTR || err == EINVAL then WSAETIMEDOUT
  else if err == ECONNREFUSED then WSAECONNRESET
  else err

namespace UdpNet

variable (net : UdpNet)

def applyJitter : Session UdpCall Unit :=
  match net.jitter with
  | some jb => call (.sleep (50 + jb.toNat % 251))
  | none => return ()

/-- What the reply, or the error behind `recv`, comes to. -/
def finish : Except Int Bytes → UdpReport
  | .ok got =>
    { responded := true
      bytes := got.length
      replyHex := if got.isEmpty then [] else hexS true (got.take 32)
      ms := net.ms }
  | .error err =>
    let werr := normalizeError err
    { ms := net.ms
      err :=
        if isTimeoutError werr then ascii "no-reply / filtered"
        else if isPortUnreachable werr then ascii "ICMP port-unreachable (port closed)"
        else ascii "wsa " ++ decimal werr }

def probe (payload : Bytes) (timeoutMs : Int) : Session UdpCall UdpReport := do
  net.applyJitter
  match udpTarget net.getaddrinfo with
  | .error err => return { err }
  | .ok chosen =>
    if !net.socket then return { err := ascii "socket" }
    else within (.socket chosen.family) .close do
      call (.setTimeout (timeoutMs.tdiv 1000) (timeoutMs.tmod 1000 * 1000))
      call (.connect chosen)
      match net.connect with
      | some err => return { err := ascii "connect " ++ decimal err }
      | none => do
        call (.send payload)
        if net.sent ≤ 0 then return { err := ascii "send" }
        else do
          call .recv
          return net.finish net.recv

end UdpNet

-- ---------------------------------------------------------------------------
-- Random packets
-- ---------------------------------------------------------------------------

def kWireGuardPacketSize : Nat := 148
def kWireGuardRandomOffset : Nat := 4
def kWireGuardRandomSize : Nat := 140
def kMaxJunkPrefixLen : Nat := 64
def kProbeTimeoutMs : Int := 1500

def rngError : UdpReport := { err := ascii "rng" }

/-- The packet with a message type and these bytes behind it. They do not
reach its end: four bytes stay zero there. -/
def initiationPacket (random : { b : Bytes // b.length = kWireGuardRandomSize }) : Bytes :=
  1 :: 0 :: 0 :: 0 :: (random.val ++
    List.replicate (kWireGuardPacketSize - kWireGuardRandomOffset - kWireGuardRandomSize) 0)

def wireguardProbe (net : UdpNet) (rand : Fill kWireGuardRandomSize) : Session UdpCall UdpReport :=
  match rand with
  | none => return rngError
  | some random => net.probe (initiationPacket random) kProbeTimeoutMs

def actualJunkLen (junkPrefixLen : Nat) : Nat := min junkPrefixLen kMaxJunkPrefixLen

def amneziawgProbe (net : UdpNet) (junkPrefixLen : Nat) (junk : Fill (actualJunkLen junkPrefixLen))
    (rand : Fill kWireGuardRandomSize) : Session UdpCall UdpReport :=
  let filled : Fill (actualJunkLen junkPrefixLen) :=
    if h : actualJunkLen junkPrefixLen = 0 then some ⟨[], h.symm⟩ else junk
  match filled with
  | none => return rngError
  | some prefixed =>
    match rand with
    | none => return rngError
    | some random => net.probe (prefixed.val ++ initiationPacket random) kProbeTimeoutMs

-- ---------------------------------------------------------------------------
-- The protocol
-- ---------------------------------------------------------------------------

/-- How far a probe has got; at its end, whether the datagram was sent. -/
inductive UdpStage
  | idle
  | opened
  | connected
  | asked
  | closed (asked : Bool)
  deriving DecidableEq

def UdpStage.step (allowed : Bytes → Bool) : UdpStage → UdpCall → Option UdpStage
  | .idle, .sleep ms => if 50 ≤ ms ∧ ms ≤ 300 then some .idle else none
  | .idle, .socket _ => some .opened
  | .opened, .setTimeout .. => some .opened
  | .opened, .connect _ => some .connected
  | .connected, .send payload => if allowed payload then some .asked else none
  | .asked, .recv => some .asked
  | .opened, .close => some (.closed false)
  | .connected, .close => some (.closed false)
  | .asked, .close => some (.closed true)
  | _, _ => none

/-- What the probe reports when it has got so far: a reply, or one error. -/
structure UdpNet.Told (net : UdpNet) (r : UdpReport) (stage : UdpStage) : Prop where
  ended : stage = .idle ∨ ∃ asked, stage = .closed asked
  responded_iff : r.responded = true ↔ r.err = []
  reply : r.responded = true → ∃ got, net.recv = .ok got ∧ stage = .closed true ∧
    r.bytes = got.length ∧ HexText.read (r.replyHex.filter (· != chr ' ')) = some (got.take 32)
  silent : r.responded = false → r.bytes = 0 ∧ r.replyHex = []
  filtered : r.err = ascii "no-reply / filtered" →
    stage = .closed true ∧ ∃ err, net.recv = .error err ∧ isTimeoutError err = true
  closed : r.err = ascii "ICMP port-unreachable (port closed)" →
    stage = .closed true ∧ ∃ err, net.recv = .error err ∧ isPortUnreachable err = true

section
variable {net : UdpNet} {allowed : Bytes → Bool}

theorem isTimeoutError_normalizeError (err : Int) :
    isTimeoutError (normalizeError err) = isTimeoutError err := by
  unfold normalizeError isTimeoutError
  grind [WSAETIMEDOUT, WSAECONNRESET, ECONNREFUSED, EAGAIN, EWOULDBLOCK, EINTR, EINVAL]

theorem isPortUnreachable_normalizeError (err : Int) :
    isPortUnreachable (normalizeError err) = isPortUnreachable err := by
  unfold normalizeError isPortUnreachable
  grind [WSAETIMEDOUT, WSAECONNRESET, ECONNREFUSED, EAGAIN, EWOULDBLOCK, EINTR, EINVAL]

theorem UdpNet.told_of_err {stage : UdpStage} {err : Bytes}
    (hstage : stage = .idle ∨ ∃ asked, stage = .closed asked) (hne : err ≠ [])
    (hfiltered : err.head? ≠ some (chr 'n')) (hclosed : err.head? ≠ some (chr 'I')) :
    net.Told { err } stage where
  ended := hstage
  responded_iff := iff_of_false Bool.false_ne_true hne
  reply hr := absurd hr Bool.false_ne_true
  silent _ := ⟨rfl, rfl⟩
  filtered heq := absurd (congrArg List.head? heq) hfiltered
  closed heq := absurd (congrArg List.head? heq) hclosed

theorem UdpNet.told_reply {got : Bytes} (hrecv : net.recv = .ok got) :
    net.Told (net.finish (.ok got)) (.closed true) where
  ended := .inr ⟨true, rfl⟩
  responded_iff := iff_of_true rfl rfl
  reply _ := by
    refine ⟨got, hrecv, rfl, rfl, ?_⟩
    cases got with
    | nil => rfl
    | cons c got => exact read_hexS true ((c :: got).take 32)
  silent h := by cases h
  filtered h := by cases h
  closed h := by cases h

theorem UdpNet.told_error {err : Int} (hrecv : net.recv = .error err) :
    net.Told (net.finish (.error err)) (.closed true) := by
  have hne : (net.finish (.error err)).err ≠ [] := by
    simp only [UdpNet.finish]
    split_ifs
    · decide
    · decide
    · exact List.append_ne_nil_of_left_ne_nil (by decide) _
  refine ⟨.inr ⟨true, rfl⟩, iff_of_false Bool.false_ne_true hne,
    fun h => absurd h Bool.false_ne_true, fun _ => ⟨rfl, rfl⟩, fun h => ⟨rfl, err, hrecv, ?_⟩,
    fun h => ⟨rfl, err, hrecv, ?_⟩⟩
  all_goals
    simp only [UdpNet.finish, isTimeoutError_normalizeError, isPortUnreachable_normalizeError] at h
    have hhead := congrArg List.head? h
    split_ifs at h hhead with htimeout hunreachable
  · exact htimeout
  · exact absurd hhead (by decide)
  · exact absurd (Option.some.inj hhead : chr 'w' = chr 'n') (by decide)
  · exact absurd hhead (by decide)
  · exact hunreachable
  · exact absurd (Option.some.inj hhead : chr 'w' = chr 'I') (by decide)

/-- Every run sends at most one datagram, and one that is allowed, and closes
the socket. -/
theorem UdpNet.probe_leads {payload : Bytes} (timeoutMs : Int) (h : allowed payload = true) :
    Leads (UdpStage.step allowed) .idle (net.probe payload timeoutMs) net.Told := by
  have hjitter : Leads (UdpStage.step allowed) .idle net.applyJitter fun _ d => d = .idle := by
    unfold UdpNet.applyJitter
    cases net.jitter with
    | none => exact .pure rfl
    | some jb =>
      have hsleep : UdpStage.step allowed .idle (.sleep (50 + jb.toNat % 251)) = some .idle :=
        if_pos ⟨by omega, by omega⟩
      exact .call hsleep rfl
  refine hjitter.bind ?_
  rintro _ _ rfl
  cases htarget : udpTarget net.getaddrinfo with
  | error err =>
    have hdns : err = ascii "dns" := by
      unfold udpTarget at htarget
      grind
    subst hdns
    exact .pure (told_of_err (.inl rfl) (by decide) (by decide) (by decide))
  | ok chosen =>
    refine .ite (fun _ => .pure ?_) fun _ => ?_
    · exact told_of_err (.inl rfl) (by decide) (by decide) (by decide)
    refine .within (t := .opened) rfl ?_
    refine .seq (t := .opened) rfl (.seq (t := .connected) rfl ?_)
    cases net.connect with
    | some err =>
      have hc : chr 'c' ≠ chr 'n' ∧ chr 'c' ≠ chr 'I' := by decide
      exact .pure ⟨_, rfl, told_of_err (.inr ⟨_, rfl⟩)
        (List.append_ne_nil_of_left_ne_nil (by decide) _) (mt Option.some.inj hc.1)
        (mt Option.some.inj hc.2)⟩
    | none =>
      have hsend : UdpStage.step allowed .connected (.send payload) = some .asked := if_pos h
      refine .seq hsend (.ite (fun _ => .pure ⟨_, rfl, ?_⟩) fun _ => .seq (t := .asked) rfl ?_)
      · exact told_of_err (.inr ⟨_, rfl⟩) (by decide) (by decide) (by decide)
      · cases hrecv : net.recv with
        | ok got => exact .pure ⟨_, rfl, told_reply hrecv⟩
        | error err => exact .pure ⟨_, rfl, told_error hrecv⟩

end

-- ---------------------------------------------------------------------------
-- Initiations
-- ---------------------------------------------------------------------------

/-- The first message of a WireGuard handshake, by its type and its size, with
zeros at its end. -/
def isInitiation (packet : Bytes) : Bool :=
  packet.length == kWireGuardPacketSize && packet.take kWireGuardRandomOffset == [1, 0, 0, 0] &&
    packet.drop (kWireGuardRandomOffset + kWireGuardRandomSize) == [0, 0, 0, 0]

def isPadded (junkLen : Nat) (packet : Bytes) : Bool :=
  packet.length == junkLen + kWireGuardPacketSize && isInitiation (packet.drop junkLen)

theorem length_initiationPacket (random : { b : Bytes // b.length = kWireGuardRandomSize }) :
    (initiationPacket random).length = kWireGuardPacketSize := by
  simp only [initiationPacket, List.length_cons, List.length_append, random.property,
    List.length_replicate]
  rfl

theorem isInitiation_packet (random : { b : Bytes // b.length = kWireGuardRandomSize }) :
    isInitiation (initiationPacket random) = true := by
  have hdrop : (initiationPacket random).drop (kWireGuardRandomOffset + kWireGuardRandomSize) =
      [0, 0, 0, 0] := by
    rw [← List.drop_drop]
    exact List.drop_left' random.property
  rw [isInitiation, length_initiationPacket, hdrop]
  simp [initiationPacket, kWireGuardRandomOffset]

theorem isPadded_packet {n : Nat} (junk : { b : Bytes // b.length = n })
    (random : { b : Bytes // b.length = kWireGuardRandomSize }) :
    isPadded n (junk.val ++ initiationPacket random) = true := by
  rw [isPadded, List.length_append, junk.property, length_initiationPacket,
    List.drop_left' junk.property, isInitiation_packet]
  simp

end ByeByeVpn
