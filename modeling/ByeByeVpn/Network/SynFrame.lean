import ByeByeVpn.Lib.OnesComplement

/-!
# The SYN frame (`send_syn_packet`)

The headers are laid out in memory as on a little-endian host, so a field
that is stored without `htons` lies there with its bytes swapped. That is
what happens to the two checksums.
-/

namespace ByeByeVpn

open OnesComplement

-- ---------------------------------------------------------------------------
-- Memory
-- ---------------------------------------------------------------------------

def store16 (v : UInt16) : Bytes := [.ofNat v.toNat, .ofNat (v.toNat / 256)]

def store32 (v : UInt32) : Bytes :=
  [.ofNat v.toNat, .ofNat (v.toNat / 0x100), .ofNat (v.toNat / 0x10000),
    .ofNat (v.toNat / 0x1000000)]

def htons (v : UInt16) : UInt16 := .ofNat (v.toNat % 256 * 256 + v.toNat / 256)

def htonl (v : UInt32) : UInt32 :=
  .ofNat (v.toNat % 256 * 0x1000000 + v.toNat / 0x100 % 256 * 0x10000 +
    v.toNat / 0x10000 % 256 * 0x100 + v.toNat / 0x1000000)

def IPPROTO_TCP : UInt8 := 6

/-- `struct iphdr` without options. The first byte is two bit fields. -/
structure IpHdr where
  ihl : UInt8 := 0
  version : UInt8 := 0
  tos : UInt8 := 0
  totLen : UInt16 := 0
  id : UInt16 := 0
  fragOff : UInt16 := 0
  ttl : UInt8 := 0
  protocol : UInt8 := 0
  check : UInt16 := 0
  saddr : UInt32 := 0
  daddr : UInt32 := 0

structure TcpHdr where
  source : UInt16 := 0
  dest : UInt16 := 0
  seq : UInt32 := 0
  ackSeq : UInt32 := 0
  doff : UInt8 := 0
  fin : Bool := false
  syn : Bool := false
  rst : Bool := false
  psh : Bool := false
  ack : Bool := false
  urg : Bool := false
  window : UInt16 := 0
  check : UInt16 := 0
  urgPtr : UInt16 := 0

structure PseudoHeader where
  src : UInt32 := 0
  dst : UInt32 := 0
  zero : UInt8 := 0
  proto : UInt8 := IPPROTO_TCP
  tcpLen : UInt16 := htons 20

structure SynFrame where
  ip : IpHdr := {}
  tcp : TcpHdr := {}

def IpHdr.bytes (h : IpHdr) : Bytes :=
  [h.ihl ||| h.version <<< 4, h.tos] ++ (store16 h.totLen ++ (store16 h.id ++ (store16 h.fragOff ++
    ([h.ttl, h.protocol] ++ (store16 h.check ++ (store32 h.saddr ++ store32 h.daddr))))))

def TcpHdr.flags (h : TcpHdr) : UInt8 :=
  h.fin.toUInt8 ||| h.syn.toUInt8 <<< 1 ||| h.rst.toUInt8 <<< 2 ||| h.psh.toUInt8 <<< 3 |||
    h.ack.toUInt8 <<< 4 ||| h.urg.toUInt8 <<< 5

def TcpHdr.bytes (h : TcpHdr) : Bytes :=
  store16 h.source ++ (store16 h.dest ++ (store32 h.seq ++ (store32 h.ackSeq ++
    ([h.doff <<< 4, h.flags] ++ (store16 h.window ++ (store16 h.check ++ store16 h.urgPtr))))))

def PseudoHeader.bytes (h : PseudoHeader) : Bytes :=
  store32 h.src ++ (store32 h.dst ++ ([h.zero, h.proto] ++ store16 h.tcpLen))

def SynFrame.bytes (f : SynFrame) : Bytes := f.ip.bytes ++ f.tcp.bytes

-- ---------------------------------------------------------------------------
-- The checksum
-- ---------------------------------------------------------------------------

def sumWords : Nat → Bytes → Nat
  | sum, hi :: lo :: data => sumWords ((sum + (hi.toNat <<< 8 ||| lo.toNat)) % 2 ^ 32) data
  | sum, [hi] => (sum + hi.toNat <<< 8) % 2 ^ 32
  | sum, [] => sum

/-- `while ((sum >> 16U) != 0U)` -/
def foldCarries (sum : Nat) : Nat :=
  if sum >>> 16 = 0 then sum else foldCarries ((sum &&& 0xFFFF) + sum >>> 16)
termination_by sum
decreasing_by
  rename_i h
  rw [Nat.shiftRight_eq_div_pow] at h ⊢
  rw [Nat.and_two_pow_sub_one_eq_mod sum 16]
  omega

def checksum16 (data : Bytes) : UInt16 := .ofNat (2 ^ 32 - 1 - foldCarries (sumWords 0 data))

/-- The IP header that `send_syn_packet` fills in, before its checksum.
Addresses are `s_addr` values. -/
def synIp (src dst seqNo : UInt32) : IpHdr where
  ihl := 5
  version := 4
  totLen := htons 40
  id := htons (.ofNat seqNo.toNat)
  ttl := 64
  protocol := IPPROTO_TCP
  saddr := src
  daddr := dst

def synTcp (srcPort dstPort : UInt16) (seqNo : UInt32) : TcpHdr where
  source := htons srcPort
  dest := htons dstPort
  seq := htonl seqNo
  doff := 20 / 4
  syn := true
  window := htons 64240

def synFrame (src dst : UInt32) (srcPort dstPort : UInt16) (seqNo : UInt32) : SynFrame :=
  let ip := synIp src dst seqNo
  let tcp := synTcp srcPort dstPort seqNo
  let pseudo : PseudoHeader := { src, dst }
  { ip := { ip with check := checksum16 ip.bytes }
    tcp := { tcp with check := checksum16 (pseudo.bytes ++ tcp.bytes) } }

def sendSynPacket (sendto : Bytes → Int) (src dst : UInt32) (srcPort dstPort : UInt16)
    (seqNo : UInt32) : Bool :=
  sendto (synFrame src dst srcPort dstPort seqNo).bytes == 40

-- ---------------------------------------------------------------------------
-- The words of a frame
-- ---------------------------------------------------------------------------

theorem digits16 (v : UInt16) : ∃ a b, a < 256 ∧ b < 256 ∧ v.toNat = a + 256 * b :=
  have := v.toNat_lt
  ⟨v.toNat % 256, v.toNat / 256, by omega, by omega, by omega⟩

theorem digits32 (v : UInt32) : ∃ a b c d, a < 256 ∧ b < 256 ∧ c < 256 ∧ d < 256 ∧
    v.toNat = a + 256 * b + 65536 * c + 16777216 * d :=
  have := v.toNat_lt
  ⟨v.toNat % 256, v.toNat / 256 % 256, v.toNat / 65536 % 256, v.toNat / 16777216, by omega,
    by omega, by omega, by omega, by omega⟩

theorem toNat_htons {v : UInt16} {a b : Nat} (ha : a < 256) (hb : b < 256)
    (hv : v.toNat = a + 256 * b) : (htons v).toNat = b + 256 * a := by
  have h₁ : (a + 256 * b) % 256 = a := by omega
  have h₂ : (a + 256 * b) / 256 = b := by omega
  rw [htons, UInt16.toNat_ofNat', hv, h₁, h₂]
  omega

theorem bytes_of_digits {a b c d : Nat} (ha : a < 256) (hb : b < 256) (hc : c < 256) :
    (a + 256 * b + 65536 * c + 16777216 * d) % 256 = a ∧
      (a + 256 * b + 65536 * c + 16777216 * d) / 256 % 256 = b ∧
      (a + 256 * b + 65536 * c + 16777216 * d) / 65536 % 256 = c ∧
      (a + 256 * b + 65536 * c + 16777216 * d) / 16777216 = d := by
  refine ⟨?_, ?_, ?_, ?_⟩ <;> omega

theorem toNat_htonl {v : UInt32} {a b c d : Nat} (ha : a < 256) (hb : b < 256) (hc : c < 256)
    (hd : d < 256) (hv : v.toNat = a + 256 * b + 65536 * c + 16777216 * d) :
    (htonl v).toNat = d + 256 * c + 65536 * b + 16777216 * a := by
  obtain ⟨h₁, h₂, h₃, h₄⟩ := bytes_of_digits (d := d) ha hb hc
  rw [htonl, UInt32.toNat_ofNat', hv, h₁, h₂, h₃, h₄]
  omega

theorem toNat_ofNat8 (n : Nat) : (UInt8.ofNat n).toNat = n % 256 := UInt8.toNat_ofNat'

theorem words_store16 (v : UInt16) (b : Bytes) :
    words (store16 v ++ b) = swap v.toNat :: words b := by
  have hv := v.toNat_lt
  simp only [store16, List.cons_append, List.nil_append, words, toNat_ofNat8, swap]
  rw [Nat.mod_eq_of_lt (by omega : v.toNat / 256 < 256)]

theorem words_htons (v : UInt16) (b : Bytes) :
    words (store16 (htons v) ++ b) = v.toNat :: words b := by
  obtain ⟨x, y, hx, hy, hv⟩ := digits16 v
  rw [words_store16, toNat_htons hx hy hv, hv, swap]
  have h : (y + 256 * x) % 256 * 256 + (y + 256 * x) / 256 = x + 256 * y := by omega
  rw [h]

/-- The words of an address, or another value, that is stored as it is. -/
def wordHi (v : UInt32) : Nat := v.toNat % 256 * 256 + v.toNat / 0x100 % 256

def wordLo (v : UInt32) : Nat := v.toNat / 0x10000 % 256 * 256 + v.toNat / 0x1000000

theorem words_store32 (v : UInt32) (b : Bytes) :
    words (store32 v ++ b) = wordHi v :: wordLo v :: words b := by
  have hv := v.toNat_lt
  simp only [store32, List.cons_append, List.nil_append, words, toNat_ofNat8, wordHi, wordLo]
  rw [Nat.mod_eq_of_lt (by omega : v.toNat / 0x1000000 < 256)]

theorem words_htonl (v : UInt32) (b : Bytes) :
    words (store32 (htonl v) ++ b) = v.toNat / 0x10000 :: v.toNat % 0x10000 :: words b := by
  obtain ⟨x, y, z, w, hx, hy, hz, hw, hv⟩ := digits32 v
  rw [words_store32, wordHi, wordLo, toNat_htonl hx hy hz hw hv, hv]
  clear hv
  obtain ⟨h₁, h₂, h₃, h₄⟩ := bytes_of_digits (d := x) hw hz hy
  have h₅ : (x + 256 * y + 65536 * z + 16777216 * w) / 65536 = w * 256 + z := by omega
  have h₆ : (x + 256 * y + 65536 * z + 16777216 * w) % 65536 = y * 256 + x := by omega
  rw [h₁, h₂, h₃, h₄, h₅, h₆]

-- ---------------------------------------------------------------------------
-- The checksum as a class modulo 65535
-- ---------------------------------------------------------------------------

theorem shiftLeft_or_byte (hi lo : UInt8) :
    hi.toNat <<< 8 ||| lo.toNat = hi.toNat * 256 + lo.toNat := by
  rw [← Nat.shiftLeft_add_eq_or_of_lt (b := lo.toNat) (i := 8) lo.toNat_lt, Nat.shiftLeft_eq]

theorem sumWords_eq (data : Bytes) (sum : Nat)
    (h : sum + 65535 * (words data).length < 2 ^ 32) :
    sumWords sum data = sum + (words data).sum := by
  fun_induction sumWords sum data with
  | case1 sum hi lo data ih =>
    have hhi := hi.toNat_lt
    have hlo := lo.toNat_lt
    simp only [words, List.length_cons, List.sum_cons] at h ⊢
    rw [shiftLeft_or_byte, Nat.mod_eq_of_lt (by omega)] at ih
    rw [shiftLeft_or_byte, Nat.mod_eq_of_lt (by omega), ih (by omega)]
    omega
  | case2 sum hi =>
    have hhi := hi.toNat_lt
    simp only [words, List.length_cons, List.sum_cons, Nat.shiftLeft_eq] at h ⊢
    rw [Nat.mod_eq_of_lt (by omega)]
    simp
  | case3 sum => rfl

theorem foldCarries_spec (s : Nat) : foldCarries s ≡ s [MOD 65535] ∧ foldCarries s ≤ 65535 ∧
    (0 < s → 0 < foldCarries s) := by
  fun_induction foldCarries s with
  | case1 s h =>
    rw [Nat.shiftRight_eq_div_pow] at h
    exact ⟨.refl _, by omega, id⟩
  | case2 s h ih =>
    have e : (s &&& 0xFFFF) + s >>> 16 = s % 2 ^ 16 + s / 2 ^ 16 := by
      rw [Nat.shiftRight_eq_div_pow, Nat.and_two_pow_sub_one_eq_mod s 16]
    rw [Nat.shiftRight_eq_div_pow] at h
    rw [e] at ih ⊢
    obtain ⟨hm, hl, hp⟩ := ih
    refine ⟨hm.trans ?_, hl, fun _ => hp (by omega)⟩
    exact (Nat.modEq_iff_dvd' (by omega)).mpr ⟨s / 2 ^ 16, by omega⟩

theorem checksum16_spec {data : Bytes} (h : (words data).length < 65536)
    (hpos : 0 < (words data).sum) :
    ∃ f, f ≡ (words data).sum [MOD 65535] ∧ f ≤ 65535 ∧ 0 < f ∧
      (checksum16 data).toNat = 65535 - f := by
  have hs := sumWords_eq data 0 (by omega)
  obtain ⟨hm, hl, hp⟩ := foldCarries_spec (sumWords 0 data)
  rw [hs, Nat.zero_add] at hm hl hp
  refine ⟨_, hm, hl, hp hpos, ?_⟩
  rw [checksum16, UInt16.toNat_ofNat', hs, Nat.zero_add]
  omega

/-- The sum over a header whose checksum field, the word `swap c`, was
computed over the header without it. -/
theorem sum_header_iff {data stored : Bytes} (h : (words data).length < 65536)
    (hpos : 0 < (words data).sum)
    (hstored : (words stored).sum = (words data).sum + swap (checksum16 data).toNat) :
    OnesComplement.sum (words stored) = 0xFFFF ↔ 257 ∣ (words data).sum := by
  obtain ⟨f, hm, hl, hf, hc⟩ := checksum16_spec h hpos
  rw [sum_eq_iff (words_le stored), hstored, hc, ← dvd_swapped_complement hm hl]
  exact and_iff_right (by omega)

-- ---------------------------------------------------------------------------
-- When a frame is valid
-- ---------------------------------------------------------------------------

def be16 (b : Bytes) (i : Nat) : Nat := (b.getD i 0).toNat * 256 + (b.getD (i + 1) 0).toNat

def be32 (b : Bytes) (i : Nat) : Nat := be16 b i * 0x10000 + be16 b (i + 2)

def pseudoBytes (src dst : UInt32) : Bytes := store32 src ++ (store32 dst ++ [0, 6, 0, 20])

/-- A receiver accepts the frame as a SYN with these addresses, ports and
sequence number. -/
structure ValidSyn (frame : Bytes) (src dst : UInt32) (srcPort dstPort : UInt16)
    (seqNo : UInt32) : Prop where
  ipChecksum : OnesComplement.sum (words (frame.take 20)) = 0xFFFF
  tcpChecksum : OnesComplement.sum (words (pseudoBytes src dst ++ frame.drop 20)) = 0xFFFF
  source : (frame.drop 12).take 4 = store32 src
  destination : (frame.drop 16).take 4 = store32 dst
  sourcePort : be16 frame 20 = srcPort.toNat
  destinationPort : be16 frame 22 = dstPort.toNat
  sequence : be32 frame 24 = seqNo.toNat
  flags : frame.getD 33 0 = 0x02

def ipSum (src dst seqNo : UInt32) : Nat :=
  0x4500 + 40 + seqNo.toNat % 0x10000 + 0x4006 + (wordHi src + wordLo src) +
    (wordHi dst + wordLo dst)

def tcpSum (src dst : UInt32) (srcPort dstPort : UInt16) (seqNo : UInt32) : Nat :=
  6 + 20 + 0x5002 + 64240 + (wordHi src + wordLo src) + (wordHi dst + wordLo dst) +
    srcPort.toNat + dstPort.toNat + (seqNo.toNat / 0x10000 + seqNo.toNat % 0x10000)

theorem words_append_nil (b : Bytes) : words b = words (b ++ []) := by rw [List.append_nil]

theorem words_pair (hi lo : UInt8) (b : Bytes) :
    words ([hi, lo] ++ b) = (hi.toNat * 256 + lo.toNat) :: words b := rfl

theorem words_ip (h : IpHdr) : words h.bytes =
    [(h.ihl ||| h.version <<< 4).toNat * 256 + h.tos.toNat, swap h.totLen.toNat, swap h.id.toNat,
      swap h.fragOff.toNat, h.ttl.toNat * 256 + h.protocol.toNat, swap h.check.toNat,
      wordHi h.saddr, wordLo h.saddr, wordHi h.daddr, wordLo h.daddr] := by
  rw [IpHdr.bytes, words_pair, words_store16, words_store16, words_store16, words_pair,
    words_store16, words_store32, words_append_nil, words_store32]
  rfl

theorem words_tcp (h : TcpHdr) : words h.bytes =
    [swap h.source.toNat, swap h.dest.toNat, wordHi h.seq, wordLo h.seq, wordHi h.ackSeq,
      wordLo h.ackSeq, (h.doff <<< 4).toNat * 256 + h.flags.toNat, swap h.window.toNat,
      swap h.check.toNat, swap h.urgPtr.toNat] := by
  rw [TcpHdr.bytes, words_store16, words_store16, words_store32, words_store32, words_pair,
    words_store16, words_store16, words_append_nil, words_store16]
  rfl

theorem words_pseudo (src dst : UInt32) (b : Bytes) : words (pseudoBytes src dst ++ b) =
    wordHi src :: wordLo src :: wordHi dst :: wordLo dst :: 6 :: 20 :: words b := by
  rw [pseudoBytes, List.append_assoc, List.append_assoc, words_store32, words_store32]
  rfl

theorem pseudo_bytes (src dst : UInt32) :
    PseudoHeader.bytes { src, dst } = pseudoBytes src dst := by
  have h : store16 (htons 20) = [0, 20] := by decide
  rw [PseudoHeader.bytes, h]
  rfl

theorem swap_htons (v : UInt16) : swap (htons v).toNat = v.toNat := by
  have h := words_htons v []
  rw [words_store16] at h
  exact List.head_eq_of_cons_eq h

theorem words_htonl_eq (v : UInt32) :
    wordHi (htonl v) = v.toNat / 0x10000 ∧ wordLo (htonl v) = v.toNat % 0x10000 := by
  have h := words_htonl v []
  rw [words_store32] at h
  exact ⟨List.head_eq_of_cons_eq h, List.head_eq_of_cons_eq (List.tail_eq_of_cons_eq h)⟩

variable (src dst : UInt32) (srcPort dstPort : UInt16) (seqNo : UInt32)

theorem words_synIp : words (synIp src dst seqNo).bytes =
    [0x4500, 40, seqNo.toNat % 0x10000, 0, 0x4006, 0, wordHi src, wordLo src, wordHi dst,
      wordLo dst] := by
  rw [words_ip]
  simp only [synIp, swap_htons, UInt16.toNat_ofNat']
  rfl

theorem flags_synTcp : (synTcp srcPort dstPort seqNo).flags = 0x02 := by
  simp only [TcpHdr.flags, synTcp]
  decide

theorem words_synTcp : words (synTcp srcPort dstPort seqNo).bytes =
    [srcPort.toNat, dstPort.toNat, seqNo.toNat / 0x10000, seqNo.toNat % 0x10000, 0, 0, 0x5002,
      64240, 0, 0] := by
  rw [words_tcp, flags_synTcp]
  simp only [synTcp, swap_htons, words_htonl_eq]
  rfl

theorem synFrame_ip : (synFrame src dst srcPort dstPort seqNo).ip =
    { synIp src dst seqNo with check := checksum16 (synIp src dst seqNo).bytes } := rfl

theorem synFrame_tcp : (synFrame src dst srcPort dstPort seqNo).tcp =
    { synTcp srcPort dstPort seqNo with
      check := checksum16 (pseudoBytes src dst ++ (synTcp srcPort dstPort seqNo).bytes) } := by
  rw [← pseudo_bytes]
  rfl

/-- Setting the checksum field changes one word. -/
theorem sum_words_ip (h : IpHdr) (c : UInt16) (h0 : h.check = 0) :
    (words { h with check := c }.bytes).sum = (words h.bytes).sum + swap c.toNat := by
  rw [words_ip, words_ip, h0]
  simp only [List.sum_cons, List.sum_nil, show swap (0 : UInt16).toNat = 0 from rfl]
  omega

theorem sum_words_tcp (h : TcpHdr) (c : UInt16) (h0 : h.check = 0) :
    (words { h with check := c }.bytes).sum = (words h.bytes).sum + swap c.toNat := by
  rw [words_tcp, words_tcp, h0]
  simp only [TcpHdr.flags, List.sum_cons, List.sum_nil, show swap (0 : UInt16).toNat = 0 from rfl]
  omega

theorem sum_words_segment (h : TcpHdr) (c : UInt16) (h0 : h.check = 0) :
    (words (pseudoBytes src dst ++ { h with check := c }.bytes)).sum =
      (words (pseudoBytes src dst ++ h.bytes)).sum + swap c.toNat := by
  rw [words_pseudo, words_pseudo]
  simp only [List.sum_cons]
  rw [sum_words_tcp h c h0]
  omega

theorem ip_checksum_iff :
    OnesComplement.sum (words (synFrame src dst srcPort dstPort seqNo).ip.bytes) = 0xFFFF ↔
      257 ∣ ipSum src dst seqNo := by
  have hsum : (words (synIp src dst seqNo).bytes).sum = ipSum src dst seqNo := by
    rw [words_synIp, ipSum]
    simp only [List.sum_cons, List.sum_nil]
    omega
  rw [synFrame_ip, ← hsum]
  refine sum_header_iff (by rw [words_synIp]; simp) ?_ (sum_words_ip _ _ rfl)
  rw [hsum, ipSum]
  omega

theorem tcp_checksum_iff :
    OnesComplement.sum (words (pseudoBytes src dst ++
      (synFrame src dst srcPort dstPort seqNo).tcp.bytes)) = 0xFFFF ↔
      257 ∣ tcpSum src dst srcPort dstPort seqNo := by
  have hsum : (words (pseudoBytes src dst ++ (synTcp srcPort dstPort seqNo).bytes)).sum =
      tcpSum src dst srcPort dstPort seqNo := by
    rw [words_pseudo, words_synTcp, tcpSum]
    -- As a definitional equality this would unfold the words themselves.
    simp -implicitDefEqProofs only [List.sum_cons, List.sum_nil]
    omega
  rw [synFrame_tcp, ← hsum]
  refine sum_header_iff (by rw [words_pseudo, words_synTcp]; simp) ?_
    (sum_words_segment src dst _ _ rfl)
  rw [hsum, tcpSum]
  omega

theorem be16_htons (v : UInt16) :
    (UInt8.ofNat (htons v).toNat).toNat * 256 + (UInt8.ofNat ((htons v).toNat / 256)).toNat =
      v.toNat :=
  List.head_eq_of_cons_eq (words_htons v [])

theorem be32_htonl (v : UInt32) :
    ((UInt8.ofNat (htonl v).toNat).toNat * 256 + (UInt8.ofNat ((htonl v).toNat / 0x100)).toNat) *
        0x10000 +
      ((UInt8.ofNat ((htonl v).toNat / 0x10000)).toNat * 256 +
        (UInt8.ofNat ((htonl v).toNat / 0x1000000)).toNat) = v.toNat := by
  have h := words_htonl v []
  have hi := List.head_eq_of_cons_eq h
  have lo := List.head_eq_of_cons_eq (List.tail_eq_of_cons_eq h)
  exact (congrArg₂ (fun x y => x * 0x10000 + y) hi lo).trans (Nat.div_add_mod' _ _)

/-- Exactly the frames in which both sums are multiples of 257 are valid:
the checksums are stored in host order, with their bytes swapped. -/
theorem synFrame_valid_iff :
    ValidSyn (synFrame src dst srcPort dstPort seqNo).bytes src dst srcPort dstPort seqNo ↔
      257 ∣ ipSum src dst seqNo ∧ 257 ∣ tcpSum src dst srcPort dstPort seqNo := by
  constructor
  · intro h
    exact ⟨(ip_checksum_iff ..).mp h.ipChecksum, (tcp_checksum_iff ..).mp h.tcpChecksum⟩
  · rintro ⟨hip, htcp⟩
    exact {
      ipChecksum := (ip_checksum_iff ..).mpr hip
      tcpChecksum := (tcp_checksum_iff ..).mpr htcp
      source := rfl
      destination := rfl
      sourcePort := be16_htons srcPort
      destinationPort := be16_htons dstPort
      sequence := be32_htonl seqNo
      flags := flags_synTcp srcPort dstPort seqNo }

/-- A SYN from 192.168.1.2 to 93.184.216.34: neither checksum verifies. -/
theorem synFrame_invalid :
    ¬ValidSyn (synFrame 0x0201A8C0 0x22D8B85D 40000 443 0x12345678).bytes 0x0201A8C0 0x22D8B85D
      40000 443 0x12345678 := by
  intro h
  exact absurd ((ip_checksum_iff ..).mp h.ipChecksum) (by decide)

end ByeByeVpn
