import ByeByeVpn.Lib.Bytes
import Mathlib.Algebra.Group.Nat.Defs

/-!
# The ClientHello of TLS

The first record that a client sends, as the bytes of a structure. Every part
of variable length stands behind its length, and so do the parts inside it.
-/

namespace ByeByeVpn.Tls

def bigEndian : Nat → Nat → Bytes
  | 0, _ => []
  | w + 1, n => .ofNat (n / 256 ^ w) :: bigEndian w n

def u16 (n : UInt16) : Bytes := bigEndian 2 n.toNat

/-- A part behind its length, which takes `w` bytes. -/
def vec (w : Nat) (data : Bytes) : Bytes := bigEndian w data.length ++ data

inductive Extension
  | serverName (names : List (UInt8 × Bytes))
  | protocols (names : List Bytes)
  | pointFormats (formats : Bytes)
  | groups (codes : List UInt16)
  | signatures (codes : List UInt16)
  | versions (codes : List UInt16)
  | keyShare (shares : List (UInt16 × Bytes))
  deriving DecidableEq

namespace Extension

def code : Extension → UInt16
  | serverName _ => 0
  | groups _ => 10
  | pointFormats _ => 11
  | signatures _ => 13
  | protocols _ => 16
  | versions _ => 43
  | keyShare _ => 51

/-- The list in the extension, and how many bytes its length takes. -/
def content : Extension → Nat × Bytes
  | serverName names => (2, names.flatMap fun n => n.1 :: vec 2 n.2)
  | protocols names => (2, names.flatMap (vec 1))
  | pointFormats formats => (1, formats)
  | groups codes | signatures codes => (2, codes.flatMap u16)
  | versions codes => (1, codes.flatMap u16)
  | keyShare shares => (2, shares.flatMap fun s => u16 s.1 ++ vec 2 s.2)

def text (e : Extension) : Bytes := u16 e.code ++ vec 2 (vec e.content.1 e.content.2)

def Fits (e : Extension) : Prop :=
  e.content.2.length < 256 ^ e.content.1 ∧
    match e with
    | serverName names => ∀ n ∈ names, n.2.length < 256 ^ 2
    | protocols names => ∀ n ∈ names, n.length < 256
    | keyShare shares => ∀ s ∈ shares, s.2.length < 256 ^ 2
    | _ => True

instance (e : Extension) : Decidable e.Fits := by
  unfold Fits
  cases e <;> infer_instance

end Extension

structure ClientHello where
  recordVersion : UInt16
  version : UInt16
  random : Bytes
  sessionId : Bytes
  cipherSuites : List UInt16
  compression : Bytes
  extensions : List Extension

namespace ClientHello

variable (h : ClientHello)

def body : Bytes :=
  u16 h.version ++ h.random ++ vec 1 h.sessionId ++ vec 2 (h.cipherSuites.flatMap u16) ++
    vec 1 h.compression ++ vec 2 (h.extensions.flatMap Extension.text)

def handshake : Bytes := 1 :: vec 3 h.body

def record : Bytes := 22 :: (u16 h.recordVersion ++ vec 2 h.handshake)

structure Fits : Prop where
  random : h.random.length = 32
  sessionId : h.sessionId.length ≤ 32
  compression : h.compression.length < 256
  extensions : ∀ e ∈ h.extensions, e.Fits
  handshake : h.handshake.length < 256 ^ 2

def serverNames : List (List (UInt8 × Bytes)) :=
  h.extensions.filterMap fun
    | .serverName names => some names
    | _ => none

theorem length_handshake : h.handshake.length = 4 + h.body.length := by
  simp only [handshake, vec, bigEndian, List.length_cons, List.length_append, List.length_nil]
  omega

theorem record_length (hf : h.Fits) :
    h.record.length =
      5 + ((h.record.getD 3 0).toNat * 256 + (h.record.getD 4 0).toNat) := by
  have hlen := hf.handshake
  have h₃ : h.record.getD 3 0 = .ofNat (h.handshake.length / 256 ^ 1) := rfl
  have h₄ : h.record.getD 4 0 = .ofNat (h.handshake.length / 256 ^ 0) := rfl
  rw [h₃, h₄]
  simp only [record, u16, vec, bigEndian, List.length_cons, List.length_append, List.length_nil,
    UInt8.toNat_ofNat']
  omega

end ClientHello

end ByeByeVpn.Tls
