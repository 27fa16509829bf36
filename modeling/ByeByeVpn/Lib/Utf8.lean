import ByeByeVpn.Lib.Bytes

/-!
# Texts in UTF-8

The encoding of a character is Lean's own. A byte below 128 is a character by
itself, and the bytes of the other characters are all above.
-/

namespace ByeByeVpn.Utf8

def encode (cs : List Char) : Bytes := cs.flatMap String.utf8EncodeChar

def Valid (s : Bytes) : Prop := ∃ cs, s = encode cs

variable {c d : Char} {b : UInt8} {s t : Bytes}

@[simp] theorem encode_nil : encode [] = [] := rfl

@[simp] theorem encode_cons (c : Char) (cs : List Char) :
    encode (c :: cs) = String.utf8EncodeChar c ++ encode cs := rfl

theorem valid_encode (cs : List Char) : Valid (encode cs) := ⟨cs, rfl⟩

theorem encodeChar_of_lt (h : c.toNat < 128) : String.utf8EncodeChar c = [c.toUInt8] := by
  have hv : c.val.toNat ≤ 127 := Nat.le_of_lt_succ h
  rw [String.utf8EncodeChar]
  simp only [hv]
  rfl

theorem le_of_mem_encodeChar (h : 128 ≤ c.toNat) :
    ∀ b ∈ String.utf8EncodeChar c, 128 ≤ b.toNat := by
  have hv : ¬c.val.toNat ≤ 127 := Nat.not_le.mpr h
  rw [String.utf8EncodeChar]
  simp only [hv, if_false]
  intro b hb
  split at hb
  · simp only [List.mem_cons, List.not_mem_nil, or_false] at hb
    rcases hb with rfl | rfl <;> simp only [UInt8.toNat_ofNat'] <;> omega
  · split at hb
    · simp only [List.mem_cons, List.not_mem_nil, or_false] at hb
      rcases hb with rfl | rfl | rfl <;> simp only [UInt8.toNat_ofNat'] <;> omega
    · simp only [List.mem_cons, List.not_mem_nil, or_false] at hb
      rcases hb with rfl | rfl | rfl | rfl <;> simp only [UInt8.toNat_ofNat'] <;> omega

theorem toUInt8_toNat (h : c.toNat < 128) : c.toUInt8.toNat = c.toNat := by
  have hmod : c.toUInt8.toNat = c.toNat % 256 := rfl
  rw [hmod]
  omega

theorem toUInt8_inj (hc : c.toNat < 128) (hd : d.toNat < 128) (h : c.toUInt8 = d.toUInt8) :
    c = d := by
  have hn := congrArg UInt8.toNat h
  rw [toUInt8_toNat hc, toUInt8_toNat hd] at hn
  exact Char.ext (UInt32.toNat_inj.mp hn)

/-- Among the bytes of a character an ASCII byte stands only for itself. -/
theorem mem_encodeChar (hd : d.toNat < 128) :
    d.toUInt8 ∈ String.utf8EncodeChar c ↔ c = d := by
  constructor
  · intro h
    rcases Nat.lt_or_ge c.toNat 128 with hc | hc
    · rw [encodeChar_of_lt hc, List.mem_singleton] at h
      exact (toUInt8_inj hd hc h).symm
    · have hle := le_of_mem_encodeChar hc _ h
      rw [toUInt8_toNat hd] at hle
      omega
  · rintro rfl
    rw [encodeChar_of_lt hd]
    exact List.mem_singleton_self _

theorem Valid.tail (h : Valid (b :: t)) (hb : b.toNat < 128) : Valid t := by
  obtain ⟨cs, hcs⟩ := h
  cases cs with
  | nil => cases hcs
  | cons c cs =>
    rcases Nat.lt_or_ge c.toNat 128 with hc | hc
    · rw [encode_cons, encodeChar_of_lt hc] at hcs
      exact ⟨cs, (List.cons.inj hcs).2⟩
    · cases hchar : String.utf8EncodeChar c with
      | nil => exact absurd hchar String.utf8EncodeChar_ne_nil
      | cons x xs =>
        rw [encode_cons, hchar] at hcs
        have hle := le_of_mem_encodeChar hc b (by rw [hchar, (List.cons.inj hcs).1]; simp)
        omega

end ByeByeVpn.Utf8
