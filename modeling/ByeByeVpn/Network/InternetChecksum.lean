import ByeByeVpn.Network.SynFrame
import Mathlib.Algebra.Group.Nat.Defs

/-!
# The Internet checksum

`checksum16` adds the words of a buffer to 32 bits and folds the carries at the
end. In a buffer that the 32 bits have room for, this is the ones-complement
sum of the words.
-/

namespace ByeByeVpn

open OnesComplement

def foldCarry (sum : Nat) : Nat := (sum &&& 0xFFFF) + sum >>> 16

theorem foldCarry_eq (s : Nat) : foldCarry s = s % 65536 + s / 65536 := by
  rw [foldCarry, Nat.and_two_pow_sub_one_eq_mod s 16, Nat.shiftRight_eq_div_pow]

theorem carry_eq_zero_iff {s : Nat} : s >>> 16 = 0 ↔ s < 65536 := by
  rw [Nat.shiftRight_eq_div_pow]
  omega

theorem foldCarries_of_lt {s : Nat} (h : s < 65536) : foldCarries s = s := by
  rw [foldCarries, if_pos (carry_eq_zero_iff.mpr h)]

theorem foldCarries_of_le {s : Nat} (h : 65536 ≤ s) :
    foldCarries s = foldCarries (foldCarry s) := by
  rw [foldCarries, if_neg (carry_eq_zero_iff.not.mpr (Nat.not_lt.mpr h)), foldCarry]

/-- Two turns are enough for 32 bits. -/
theorem foldCarries_iterate {s : Nat} (h : s < 2 ^ 32) :
    ∃ n ≤ 2, foldCarry^[n] s >>> 16 = 0 ∧ foldCarries s = foldCarry^[n] s := by
  by_cases h₀ : s < 65536
  · exact ⟨0, by omega, carry_eq_zero_iff.mpr h₀, foldCarries_of_lt h₀⟩
  · have h₁ := foldCarries_of_le (Nat.le_of_not_lt h₀)
    have e₁ := foldCarry_eq s
    by_cases h₂ : foldCarry s < 65536
    · exact ⟨1, by omega, carry_eq_zero_iff.mpr h₂, h₁.trans (foldCarries_of_lt h₂)⟩
    · have e₂ := foldCarry_eq (foldCarry s)
      have h₃ : foldCarry (foldCarry s) < 65536 := by omega
      refine ⟨2, le_rfl, carry_eq_zero_iff.mpr h₃, h₁.trans ?_⟩
      exact (foldCarries_of_le (Nat.le_of_not_lt h₂)).trans (foldCarries_of_lt h₃)

theorem words_fit {data : Bytes} (h : data.length ≤ 131074) :
    65535 * (words data).length < 2 ^ 32 := by
  rw [length_words]
  omega

theorem sumWords_words {data : Bytes} (h : data.length ≤ 131074) :
    sumWords 0 data = (words data).sum := by
  rw [sumWords_eq data 0 (by rw [Nat.zero_add]; exact words_fit h), Nat.zero_add]

theorem foldCarries_sumWords {data : Bytes} (h : data.length ≤ 131074) :
    foldCarries (sumWords 0 data) = OnesComplement.sum (words data) := by
  rw [sumWords_words h]
  obtain ⟨hm, hl, hp⟩ := foldCarries_spec (words data).sum
  refine (sum_unique (words_le data) hm hl ⟨fun hpos => ?_, hp⟩).symm
  by_contra hzero
  rw [Nat.eq_zero_of_not_pos hzero, foldCarries_of_lt (by decide)] at hpos
  exact absurd hpos (by decide)

theorem toNat_checksum16 {data : Bytes} (h : data.length ≤ 131074) :
    (checksum16 data).toNat = 65535 - OnesComplement.sum (words data) := by
  obtain ⟨-, hl, -⟩ := foldCarries_spec (sumWords 0 data)
  rw [checksum16, UInt16.toNat_ofNat', ← foldCarries_sumWords h]
  omega

theorem words_checksum (c : UInt16) : words [(c >>> 8).toUInt8, c.toUInt8] = [c.toNat] := by
  have hc := c.toNat_lt
  simp [words]
  omega

theorem checksum16_append {data : Bytes} (heven : data.length % 2 = 0)
    (h : data.length ≤ 131072) :
    checksum16 (data ++ [(checksum16 data >>> 8).toUInt8, (checksum16 data).toUInt8]) = 0 := by
  have hc := toNat_checksum16 (Nat.le_add_right_of_le h : data.length ≤ 131072 + 2)
  obtain ⟨hm, hl, hu, hp⟩ := foldl_add (words data) (words_le data) 0 (by decide)
  rw [Nat.zero_add] at hm hu hp
  have hdvd := dvd_complement hm hl
  rw [← OnesComplement.sum, ← hc] at hdvd
  have hlen : (data ++ [(checksum16 data >>> 8).toUInt8,
      (checksum16 data).toUInt8]).length ≤ 131074 := by
    rw [List.length_append, List.length_cons, List.length_singleton]
    omega
  have hfull : OnesComplement.sum (words (data ++ [(checksum16 data >>> 8).toUInt8,
      (checksum16 data).toUInt8])) = 0xFFFF := by
    rw [sum_eq_iff (words_le _), words_append heven, words_checksum, List.sum_append,
      List.sum_singleton]
    refine ⟨?_, hdvd⟩
    rw [hc]
    rw [← OnesComplement.sum] at hu hl
    omega
  rw [← UInt16.toNat_inj, toNat_checksum16 hlen, hfull]
  rfl

/-- `checksum16` is the complement of the ones-complement sum of the words. No
addition overflows, and with its checksum a buffer has the checksum 0. -/
theorem checksum16_internet (data : Bytes) (h : data.length ≤ 131074) :
    ((∀ n, ((words data).take n).sum < 2 ^ 32) ∧ sumWords 0 data = (words data).sum) ∧
    (∃ n ≤ 2, foldCarry^[n] (sumWords 0 data) >>> 16 = 0 ∧
      foldCarries (sumWords 0 data) = foldCarry^[n] (sumWords 0 data)) ∧
    (checksum16 data).toNat = 65535 - OnesComplement.sum (words data) ∧
    (data.length % 2 = 0 → data.length ≤ 131072 →
      checksum16 (data ++ [(checksum16 data >>> 8).toUInt8, (checksum16 data).toUInt8]) = 0) := by
  have hfit := words_fit h
  have hsum := sumWords_words h
  have hpart (n : Nat) : ((words data).take n).sum < 2 ^ 32 := by
    have hle := sum_le_length fun w hw => words_le data w (List.mem_of_mem_take (i := n) hw)
    have hlen := List.length_take_le' n (words data)
    omega
  have htotal : sumWords 0 data < 2 ^ 32 := by
    rw [hsum]
    exact lt_of_le_of_lt (sum_le_length (words_le data)) hfit
  exact ⟨⟨hpart, hsum⟩, foldCarries_iterate htotal, toNat_checksum16 h,
    fun heven hshort => checksum16_append heven hshort⟩

/-- Two words and an odd byte. The carry of their sum gives one more carry. -/
def carrying : Bytes := [0xff, 0xff, 0x01, 0x00, 0xff]

/-- A zero byte behind it changes no word, and the six bytes verify with their
checksum. -/
theorem checksum16_internet_carrying :
    sumWords 0 carrying = 0x1FFFF ∧
    (∃ n ≤ 2, foldCarry^[n] 0x1FFFF >>> 16 = 0 ∧ foldCarries 0x1FFFF = foldCarry^[n] 0x1FFFF) ∧
    checksum16 carrying = 0xFFFE ∧ checksum16 (carrying ++ [0x00]) = 0xFFFE ∧
    checksum16 (carrying ++ [0x00] ++ [0xFF, 0xFE]) = 0 := by
  have htotal : sumWords 0 carrying = 0x1FFFF := by decide
  obtain ⟨-, hfold, hodd, -⟩ := checksum16_internet carrying (by decide)
  obtain ⟨-, -, heven, hverify⟩ := checksum16_internet (carrying ++ [0x00]) (by decide)
  rw [htotal] at hfold
  have hsix : checksum16 (carrying ++ [0x00]) = 0xFFFE :=
    UInt16.toNat_inj.mp (heven.trans (by decide))
  refine ⟨htotal, hfold, UInt16.toNat_inj.mp (hodd.trans (by decide)), hsix, ?_⟩
  have hzero := hverify (by decide) (by decide)
  rw [hsix] at hzero
  exact hzero

end ByeByeVpn
