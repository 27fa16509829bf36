import ByeByeVpn.Lib.Bytes
import Mathlib.Data.Nat.ModEq
import Mathlib.Tactic.Ring

/-!
# Ones-complement sums

The sum of 16-bit words with end-around carry is the sum modulo 65535, with
65535 standing for the multiples that are not zero. Hence what matters about
a checksum is its class, and swapping its bytes multiplies that class by 256.
-/

namespace ByeByeVpn.OnesComplement

/-- Addition with end-around carry. -/
def add (a b : Nat) : Nat := (a + b) % 0x10000 + (a + b) / 0x10000

def sum (ws : List Nat) : Nat := ws.foldl add 0

/-- The big-endian words of a byte string; an odd byte is padded with zero. -/
def words : Bytes → List Nat
  | hi :: lo :: b => (hi.toNat * 256 + lo.toNat) :: words b
  | [hi] => [hi.toNat * 256]
  | [] => []

def swap (c : Nat) : Nat := c % 256 * 256 + c / 256

theorem add_modEq (a b : Nat) : add a b ≡ a + b [MOD 65535] := by
  unfold add
  have h : a + b = (a + b) % 0x10000 + (a + b) / 0x10000 + 65535 * ((a + b) / 0x10000) := by omega
  conv_rhs => rw [h]
  exact (Nat.modEq_iff_dvd' (by omega)).mpr ⟨(a + b) / 0x10000, by omega⟩

theorem add_le {a b : Nat} (ha : a ≤ 65535) (hb : b ≤ 65535) : add a b ≤ 65535 := by
  unfold add
  omega

theorem add_le_add (a b : Nat) : add a b ≤ a + b := by
  unfold add
  omega

theorem add_pos {a b : Nat} (h : 0 < a + b) : 0 < add a b := by
  unfold add
  omega

theorem foldl_add (ws : List Nat) (hw : ∀ w ∈ ws, w ≤ 65535) (a : Nat) (ha : a ≤ 65535) :
    ws.foldl add a ≡ a + ws.sum [MOD 65535] ∧ ws.foldl add a ≤ 65535 ∧
      ws.foldl add a ≤ a + ws.sum ∧ (0 < a + ws.sum → 0 < ws.foldl add a) := by
  induction ws generalizing a with
  | nil => exact ⟨.refl _, ha, le_rfl, fun h => h⟩
  | cons w ws ih =>
    obtain ⟨hm, hl, hu, hp⟩ := ih (fun x hx => hw x (by simp [hx])) (add a w)
      (add_le ha (hw w (by simp)))
    refine ⟨hm.trans ?_, hl, hu.trans ?_, fun h => hp ?_⟩
    · rw [List.sum_cons, ← Nat.add_assoc]
      exact (add_modEq a w).add_right _
    · rw [List.sum_cons, ← Nat.add_assoc]
      exact Nat.add_le_add_right (add_le_add a w) _
    · rw [List.sum_cons] at h
      rcases Nat.eq_zero_or_pos (a + w) with h0 | h0
      · omega
      · have := add_pos h0
        omega

theorem sum_eq_iff {ws : List Nat} (hw : ∀ w ∈ ws, w ≤ 65535) :
    sum ws = 0xFFFF ↔ 0 < ws.sum ∧ 65535 ∣ ws.sum := by
  obtain ⟨hm, hl, hu, hp⟩ := foldl_add ws hw 0 (by decide)
  rw [Nat.zero_add] at hm hu hp
  rw [sum]
  constructor
  · intro h
    rw [h] at hm hu
    exact ⟨by omega, Nat.modEq_zero_iff_dvd.mp hm.symm⟩
  · rintro ⟨h0, hd⟩
    have hz := hm.trans (Nat.modEq_zero_iff_dvd.mpr hd)
    have hpos := hp h0
    obtain ⟨k, hk⟩ := Nat.modEq_zero_iff_dvd.mp hz
    omega

theorem words_le (b : Bytes) : ∀ w ∈ words b, w ≤ 65535 := by
  fun_induction words b with
  | case1 hi lo b ih =>
    have h₁ := hi.toNat_lt
    have h₂ := lo.toNat_lt
    exact List.forall_mem_cons.mpr ⟨by omega, ih⟩
  | case2 hi =>
    have := hi.toNat_lt
    simp
    omega
  | case3 => simp

/-- The sum is told by its class, and by whether there is anything to add. -/
theorem sum_unique {ws : List Nat} (hw : ∀ w ∈ ws, w ≤ 65535) {f : Nat}
    (hm : f ≡ ws.sum [MOD 65535]) (hl : f ≤ 65535) (hp : 0 < f ↔ 0 < ws.sum) : sum ws = f := by
  obtain ⟨hm', hl', hu', hp'⟩ := foldl_add ws hw 0 (by decide)
  rw [Nat.zero_add] at hm' hu' hp'
  have hmod : sum ws % 65535 = f % 65535 := hm'.trans hm.symm
  rw [← sum] at hl' hu' hp'
  omega

theorem length_words (b : Bytes) : (words b).length = (b.length + 1) / 2 := by
  fun_induction words b with
  | case1 hi lo b ih =>
    rw [List.length_cons, List.length_cons, List.length_cons, ih]
    omega
  | case2 hi => simp
  | case3 => simp

theorem words_append {a : Bytes} (h : a.length % 2 = 0) (b : Bytes) :
    words (a ++ b) = words a ++ words b := by
  fun_induction words a with
  | case1 hi lo a ih =>
    rw [List.length_cons, List.length_cons] at h
    rw [List.cons_append, List.cons_append, words, ih (by omega), List.cons_append]
  | case2 hi => simp at h
  | case3 => rfl

theorem sum_le_length {ws : List Nat} (hw : ∀ w ∈ ws, w ≤ 65535) : ws.sum ≤ 65535 * ws.length := by
  induction ws with
  | nil => simp
  | cons w ws ih =>
    have hw₁ := hw w (by simp)
    have hws := ih fun x hx => hw x (by simp [hx])
    rw [List.sum_cons, List.length_cons]
    omega

theorem swap_modEq (c : Nat) : swap c ≡ 256 * c [MOD 65535] := by
  have h : 256 * c = swap c + 65535 * (c / 256) := by
    unfold swap
    omega
  rw [h]
  exact (Nat.modEq_iff_dvd' (by omega)).mpr ⟨c / 256, by omega⟩

theorem dvd_complement {s f : Nat} (hf : f ≡ s [MOD 65535]) (hle : f ≤ 65535) :
    65535 ∣ s + (65535 - f) := by
  refine Nat.modEq_zero_iff_dvd.mp ((hf.symm.add_right _).trans ?_)
  rw [Nat.add_sub_cancel' hle]
  exact Nat.modEq_zero_iff_dvd.mpr (dvd_refl _)

/-- The complement of a sum, added to it with its bytes swapped: it cancels
the sum only modulo 255, so 257 must divide the sum. -/
theorem dvd_swapped_complement {s f : Nat} (hf : f ≡ s [MOD 65535]) (hle : f ≤ 65535) :
    65535 ∣ s + swap (65535 - f) ↔ 257 ∣ s := by
  obtain ⟨k, hk⟩ := dvd_complement hf hle
  have hm : s + swap (65535 - f) + 255 * s ≡ 0 [MOD 65535] := by
    have h := ((swap_modEq (65535 - f)).add_left s).add_right (255 * s)
    refine h.trans (Nat.modEq_zero_iff_dvd.mpr ⟨256 * k, ?_⟩)
    rw [← Nat.mul_assoc, Nat.mul_comm 65535 256, Nat.mul_assoc, ← hk]
    ring
  obtain ⟨m, hm⟩ := Nat.modEq_zero_iff_dvd.mp hm
  constructor
  · rintro ⟨a, ha⟩
    exact ⟨m - a, by omega⟩
  · rintro ⟨a, ha⟩
    exact ⟨m - a, by omega⟩

end ByeByeVpn.OnesComplement
