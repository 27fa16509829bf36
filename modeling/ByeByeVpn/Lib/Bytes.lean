import Mathlib.Data.Bool.AllAny
import Mathlib.Data.List.Infix

/-!
# Byte strings

A `std::string` is a list of bytes. The character classes are those of
`<cctype>` in the "C" locale, which is the locale of a program that never
calls `setlocale`.
-/

namespace ByeByeVpn

abbrev Bytes := List UInt8

def ascii (s : String) : Bytes := s.toList.map Char.toUInt8

abbrev chr (c : Char) : UInt8 := c.toUInt8

/-- Space, `\t`, `\n`, `\v`, `\f`, `\r`. -/
def isspace (c : UInt8) : Bool := c == 32 || (9 ≤ c && c ≤ 13)

def isdigit (c : UInt8) : Bool := chr '0' ≤ c && c ≤ chr '9'

def isxdigit (c : UInt8) : Bool :=
  isdigit c || (chr 'a' ≤ c && c ≤ chr 'f') || (chr 'A' ≤ c && c ≤ chr 'F')

def tolower (c : UInt8) : UInt8 := if chr 'A' ≤ c && c ≤ chr 'Z' then c + 32 else c

theorem isspace_of_lt {c : UInt8} (h : 32 < c.toNat) : isspace c = false := by
  simp only [isspace, Bool.or_eq_false_iff, beq_eq_false_iff_ne, Bool.and_eq_false_iff,
    decide_eq_false_iff_not, UInt8.le_iff_toNat_le, ne_eq, ← UInt8.toNat_inj]
  simp only [UInt8.reduceToNat]
  omega

theorem isspace_of_isdigit {c : UInt8} (h : isdigit c = true) : isspace c = false := by
  have h0 : (chr '0').toNat = 48 := rfl
  simp only [isdigit, Bool.and_eq_true, decide_eq_true_eq, UInt8.le_iff_toNat_le, h0] at h
  exact isspace_of_lt (by omega)

theorem tolower_eq_iff {c : UInt8} (hc : ¬(chr 'a' ≤ c ∧ c ≤ chr 'z')) (hC : tolower c = c)
    (x : UInt8) : tolower x = c ↔ x = c := by
  refine ⟨fun h => ?_, by rintro rfl; exact hC⟩
  unfold tolower at h
  split_ifs at h with hx
  · have ha : (chr 'a').toNat = 97 := rfl
    have hz : (chr 'z').toNat = 122 := rfl
    have hA : (chr 'A').toNat = 65 := rfl
    have hZ : (chr 'Z').toNat = 90 := rfl
    refine absurd ?_ hc
    subst h
    simp only [Bool.and_eq_true, decide_eq_true_eq, UInt8.le_iff_toNat_le, UInt8.toNat_add, ha, hz,
      hA, hZ, UInt8.reduceToNat] at hx ⊢
    omega
  · exact h

theorem drop_eq_cons {α : Type*} {l : List α} {i : Nat} {x : α} (h : l[i]? = some x) :
    l.drop i = x :: l.drop (i + 1) := by
  obtain ⟨hi, rfl⟩ := List.getElem?_eq_some_iff.mp h
  exact List.drop_eq_getElem_cons hi

section
variable {p : UInt8 → Bool} {s rest : Bytes}

/-- What is read while `p` holds ends where `p` fails. -/
theorem takeWhile_append_rest (hs : ∀ c ∈ s, p c = true)
    (hrest : ∀ c, rest.head? = some c → p c = false) : (s ++ rest).takeWhile p = s := by
  have hnil : rest.takeWhile p = [] := by
    cases rest with
    | nil => rfl
    | cons c rest => rw [List.takeWhile_cons, hrest c rfl, if_neg Bool.false_ne_true]
  rw [List.takeWhile_append_of_pos hs, hnil, List.append_nil]

theorem dropWhile_append_rest (hs : ∀ c ∈ s, p c = true)
    (hrest : ∀ c, rest.head? = some c → p c = false) : (s ++ rest).dropWhile p = rest := by
  rw [List.dropWhile_append_of_pos hs]
  cases rest with
  | nil => rfl
  | cons c rest => rw [List.dropWhile_cons, hrest c rfl, if_neg Bool.false_ne_true]

end

theorem split_unique {c : UInt8} {a a' b b' : Bytes} (ha : c ∉ a) (ha' : c ∉ a')
    (h : a ++ c :: b = a' ++ c :: b') : a = a' ∧ b = b' := by
  have hbefore {l : Bytes} (hl : c ∉ l) : ∀ d ∈ l, (d != c) = true :=
    fun d hd => bne_iff_ne.mpr fun h => hl (h ▸ hd)
  have htake := congrArg (List.takeWhile fun d => d != c) h
  rw [takeWhile_append_rest (hbefore ha) (by simp),
    takeWhile_append_rest (hbefore ha') (by simp)] at htake
  subst htake
  exact ⟨rfl, (List.cons.inj (List.append_cancel_left h)).2⟩

end ByeByeVpn
