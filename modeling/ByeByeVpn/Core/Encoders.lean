import ByeByeVpn.Core.Utils
import ByeByeVpn.Lib.HexText

/-!
# Encoders (`core/utils.cpp`)

`hex_s` prints digests and the first bytes of a reply, and `url_encode` puts a
text into the query of a URL. Both can be read back.
-/

namespace ByeByeVpn

open HexText

def isalnum (c : UInt8) : Bool :=
  isdigit c || (chr 'a' ≤ c && c ≤ chr 'z') || (chr 'A' ≤ c && c ≤ chr 'Z')

def isUrlPlain (c : UInt8) : Bool :=
  isalnum c || c == chr '-' || c == chr '_' || c == chr '.' || c == chr '~'

def hexDigitUpper (n : UInt8) : UInt8 := (ascii "0123456789ABCDEF").getD n.toNat 0

def urlEncode (s : Bytes) : Bytes :=
  s.flatMap fun c =>
    if isUrlPlain c then [c]
    else [chr '%', hexDigitUpper ((c >>> 4) &&& 0x0F), hexDigitUpper (c &&& 0x0F)]

-- ---------------------------------------------------------------------------
-- Digits
-- ---------------------------------------------------------------------------

theorem toNat_high (c : UInt8) : ((c >>> 4) &&& 0xF).toNat = c.toNat / 16 := by
  have hc := c.toNat_lt
  rw [UInt8.toNat_and, UInt8.toNat_shiftRight, show (0xF : UInt8).toNat = 2 ^ 4 - 1 from rfl,
    Nat.and_two_pow_sub_one_eq_mod, show (4 : UInt8).toNat % 8 = 4 from rfl,
    Nat.shiftRight_eq_div_pow]
  omega

theorem toNat_low (c : UInt8) : (c &&& 0xF).toNat = c.toNat % 16 := by
  rw [UInt8.toNat_and, show (0xF : UInt8).toNat = 2 ^ 4 - 1 from rfl,
    Nat.and_two_pow_sub_one_eq_mod]

/-- An alphabet with the right values writes every byte as its two digits. -/
theorem octet_digits {digit : UInt8 → UInt8}
    (hdigit : ∀ n : UInt8, n.toNat < 16 → digitVal (digit n) = n.toNat) (c : UInt8) :
    octet (digit ((c >>> 4) &&& 0xF)) (digit (c &&& 0xF)) = some c := by
  have hc := c.toNat_lt
  have hhigh := toNat_high c
  have hlow := toNat_low c
  refine octet_of_digits ?_ ?_
  · rw [hdigit _ (by omega), hhigh]
  · rw [hdigit _ (by omega), hlow]

theorem digitVal_hexDigit (n : UInt8) (h : n.toNat < 16) : digitVal (hexDigit n) = n.toNat := by
  have hall : ∀ k < 16, digitVal ((ascii "0123456789abcdef").getD k 0) = k := by decide
  exact hall n.toNat h

theorem digitVal_hexDigitUpper (n : UInt8) (h : n.toNat < 16) :
    digitVal (hexDigitUpper n) = n.toNat := by
  have hall : ∀ k < 16, digitVal ((ascii "0123456789ABCDEF").getD k 0) = k := by decide
  exact hall n.toNat h

theorem ne_of_digitVal {c d : UInt8} (h : digitVal c < 16) (hd : digitVal d = 36) : c ≠ d := by
  rintro rfl
  omega

-- ---------------------------------------------------------------------------
-- Reading back
-- ---------------------------------------------------------------------------

variable {spaces : Bool} {c : UInt8} {s t : Bytes}

theorem filter_hexS (spaces : Bool) (c : UInt8) (s : Bytes) :
    (hexS spaces (c :: s)).filter (· != chr ' ') =
      hexDigit ((c >>> 4) &&& 0xF) :: hexDigit (c &&& 0xF) ::
        (hexS spaces s).filter (· != chr ' ') := by
  have hspace : digitVal (chr ' ') = 36 := by decide
  have hc := c.toNat_lt
  have hhigh := toNat_high c
  have hlow := toNat_low c
  have hne (n : UInt8) (hn : n.toNat < 16) : (hexDigit n != chr ' ') = true := by
    have := digitVal_hexDigit n hn
    exact bne_iff_ne.mpr (ne_of_digitVal (by omega) hspace)
  have hgap : (if spaces && !s.isEmpty then ascii " " else []).filter (· != chr ' ') = [] := by
    split <;> decide
  have hhi := hne ((c >>> 4) &&& 0xF) (by omega)
  have hlo := hne (c &&& 0xF) (by omega)
  rw [hexS, List.filter_cons_of_pos (by exact hhi), List.filter_cons_of_pos (by exact hlo),
    List.filter_append, hgap, List.nil_append]

theorem read_hexS (spaces : Bool) (s : Bytes) :
    read ((hexS spaces s).filter (· != chr ' ')) = some s := by
  induction s with
  | nil => rfl
  | cons c s ih =>
    rw [filter_hexS, read_pair (octet_digits digitVal_hexDigit c), ih]
    rfl

theorem length_hexS (spaces : Bool) (s : Bytes) :
    (hexS spaces s).length = if spaces then 3 * s.length - 1 else 2 * s.length := by
  induction s with
  | nil => cases spaces <;> rfl
  | cons c s ih =>
    rw [hexS]
    cases spaces with
    | false => simp [ih]; omega
    | true =>
      cases s with
      | nil => rfl
      | cons d s => simp [ih, ascii]; omega

theorem percentDecode_urlEncode (s : Bytes) : percentDecode (urlEncode s) = some s := by
  have hpercent : isUrlPlain (chr '%') = false := by decide
  induction s with
  | nil => rfl
  | cons c s ih =>
    rw [urlEncode, List.flatMap_cons, ← urlEncode]
    split
    · next hc =>
      have hne : c ≠ chr '%' := by
        rintro rfl
        rw [hpercent] at hc
        cases hc
      rw [List.singleton_append, percentDecode_plain hne, ih]
      rfl
    · rw [List.cons_append, List.cons_append, List.singleton_append,
        percentDecode_pair (octet_digits digitVal_hexDigitUpper c), ih]
      rfl

theorem mem_urlEncode (hc : c ∈ urlEncode s) : isUrlPlain c = true ∨ c = chr '%' := by
  have hupper : (ascii "0123456789ABCDEF").all isUrlPlain = true := by decide
  have hdigit (n : UInt8) (hn : n.toNat < 16) : isUrlPlain (hexDigitUpper n) = true := by
    have hlt : n.toNat < (ascii "0123456789ABCDEF").length := hn
    refine List.all_eq_true.mp hupper _ ?_
    rw [hexDigitUpper, List.getD_eq_getElem?_getD, List.getElem?_eq_getElem hlt, Option.getD_some]
    exact List.getElem_mem hlt
  obtain ⟨d, -, hd⟩ := List.mem_flatMap.mp hc
  have hlt := d.toNat_lt
  have hhigh := toNat_high d
  have hlow := toNat_low d
  split at hd
  · next hplain =>
    rw [List.mem_singleton.mp hd]
    exact .inl hplain
  · simp only [List.mem_cons, List.not_mem_nil, or_false] at hd
    rcases hd with rfl | rfl | rfl
    · exact .inr rfl
    · exact .inl (hdigit _ (by omega))
    · exact .inl (hdigit _ (by omega))

theorem lt_of_isUrlPlain (h : isUrlPlain c = true) : 44 < c.toNat := by
  by_contra hle
  have hne (d : UInt8) (hd : 44 < d.toNat) : c ≠ d := by
    rintro rfl
    exact hle hd
  have hlow (d : UInt8) (hd : 44 < d.toNat) : ¬d ≤ c := fun hc =>
    hle (hd.trans_le (UInt8.le_iff_toNat_le.mp hc))
  have h0 := hlow (chr '0') (by decide)
  have ha := hlow (chr 'a') (by decide)
  have hA := hlow (chr 'A') (by decide)
  simp [isUrlPlain, isalnum, isdigit, h0, ha, hA, hne _ (by decide : 44 < (chr '-').toNat),
    hne _ (by decide : 44 < (chr '_').toNat), hne _ (by decide : 44 < (chr '.').toNat),
    hne _ (by decide : 44 < (chr '~').toNat)] at h

/-- The encoders lose nothing. -/
theorem encoders_lossless (spaces : Bool) (s t : Bytes) :
    read ((hexS spaces s).filter (· != chr ' ')) = some s ∧
      (hexS spaces s = hexS spaces t ↔ s = t) ∧
      (hexS spaces s).length = (if spaces then 3 * s.length - 1 else 2 * s.length) ∧
      percentDecode (urlEncode s) = some s ∧
      (∀ c ∈ urlEncode s, isUrlPlain c = true ∨ c = chr '%') ∧
      (urlEncode s = urlEncode t ↔ s = t) := by
  refine ⟨read_hexS spaces s, ⟨fun h => ?_, fun h => congrArg _ h⟩, length_hexS spaces s,
    percentDecode_urlEncode s, fun c => mem_urlEncode, ⟨fun h => ?_, fun h => congrArg _ h⟩⟩
  · have hs := read_hexS spaces s
    rw [h, read_hexS] at hs
    exact (Option.some.inj hs).symm
  · have hs := percentDecode_urlEncode s
    rw [h, percentDecode_urlEncode] at hs
    exact (Option.some.inj hs).symm

end ByeByeVpn
