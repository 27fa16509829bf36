import ByeByeVpn.Core.JsonLookup
import ByeByeVpn.Lib.Utf8

/-!
# The escapes of a string (`JSON::unescape`)

JSON has several ways to write a character. What is no escape of JSON is read
too: a lone surrogate as the replacement character, an unknown escape without
its backslash, a `\u` without four digits as a question mark, and a backslash
at the end as itself.
-/

namespace ByeByeVpn.JSON

open JsonText Utf8

/-- The ways to write a character. -/
inductive Spells : Char → Bytes → Prop
  | raw {c : Char} : c ≠ '\\' → Spells c (String.utf8EncodeChar c)
  | escape {c : Char} {e : UInt8} : (Item.escape e).Valid → (escaped e).toNat = c.toNat →
      Spells c (Item.escape e).text
  | unit {c : Char} {h₁ h₂ h₃ h₄ : UInt8} : (Item.unit h₁ h₂ h₃ h₄).Valid →
      codeUnit h₁ h₂ h₃ h₄ = c.toNat → Spells c (Item.unit h₁ h₂ h₃ h₄).text
  | pair {c : Char} {h₁ h₂ h₃ h₄ l₁ l₂ l₃ l₄ : UInt8} : (Item.unit h₁ h₂ h₃ h₄).Valid →
      (Item.unit l₁ l₂ l₃ l₄).Valid → IsHigh (codeUnit h₁ h₂ h₃ h₄) →
      IsLow (codeUnit l₁ l₂ l₃ l₄) →
      0x10000 + (codeUnit h₁ h₂ h₃ h₄ - 0xD800) * 0x400 + (codeUnit l₁ l₂ l₃ l₄ - 0xDC00) =
        c.toNat →
      Spells c ((Item.unit h₁ h₂ h₃ h₄).text ++ (Item.unit l₁ l₂ l₃ l₄).text)

def StartsLow (s : Bytes) : Prop :=
  ∃ l₁ l₂ l₃ l₄ t, (Item.unit l₁ l₂ l₃ l₄).Valid ∧ IsLow (codeUnit l₁ l₂ l₃ l₄) ∧
    s = (Item.unit l₁ l₂ l₃ l₄).text ++ t

def StartsHex (s : Bytes) : Prop :=
  ∃ h₁ h₂ h₃ h₄ t, (Item.unit h₁ h₂ h₃ h₄).Valid ∧ s = h₁ :: h₂ :: h₃ :: h₄ :: t

/-- The characters that a text stands for, escape by escape. -/
inductive Spelling : Bytes → List Char → Prop
  | nil : Spelling [] []
  | char {c : Char} {t s : Bytes} {cs : List Char} : Spells c t → Spelling s cs →
      Spelling (t ++ s) (c :: cs)
  | lone {h₁ h₂ h₃ h₄ : UInt8} {s : Bytes} {cs : List Char} : (Item.unit h₁ h₂ h₃ h₄).Valid →
      IsHigh (codeUnit h₁ h₂ h₃ h₄) ∧ ¬StartsLow s ∨ IsLow (codeUnit h₁ h₂ h₃ h₄) →
      Spelling s cs → Spelling ((Item.unit h₁ h₂ h₃ h₄).text ++ s) ('\uFFFD' :: cs)
  | unknown {c : Char} {s : Bytes} {cs : List Char} : c ∉ "\"\\/bfnrtu".toList → Spelling s cs →
      Spelling (chr '\\' :: (String.utf8EncodeChar c ++ s)) (c :: cs)
  | malformed {s : Bytes} {cs : List Char} : ¬StartsHex s → Spelling s cs →
      Spelling (chr '\\' :: chr 'u' :: s) ('?' :: cs)
  | trailing : Spelling [chr '\\'] ['\\']

-- ---------------------------------------------------------------------------
-- Digits
-- ---------------------------------------------------------------------------

theorem isxdigit_of_hexVal {c : UInt8} {d : Nat} (h : hexVal c = some d) : isxdigit c = true := by
  unfold hexVal at h
  unfold isxdigit isdigit
  split_ifs at h with h₁ h₂ h₃ <;> simp_all

theorem startsHex_of_parseU16 {s : Bytes} {u : Nat} (h : parseU16 s = some u) : StartsHex s := by
  unfold parseU16 at h
  split at h
  · next c₁ c₂ c₃ c₄ t =>
    obtain ⟨d₁, h₁, h⟩ := Option.bind_eq_some_iff.mp h
    obtain ⟨d₂, h₂, h⟩ := Option.bind_eq_some_iff.mp h
    obtain ⟨d₃, h₃, h⟩ := Option.bind_eq_some_iff.mp h
    obtain ⟨d₄, h₄, -⟩ := Option.bind_eq_some_iff.mp h
    exact ⟨c₁, c₂, c₃, c₄, t, ⟨isxdigit_of_hexVal h₁, isxdigit_of_hexVal h₂,
      isxdigit_of_hexVal h₃, isxdigit_of_hexVal h₄⟩, rfl⟩
  · cases h

theorem parseU16_eq_none {s : Bytes} (h : ¬StartsHex s) : parseU16 s = none := by
  cases hp : parseU16 s with
  | none => rfl
  | some u => exact absurd (startsHex_of_parseU16 hp) h

theorem lowSurrogate_of_not_startsLow {s : Bytes} (h : ¬StartsLow s) : lowSurrogate s = none := by
  unfold lowSurrogate
  split
  · next c₁ c₂ t =>
    split
    · next hc =>
      obtain ⟨rfl, rfl⟩ := hc
      cases hp : parseU16 t with
      | none => rfl
      | some u =>
        obtain ⟨l₁, l₂, l₃, l₄, t', hv, rfl⟩ := startsHex_of_parseU16 hp
        have hlow : ¬IsLow (codeUnit l₁ l₂ l₃ l₄) := by
          intro hl
          exact h ⟨l₁, l₂, l₃, l₄, t', hv, hl, rfl⟩
        obtain rfl := Option.some.inj ((parseU16_eq hv t').symm.trans hp)
        simp [Option.filter, hlow]
    · rfl
  · rfl

-- ---------------------------------------------------------------------------
-- What is read
-- ---------------------------------------------------------------------------

theorem utf8_toNat (c : Char) : utf8 c.toNat = String.utf8EncodeChar c := by
  rw [utf8, Char.ofNat_toNat]

theorem unescape_append {a : Bytes} (h : chr '\\' ∉ a) (t : Bytes) :
    unescape (a ++ t) = a ++ unescape t := by
  induction a with
  | nil => rfl
  | cons c a ih =>
    obtain ⟨hc, ha⟩ := not_or.mp (List.mem_cons.not.mp h)
    rw [List.cons_append, unescape_raw (Ne.symm hc), ih ha]
    rfl

theorem unescape_char {c : Char} (h : c ≠ '\\') (t : Bytes) :
    unescape (String.utf8EncodeChar c ++ t) = String.utf8EncodeChar c ++ unescape t :=
  unescape_append (fun hm => h ((mem_encodeChar (by decide)).mp hm)) t

theorem escaped_lt {e : UInt8} (h : (Item.escape e).Valid) :
    (escaped e).toNat < 128 ∧ e ≠ chr 'u' := by
  have hall : ∀ e ∈ ascii "\"\\/bfnrt", (escaped e).toNat < 128 ∧ e ≠ chr 'u' :=
    List.all_iff_forall_prop.mp (by decide)
  exact hall e h

theorem not_surrogate (c : Char) : ¬IsHigh c.toNat ∧ ¬IsLow c.toNat := by
  have hc : c.toNat < 0xD800 ∨ 0xDFFF < c.toNat ∧ c.toNat < 0x110000 := c.valid
  omega

theorem unescape_spells {c : Char} {t : Bytes} (h : Spells c t) (s : Bytes) :
    unescape (t ++ s) = String.utf8EncodeChar c ++ unescape s := by
  cases h with
  | raw hc => exact unescape_char hc s
  | escape he hc =>
    obtain ⟨hlt, hu⟩ := escaped_lt he
    rw [hc] at hlt
    rw [Item.text, List.cons_append, List.singleton_append, unescape_escape hu,
      encodeChar_of_lt hlt, ← UInt8.toNat_inj.mp (hc.trans (toUInt8_toNat hlt).symm)]
    rfl
  | unit hv hc =>
    rw [unescape_unit hv, hc, if_neg (not_surrogate c).1, utf8Unit,
      if_neg (not_or.mpr (not_surrogate c)), utf8_toNat]
  | pair hv hv' hu hl hc =>
    rw [List.append_assoc, unescape_unit hv, if_pos hu, lowSurrogate_unit hv', if_pos hl]
    dsimp only
    rw [appendUtf8_pair hu hl, hc, utf8_toNat]
    rfl

theorem unescape_lone {h₁ h₂ h₃ h₄ : UInt8} {s : Bytes} (hv : (Item.unit h₁ h₂ h₃ h₄).Valid)
    (hu : IsHigh (codeUnit h₁ h₂ h₃ h₄) ∧ ¬StartsLow s ∨ IsLow (codeUnit h₁ h₂ h₃ h₄)) :
    unescape ((Item.unit h₁ h₂ h₃ h₄).text ++ s) =
      String.utf8EncodeChar '\uFFFD' ++ unescape s := by
  have hnone : (if IsHigh (codeUnit h₁ h₂ h₃ h₄) then lowSurrogate s else none) = none := by
    rcases hu with ⟨-, hs⟩ | hl
    · rw [lowSurrogate_of_not_startsLow hs, ite_self]
    · rw [if_neg (by omega)]
  rw [unescape_unit hv, hnone]
  dsimp only
  rw [utf8Unit, if_pos (hu.imp And.left id)]
  rfl

theorem unescape_unknown {c : Char} (h : c ∉ "\"\\/bfnrtu".toList) (s : Bytes) :
    unescape (chr '\\' :: (String.utf8EncodeChar c ++ s)) =
      String.utf8EncodeChar c ++ unescape s := by
  have hne : ∀ d ∈ "\"\\/bfnrtu".toList, chr d ∉ String.utf8EncodeChar c := by
    intro d hd hm
    have hlt : ∀ d ∈ "\"\\/bfnrtu".toList, d.toNat < 128 :=
      List.all_iff_forall_prop.mp (by decide)
    exact h ((mem_encodeChar (hlt d hd)).mp hm ▸ hd)
  cases hchar : String.utf8EncodeChar c with
  | nil => exact absurd hchar String.utf8EncodeChar_ne_nil
  | cons e t =>
    rw [hchar] at hne
    have he : ∀ d ∈ "\"\\/bfnrtu".toList, e ≠ chr d :=
      fun d hd he => hne d hd (he ▸ List.mem_cons_self)
    have hbyte : unescapeChar e = e := by
      rw [unescapeChar, if_neg (he 'b' (by decide)), if_neg (he 'f' (by decide)),
        if_neg (he 'n' (by decide)), if_neg (he 'r' (by decide)), if_neg (he 't' (by decide))]
    rw [List.cons_append, unescape_escape (he 'u' (by decide)), hbyte, unescape_append]
    · rfl
    · exact fun hm => hne '\\' (by decide) (List.mem_cons_of_mem _ hm)

theorem unescape_malformed {s : Bytes} (h : ¬StartsHex s) :
    unescape (chr '\\' :: chr 'u' :: s) = chr '?' :: unescape s := by
  rw [unescape, if_neg (by decide), if_neg (by decide), parseU16_eq_none h]

theorem unescape_spelling {s : Bytes} {cs : List Char} (h : Spelling s cs) :
    unescape s = encode cs := by
  induction h with
  | nil => simp [unescape]
  | char hc _ ih => rw [unescape_spells hc, ih, encode_cons]
  | lone hv hu _ ih => rw [unescape_lone hv hu, ih, encode_cons]
  | unknown hc _ ih => rw [unescape_unknown hc, ih, encode_cons]
  | malformed hs _ ih =>
    rw [unescape_malformed hs, ih, encode_cons]
    rfl
  | trailing =>
    rw [unescape]
    rfl

-- ---------------------------------------------------------------------------
-- Every text in UTF-8 is spelled somehow
-- ---------------------------------------------------------------------------

theorem lt_of_isxdigit {c : UInt8} (h : isxdigit c = true) : c.toNat < 128 := by
  have h9 : (chr '9').toNat = 57 := rfl
  have hF : (chr 'F').toNat = 70 := rfl
  have hf : (chr 'f').toNat = 102 := rfl
  simp only [isxdigit, isdigit, Bool.or_eq_true, Bool.and_eq_true, decide_eq_true_eq,
    UInt8.le_iff_toNat_le, h9, hF, hf] at h
  omega

theorem valid_of_digits {h₁ h₂ h₃ h₄ : UInt8} {t : Bytes} (hv : (Item.unit h₁ h₂ h₃ h₄).Valid)
    (h : Utf8.Valid (h₁ :: h₂ :: h₃ :: h₄ :: t)) : Utf8.Valid t := by
  obtain ⟨v₁, v₂, v₃, v₄⟩ := hv
  exact (((h.tail (lt_of_isxdigit v₁)).tail (lt_of_isxdigit v₂)).tail (lt_of_isxdigit v₃)).tail
    (lt_of_isxdigit v₄)

theorem spells_unit {h₁ h₂ h₃ h₄ : UInt8} (hv : (Item.unit h₁ h₂ h₃ h₄).Valid)
    (hu : ¬(IsHigh (codeUnit h₁ h₂ h₃ h₄) ∨ IsLow (codeUnit h₁ h₂ h₃ h₄))) :
    Spells (Char.ofNat (codeUnit h₁ h₂ h₃ h₄)) (Item.unit h₁ h₂ h₃ h₄).text := by
  have hlt := codeUnit_lt hv
  exact .unit hv (toNat_ofNat (by simp only [Nat.isValidChar]; omega)).symm

theorem spells_pair {h₁ h₂ h₃ h₄ l₁ l₂ l₃ l₄ : UInt8} (hv : (Item.unit h₁ h₂ h₃ h₄).Valid)
    (hv' : (Item.unit l₁ l₂ l₃ l₄).Valid) (hu : IsHigh (codeUnit h₁ h₂ h₃ h₄))
    (hl : IsLow (codeUnit l₁ l₂ l₃ l₄)) :
    ∃ c, Spells c ((Item.unit h₁ h₂ h₃ h₄).text ++ (Item.unit l₁ l₂ l₃ l₄).text) :=
  ⟨_, .pair hv hv' hu hl (toNat_ofNat (by simp only [Nat.isValidChar]; omega)).symm⟩

theorem spells_escape {c : Char} (h : c ∈ "\"\\/bfnrt".toList) :
    ∃ d, Spells d (chr '\\' :: String.utf8EncodeChar c) := by
  have hc : ∀ c ∈ "\"\\/bfnrt".toList, c.toNat < 128 ∧ c.toUInt8 ∈ ascii "\"\\/bfnrt" ∧
      (escaped c.toUInt8).toNat = (Char.ofNat (escaped c.toUInt8).toNat).toNat :=
    List.all_iff_forall_prop.mp (by decide)
  obtain ⟨hlt, hv, hd⟩ := hc c h
  rw [encodeChar_of_lt hlt]
  exact ⟨_, .escape hv hd⟩

theorem exists_spelling_unit {h₁ h₂ h₃ h₄ : UInt8} {t : Bytes}
    (hv : (Item.unit h₁ h₂ h₃ h₄).Valid) (ht : Utf8.Valid t)
    (ih : ∀ s : Bytes, s.length ≤ t.length → Utf8.Valid s → ∃ cs, Spelling s cs) :
    ∃ cs, Spelling ((Item.unit h₁ h₂ h₃ h₄).text ++ t) cs := by
  obtain ⟨cs, hcs⟩ := ih t (Nat.le_refl _) ht
  by_cases hu : IsHigh (codeUnit h₁ h₂ h₃ h₄) ∨ IsLow (codeUnit h₁ h₂ h₃ h₄)
  · by_cases hp : IsHigh (codeUnit h₁ h₂ h₃ h₄) ∧ StartsLow t
    · obtain ⟨hhigh, l₁, l₂, l₃, l₄, t', hv', hlow, rfl⟩ := hp
      obtain ⟨c, hc⟩ := spells_pair hv hv' hhigh hlow
      have ht' : Utf8.Valid t' := valid_of_digits hv' ((ht.tail (by decide)).tail (by decide))
      obtain ⟨cs', hcs'⟩ := ih t' (by rw [List.length_append]; omega) ht'
      rw [← List.append_assoc]
      exact ⟨_, .char hc hcs'⟩
    · exact ⟨_, .lone hv (hu.imp_left fun hh => ⟨hh, fun hs => hp ⟨hh, hs⟩⟩) hcs⟩
  · exact ⟨_, .char (spells_unit hv hu) hcs⟩

theorem exists_spelling (n : Nat) (s : Bytes) (hn : s.length ≤ n) (hs : Utf8.Valid s) :
    ∃ cs, Spelling s cs := by
  induction n generalizing s with
  | zero =>
    rw [List.length_eq_zero_iff.mp (Nat.le_zero.mp hn)]
    exact ⟨[], .nil⟩
  | succ n ih =>
    obtain ⟨cs, rfl⟩ := hs
    cases cs with
    | nil => exact ⟨[], .nil⟩
    | cons c cs =>
      have hpos : 0 < (String.utf8EncodeChar c).length :=
        List.length_pos_of_ne_nil String.utf8EncodeChar_ne_nil
      rw [encode_cons, List.length_append] at hn
      by_cases hc : c = '\\'
      · subst hc
        cases cs with
        | nil => exact ⟨_, .trailing⟩
        | cons e cs =>
          rw [encode_cons, List.length_append] at hn
          obtain ⟨cs', hcs'⟩ := ih (encode cs) (by omega) (valid_encode cs)
          by_cases hu : e = 'u'
          · subst hu
            by_cases hx : StartsHex (encode cs)
            · obtain ⟨h₁, h₂, h₃, h₄, t, hv, ht⟩ := hx
              have hlen := congrArg List.length ht
              simp only [List.length_cons] at hlen
              have hunit := exists_spelling_unit hv (valid_of_digits hv (ht ▸ valid_encode cs))
                fun s hs => ih s (by omega)
              rw [encode_cons, encode_cons, ht]
              exact hunit
            · exact ⟨_, .malformed hx hcs'⟩
          · by_cases he : e ∈ "\"\\/bfnrt".toList
            · obtain ⟨d, hd⟩ := spells_escape he
              have hchar :
                  Spelling ((chr '\\' :: String.utf8EncodeChar e) ++ encode cs) (d :: cs') :=
                .char hd hcs'
              exact ⟨_, hchar⟩
            · exact ⟨_, .unknown (by simp at he ⊢; tauto) hcs'⟩
      · obtain ⟨cs', hcs'⟩ := ih (encode cs) (by omega) (valid_encode cs)
        exact ⟨_, .char (.raw hc) hcs'⟩

theorem unescape_flatten {cs : List Char} {ts : List Bytes} (h : List.Forall₂ Spells cs ts) :
    unescape ts.flatten = encode cs := by
  induction h with
  | nil => simp [unescape]
  | cons hc _ ih => rw [List.flatten_cons, unescape_spells hc, ih, encode_cons]

/-- Unescaping is exact, and never breaks UTF-8. Characters are read however
they are written, and a text with other escapes is read as its spelling says,
a lone surrogate as the replacement character. Every text in UTF-8 has a
spelling. -/
theorem unescape_exact :
    (∀ cs ts, List.Forall₂ Spells cs ts → unescape ts.flatten = encode cs) ∧
    (∀ s cs, Spelling s cs → unescape s = encode cs) ∧
    ∀ s, Utf8.Valid s → (∃ cs, Spelling s cs) ∧ Utf8.Valid (unescape s) := by
  refine ⟨fun cs ts => unescape_flatten, fun s cs => unescape_spelling, ?_⟩
  intro s hs
  obtain ⟨cs, hcs⟩ := exists_spelling s.length s (Nat.le_refl _) hs
  exact ⟨⟨cs, hcs⟩, cs, unescape_spelling hcs⟩

theorem unescape_exact_sample :
    unescape (ascii "\\uD83D\\uDE00") = encode [Char.ofNat 0x1F600] ∧
      unescape (ascii "\\ud83d!") = encode ['\uFFFD', '!'] ∧
      Utf8.Valid (unescape (ascii "\\u12")) := by
  have hpair : Spells (Char.ofNat 0x1F600) (ascii "\\uD83D\\uDE00") :=
    @Spells.pair _ (chr 'D') (chr '8') (chr '3') (chr 'D') (chr 'D') (chr 'E') (chr '0') (chr '0')
      ⟨rfl, rfl, rfl, rfl⟩ ⟨rfl, rfl, rfl, rfl⟩ (by decide) (by decide) (by decide)
  have hmark : Spelling (ascii "!") ['!'] :=
    @Spelling.char '!' (ascii "!") [] [] (.raw (by decide)) .nil
  have hlone : Spelling (ascii "\\ud83d!") ['\uFFFD', '!'] := by
    refine @Spelling.lone (chr 'd') (chr '8') (chr '3') (chr 'd') _ _ ⟨rfl, rfl, rfl, rfl⟩
      (.inl ⟨by decide, ?_⟩) hmark
    rintro ⟨l₁, l₂, l₃, l₄, t, -, -, ht⟩
    exact absurd (List.cons.inj ht).1 (by decide)
  exact ⟨unescape_exact.1 _ _ (.cons hpair .nil), unescape_exact.2.1 _ _ hlone,
    (unescape_exact.2.2 _ ⟨"\\u12".toList, rfl⟩).2⟩

end ByeByeVpn.JSON
