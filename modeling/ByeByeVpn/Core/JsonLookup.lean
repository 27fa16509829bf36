import ByeByeVpn.Core.Json
import ByeByeVpn.Lib.JsonText
import Mathlib.Algebra.Group.Nat.Defs
import Mathlib.Data.List.Forall2

/-!
# Looking up a key in a JSON text

`Doc.lookup` says what `json_get_str` is for, on the document. The reader
agrees with it on every text of the document: what it makes of a text is a
`Value` that answers every search as the document does.
-/

namespace ByeByeVpn.JSON

open JsonText

-- ---------------------------------------------------------------------------
-- The lookup
-- ---------------------------------------------------------------------------

def firstAppearance (names : List Bytes) : List Bytes :=
  names.foldl (fun seen k => if k ∈ seen then seen else seen ++ [k]) []

def lastNamed {ν : Type} (k : Bytes) (members : List (Bytes × ν)) : Option ν :=
  members.reverse.lookup k

def Doc.text : Doc → Bytes
  | .string t => t
  | .scalar lexeme => lexeme
  | _ => []

mutual

def Doc.lookup (key : Bytes) : Doc → Bytes
  | .object members =>
    match lastNamed key members with
    | some d => Doc.text d
    | none =>
      let hits := lookupMembers key members
      firstNonEmpty ((firstAppearance (members.map Prod.fst)).filterMap fun k => lastNamed k hits)
  | .array elements => firstNonEmpty (lookupElements key elements)
  | _ => []

def lookupMembers (key : Bytes) : List (Bytes × Doc) → List (Bytes × Bytes)
  | [] => []
  | (k, d) :: members => (k, Doc.lookup key d) :: lookupMembers key members

def lookupElements (key : Bytes) : List Doc → List Bytes
  | [] => []
  | d :: elements => Doc.lookup key d :: lookupElements key elements

end

theorem firstAppearance_concat (names : List Bytes) (k : Bytes) :
    firstAppearance (names ++ [k]) =
      if k ∈ firstAppearance names then firstAppearance names
      else firstAppearance names ++ [k] := by
  rw [firstAppearance, List.foldl_append]
  rfl

theorem mem_firstAppearance {names : List Bytes} {k : Bytes} :
    k ∈ firstAppearance names ↔ k ∈ names := by
  induction names using List.reverseRecOn with
  | nil => simp [firstAppearance]
  | append_singleton names k' ih =>
    rw [firstAppearance_concat]
    split <;> grind

variable {ν : Type}

theorem lastNamed_concat (k k' : Bytes) (v : ν) (members : List (Bytes × ν)) :
    lastNamed k (members ++ [(k', v)]) = if k = k' then some v else lastNamed k members := by
  simp only [lastNamed, List.reverse_append, List.reverse_singleton, List.singleton_append,
    List.lookup_cons]
  split <;> simp_all

theorem lastNamed_eq_none {k : Bytes} {members : List (Bytes × ν)} :
    lastNamed k members = none ↔ k ∉ members.map Prod.fst := by
  induction members using List.reverseRecOn with
  | nil => simp [lastNamed]
  | append_singleton members m ih =>
    obtain ⟨k', v⟩ := m
    rw [lastNamed_concat]
    split <;> simp_all

theorem mem_of_lastNamed {k : Bytes} {v : ν} {members : List (Bytes × ν)}
    (h : lastNamed k members = some v) : (k, v) ∈ members := by
  obtain ⟨before, after, hsplit, -⟩ := List.lookup_eq_some_iff.mp h
  exact List.mem_reverse.mp (hsplit ▸ by simp)

theorem lookup_assign (k k' : Bytes) (v : ν) (m : List (Bytes × ν)) :
    (assign k' v m).lookup k = if k = k' then some v else m.lookup k := by
  induction m with
  | nil => simp [assign, List.lookup_cons]; grind
  | cons e m ih =>
    obtain ⟨k'', v''⟩ := e
    rw [assign]
    split <;> simp only [List.lookup_cons, ih] <;> grind

theorem lookupMembers_eq (key : Bytes) (members : List (Bytes × Doc)) :
    lookupMembers key members = members.map fun m => (m.1, Doc.lookup key m.2) := by
  induction members with
  | nil => rfl
  | cons m members ih => rw [lookupMembers, ih]; rfl

theorem lookupElements_eq (key : Bytes) (elements : List Doc) :
    lookupElements key elements = elements.map (Doc.lookup key) := by
  induction elements with
  | nil => rfl
  | cons d elements ih => rw [lookupElements, ih]; rfl

theorem findMembers_eq (key : Bytes) (o : List (Bytes × Value)) :
    findMembers key o = o.map fun m => (m.1, findKey key m.2) := by
  induction o with
  | nil => rfl
  | cons m o ih => rw [findMembers, ih]; rfl

theorem findElements_eq (key : Bytes) (a : List Value) :
    findElements key a = a.map (findKey key) := by
  induction a with
  | nil => rfl
  | cons v a ih => rw [findElements, ih]; rfl

theorem lookup_map_snd {ν' : Type} (f : ν → ν') (k : Bytes) (m : List (Bytes × ν)) :
    (m.map fun e => (e.1, f e.2)).lookup k = (m.lookup k).map f := by
  induction m with
  | nil => rfl
  | cons e m ih =>
    rw [List.map_cons, List.lookup_cons, List.lookup_cons, ih]
    split <;> rfl

theorem lastNamed_map_snd {ν' : Type} (f : ν → ν') (k : Bytes) (m : List (Bytes × ν)) :
    lastNamed k (m.map fun e => (e.1, f e.2)) = (lastNamed k m).map f := by
  rw [lastNamed, ← List.map_reverse, lookup_map_snd, lastNamed]

-- ---------------------------------------------------------------------------
-- Values that stand for documents
-- ---------------------------------------------------------------------------

/-- The value has the text of the document and answers every search as it does. -/
structure Represents (v : Value) (d : Doc) : Prop where
  text : v.s = Doc.text d
  lookup : ∀ key, findKey key v = Doc.lookup key d

/-- What the loop over the members has collected of `members`. -/
structure Collected (o : List (Bytes × Value)) (order : List Bytes) (members : List (Bytes × Doc)) :
    Prop where
  order_eq : order = firstAppearance (members.map Prod.fst)
  lookup : ∀ k, Option.Rel Represents (o.lookup k) (lastNamed k members)

theorem Represents.ofText (t : Bytes) : Represents (.ofText t) (.string t) :=
  ⟨rfl, fun _ => rfl⟩

theorem Represents.ofLexeme (t : Bytes) : Represents (.ofText t) (.scalar t) :=
  ⟨rfl, fun _ => rfl⟩

theorem Represents.array {a : List Value} {ds : List Doc} (h : List.Forall₂ Represents a ds) :
    Represents (.array a) (.array ds) := by
  refine ⟨rfl, ?_⟩
  intro key
  have he : a.map (findKey key) = ds.map (Doc.lookup key) := by
    induction h with
    | nil => rfl
    | cons h _ ih => rw [List.map_cons, List.map_cons, h.lookup, ih]
  simp [Value.array, findKey, Doc.lookup, findElements_eq, lookupElements_eq, he]

theorem Collected.nil : Collected [] [] [] := ⟨rfl, fun _ => .none⟩

theorem Collected.concat (h : Collected o order members) (hd : Represents v d) (k : Bytes) :
    Collected (assign k v o) (if (o.lookup k).isNone then order ++ [k] else order)
      (members ++ [(k, d)]) := by
  constructor
  · rw [List.map_append, List.map_singleton, firstAppearance_concat, ← h.order_eq]
    have hk : (o.lookup k).isNone ↔ k ∉ order := by
      rw [h.order_eq, mem_firstAppearance, ← lastNamed_eq_none (ν := Doc)]
      have := h.lookup k
      cases ho : o.lookup k <;> cases hm : lastNamed k members <;> simp_all
    rw [if_congr hk rfl rfl, ite_not]
  · intro k'
    rw [lookup_assign, lastNamed_concat]
    split
    · exact .some hd
    · exact h.lookup k'

theorem Collected.object (h : Collected o order members) :
    Represents (.object o order) (.object members) := by
  refine ⟨rfl, ?_⟩
  intro key
  have hk := h.lookup key
  have hits : ∀ k, (o.lookup k).map (findKey key) = (lastNamed k members).map (Doc.lookup key) := by
    intro k
    have hk := h.lookup k
    generalize o.lookup k = x at hk
    generalize lastNamed k members = y at hk
    cases hk with
    | none => rfl
    | some hr => simp [hr.lookup]
  simp only [Value.object, findKey, Doc.lookup, if_true, Bool.false_eq_true, if_false,
    List.append_nil, findMembers_eq, lookupMembers_eq, lookup_map_snd, lastNamed_map_snd,
    ← h.order_eq, hits]
  generalize o.lookup key = x at hk
  generalize lastNamed key members = y at hk
  cases hk with
  | none => rfl
  | some hr => exact hr.text

-- ---------------------------------------------------------------------------
-- Strings
-- ---------------------------------------------------------------------------

theorem hexVal_eq {c : UInt8} (h : isxdigit c = true) :
    hexVal c = some (hexValue c) ∧ hexValue c < 16 := by
  have h0 : (chr '0').toNat = 48 := rfl
  have h9 : (chr '9').toNat = 57 := rfl
  have hA : (chr 'A').toNat = 65 := rfl
  have hF : (chr 'F').toNat = 70 := rfl
  have hZ : (chr 'Z').toNat = 90 := rfl
  have ha : (chr 'a').toNat = 97 := rfl
  have hf : (chr 'f').toNat = 102 := rfl
  simp only [isxdigit, isdigit, Bool.or_eq_true, Bool.and_eq_true, decide_eq_true_eq,
    UInt8.le_iff_toNat_le, h0, h9, hA, hF, ha, hf] at h
  simp only [hexVal, hexValue, isdigit, tolower, Bool.and_eq_true, decide_eq_true_eq,
    UInt8.le_iff_toNat_le, h0, h9, hA, hF, hZ, ha, hf]
  rcases h with (h | h) | h
  · simp [h]
    omega
  · have h' : ¬(65 ≤ c.toNat ∧ c.toNat ≤ 90) := by omega
    have h'' : ¬(48 ≤ c.toNat ∧ c.toNat ≤ 57) := by omega
    simp only [h, h', h'', and_self, if_true, if_false]
    exact ⟨trivial, by omega⟩
  · have hl : (c + 32).toNat = c.toNat + 32 := by
      rw [UInt8.toNat_add, show (32 : UInt8).toNat = 32 from rfl]
      omega
    have h' : 65 ≤ c.toNat ∧ c.toNat ≤ 90 := by omega
    have h'' : ¬(48 ≤ c.toNat ∧ c.toNat ≤ 57) := by omega
    have h3 : ¬(97 ≤ c.toNat ∧ c.toNat ≤ 102) := by omega
    simp only [h, h', h'', h3, and_self, if_true, if_false, hl]
    exact ⟨congrArg some (by omega), by omega⟩

theorem or_eq_add {a x n : Nat} (h : x < 2 ^ n) : a * 2 ^ n ||| x = a * 2 ^ n + x := by
  rw [← Nat.shiftLeft_eq, ← Nat.shiftLeft_add_eq_or_of_lt h, Nat.shiftLeft_eq]

theorem shiftLeft_or {a x n : Nat} (h : x < 2 ^ n) : a <<< n ||| x = a * 2 ^ n + x := by
  rw [Nat.shiftLeft_eq, or_eq_add h]

theorem parseU16_eq {h₁ h₂ h₃ h₄ : UInt8} (h : (Item.unit h₁ h₂ h₃ h₄).Valid) (t : Bytes) :
    parseU16 (h₁ :: h₂ :: h₃ :: h₄ :: t) = some (codeUnit h₁ h₂ h₃ h₄) := by
  obtain ⟨v₁, v₂, v₃, v₄⟩ := h
  obtain ⟨e₁, -⟩ := hexVal_eq v₁
  obtain ⟨e₂, l₂⟩ := hexVal_eq v₂
  obtain ⟨e₃, l₃⟩ := hexVal_eq v₃
  obtain ⟨e₄, l₄⟩ := hexVal_eq v₄
  simp [parseU16, e₁, e₂, e₃, e₄, codeUnit, shiftLeft_or (n := 4) l₂, shiftLeft_or (n := 4) l₃,
    shiftLeft_or (n := 4) l₄]

theorem toNat_ofNat {cp : Nat} (h : cp.isValidChar) : (Char.ofNat cp).val.toNat = cp := by
  rw [Char.ofNat, dif_pos h]
  rfl

theorem appendUtf8_eq {cp : Nat} (h : Nat.isValidChar cp) : appendUtf8 cp = utf8 cp := by
  have hm (x : Nat) : x &&& 0x3F = x % 64 := Nat.and_two_pow_sub_one_eq_mod x 6
  have hlt (x : Nat) : x % 64 < 2 ^ 6 := Nat.mod_lt _ (by decide)
  have hcp : cp < 0x110000 := by
    rcases h with h | h <;> omega
  have tail (x : Nat) : 0x80 ||| x % 64 = x % 64 + 0x80 := by
    rw [Nat.add_comm]
    exact or_eq_add (a := 2) (hlt x)
  rw [utf8, String.utf8EncodeChar, toNat_ofNat h, appendUtf8]
  simp only [hm, tail, Nat.shiftRight_eq_div_pow]
  split
  · rfl
  · split
    · have e : 0xC0 ||| cp / 64 = cp / 64 % 32 + 0xC0 := by
        rw [Nat.mod_eq_of_lt (by omega : cp / 64 < 32), Nat.add_comm]
        exact or_eq_add (a := 3) (n := 6) (by omega)
      simp [e]
    · split
      · have e : 0xE0 ||| cp / 4096 = cp / 4096 % 16 + 0xE0 := by
          rw [Nat.mod_eq_of_lt (by omega : cp / 4096 < 16), Nat.add_comm]
          exact or_eq_add (a := 14) (n := 4) (by omega)
        simp [e]
      · have e : 0xF0 ||| cp / 262144 = cp / 262144 % 8 + 0xF0 := by
          rw [Nat.mod_eq_of_lt (by omega : cp / 262144 < 8), Nat.add_comm]
          exact or_eq_add (a := 30) (n := 3) (by omega)
        rw [if_pos (by omega)]
        simp [e]

theorem codeUnit_lt {h₁ h₂ h₃ h₄ : UInt8} (h : (Item.unit h₁ h₂ h₃ h₄).Valid) :
    codeUnit h₁ h₂ h₃ h₄ < 0x10000 := by
  obtain ⟨v₁, v₂, v₃, v₄⟩ := h
  have l₁ := (hexVal_eq v₁).2
  have l₂ := (hexVal_eq v₂).2
  have l₃ := (hexVal_eq v₃).2
  have l₄ := (hexVal_eq v₄).2
  simp only [codeUnit]
  omega

theorem appendUtf8_unit {u : Nat} (h : u < 0x10000) :
    appendUtf8 (if 0xD800 ≤ u ∧ u ≤ 0xDFFF then 0xFFFD else u) = utf8Unit u := by
  have hs : IsHigh u ∨ IsLow u ↔ 0xD800 ≤ u ∧ u ≤ 0xDFFF := by omega
  rw [utf8Unit, if_congr hs rfl rfl]
  split
  · exact appendUtf8_eq (by decide)
  · exact appendUtf8_eq (by simp only [Nat.isValidChar]; omega)

theorem appendUtf8_pair {u v : Nat} (hu : IsHigh u) (hv : IsLow v) :
    appendUtf8 (0x10000 + ((u - 0xD800) <<< 10 ||| (v - 0xDC00))) =
      utf8 (0x10000 + (u - 0xD800) * 0x400 + (v - 0xDC00)) := by
  rw [shiftLeft_or (n := 10) (by omega), ← Nat.add_assoc]
  exact appendUtf8_eq (by simp only [Nat.isValidChar]; omega)

theorem unescape_raw {c : UInt8} (h : c ≠ chr '\\') (t : Bytes) :
    unescape (c :: t) = c :: unescape t := by
  cases t with
  | nil => simp [unescape]
  | cons e t => rw [unescape, if_pos h]

theorem unescape_escape {e : UInt8} (h : e ≠ chr 'u') (t : Bytes) :
    unescape (chr '\\' :: e :: t) = unescapeChar e :: unescape t := by
  rw [unescape, if_neg (by decide), if_pos h]

theorem unescape_unit {h₁ h₂ h₃ h₄ : UInt8} (h : (Item.unit h₁ h₂ h₃ h₄).Valid) (t : Bytes) :
    unescape ((Item.unit h₁ h₂ h₃ h₄).text ++ t) =
      match (if IsHigh (codeUnit h₁ h₂ h₃ h₄) then lowSurrogate t else none) with
      | some v =>
        appendUtf8 (0x10000 + ((codeUnit h₁ h₂ h₃ h₄ - 0xD800) <<< 10 ||| (v - 0xDC00))) ++
          unescape (t.drop 6)
      | none => utf8Unit (codeUnit h₁ h₂ h₃ h₄) ++ unescape t := by
  simp only [Item.text, List.cons_append, List.nil_append]
  rw [unescape, if_neg (by decide), if_neg (by decide), parseU16_eq h,
    ← appendUtf8_unit (codeUnit_lt h)]
  rfl

theorem lowSurrogate_unit {l₁ l₂ l₃ l₄ : UInt8} (h : (Item.unit l₁ l₂ l₃ l₄).Valid) (t : Bytes) :
    lowSurrogate ((Item.unit l₁ l₂ l₃ l₄).text ++ t) =
      if IsLow (codeUnit l₁ l₂ l₃ l₄) then some (codeUnit l₁ l₂ l₃ l₄) else none := by
  simp only [Item.text, List.cons_append, List.nil_append, lowSurrogate, parseU16_eq h]
  rw [if_pos (by decide)]
  simp [Option.filter]

theorem lowSurrogate_eq_none {items : List Item} (hv : ∀ i ∈ items, i.Valid)
    (h : ∀ l₁ l₂ l₃ l₄ rest, items ≠ .unit l₁ l₂ l₃ l₄ :: rest) :
    lowSurrogate (textOf items) = none := by
  cases items with
  | nil => rfl
  | cons i items =>
    have hi := hv i (by simp)
    cases i with
    | raw b =>
      rw [textOf_cons, Item.text, List.singleton_append]
      cases textOf items with
      | nil => rfl
      | cons c t => simp [lowSurrogate, hi.2.2]
    | escape c =>
      have hu : c ≠ chr 'u' := by
        rintro rfl
        exact absurd (show chr 'u' ∈ ascii "\"\\/bfnrt" from hi) (by decide)
      simp [Item.text, lowSurrogate, hu]
    | unit l₁ l₂ l₃ l₄ => exact absurd rfl (h l₁ l₂ l₃ l₄ items)

theorem unescape_textOf {items : List Item} (hv : ∀ i ∈ items, i.Valid) :
    unescape (textOf items) = decode items := by
  induction items using decode.induct with
  | case1 => simp [unescape]
  | case2 b items ih =>
    have hb := hv (.raw b) (by simp)
    rw [textOf_cons, Item.text, List.singleton_append, unescape_raw hb.2.2, decode_raw,
      ih fun i hi => hv i (by simp [hi])]
  | case3 c items ih =>
    have hc := hv (.escape c) (by simp)
    have hu : c ≠ chr 'u' := by
      rintro rfl
      exact absurd (show chr 'u' ∈ ascii "\"\\/bfnrt" from hc) (by decide)
    rw [textOf_cons, Item.text, List.cons_append, List.singleton_append, unescape_escape hu,
      decode_escape, ih fun i hi => hv i (by simp [hi])]
    rfl
  | case4 h₁ h₂ h₃ h₄ l₁ l₂ l₃ l₄ items u v hp ih =>
    rw [textOf_cons, unescape_unit (hv _ (by simp)), if_pos hp.1, textOf_cons,
      lowSurrogate_unit (hv _ (by simp)), if_pos hp.2, decode_units, if_pos hp,
      ← ih fun i hi => hv i (by simp [hi])]
    simp [appendUtf8_pair hp.1 hp.2, Item.text, u, v]
  | case5 h₁ h₂ h₃ h₄ l₁ l₂ l₃ l₄ items u v hp ih =>
    have hlow : (if IsHigh u then lowSurrogate (textOf (.unit l₁ l₂ l₃ l₄ :: items)) else none) =
        none := by
      rw [textOf_cons, lowSurrogate_unit (hv _ (by simp))]
      grind
    rw [textOf_cons, unescape_unit (hv _ (by simp)), hlow, decode_units, if_neg hp,
      ← ih fun i hi => hv i (by simp at hi ⊢; tauto)]
  | case6 h₁ h₂ h₃ h₄ items hne ih =>
    have hvi : ∀ i ∈ items, i.Valid := fun i hi => hv i (by simp [hi])
    have hlow : (if IsHigh (codeUnit h₁ h₂ h₃ h₄) then lowSurrogate (textOf items) else none) =
        none := by
      rw [lowSurrogate_eq_none hvi fun l₁ l₂ l₃ l₄ rest => hne l₁ l₂ l₃ l₄ rest, ite_self]
    rw [textOf_cons, unescape_unit (hv _ (by simp)), hlow, ih hvi, decode_unit hne]

theorem ne_of_isxdigit {c x : UInt8} (h : isxdigit c = true) (hx : isxdigit x = false) : c ≠ x := by
  rintro rfl
  simp [h] at hx

theorem stringLength_textOf {items : List Item} (hv : ∀ i ∈ items, i.Valid) (rest : Bytes) :
    stringLength false (textOf items ++ chr '"' :: rest) = (textOf items).length := by
  induction items with
  | nil => rfl
  | cons i items ih =>
    have hi := hv i (by simp)
    have ih := ih fun i hi => hv i (by simp [hi])
    cases i with
    | raw b => simp [Item.text, stringLength, hi.2.1, hi.2.2, ih]
    | escape c => simp [Item.text, stringLength, ih]
    | unit h₁ h₂ h₃ h₄ =>
      have quote {c : UInt8} (h : isxdigit c = true) : c ≠ chr '"' := ne_of_isxdigit h (by decide)
      have slash {c : UInt8} (h : isxdigit c = true) : c ≠ chr '\\' := ne_of_isxdigit h (by decide)
      obtain ⟨v₁, v₂, v₃, v₄⟩ := hi
      simp [Item.text, stringLength, ih, quote v₁, quote v₂, quote v₃, quote v₄, slash v₁, slash v₂,
        slash v₃, slash v₄]

-- ---------------------------------------------------------------------------
-- The parser on texts
-- ---------------------------------------------------------------------------

variable {b : Bytes} {i : Nat} {p ws : UInt8 → Bool}

theorem getElem?_of_drop {c : UInt8} {t : Bytes} (h : b.drop i = c :: t) : b[i]? = some c := by
  have := congrArg (·[0]?) h
  simpa using this

def Follows (rest : Bytes) : Prop := ∀ c, rest.head? = some c → isDelim c = true

theorem drop_succ_of_drop {c : UInt8} {t : Bytes} (h : b.drop i = c :: t) : b.drop (i + 1) = t := by
  rw [← List.drop_drop, h]
  rfl

theorem drop_skip {w t : Bytes} (h : b.drop i = w ++ t) (hw : ∀ c ∈ w, p c = true)
    (ht : ∀ c, t.head? = some c → p c = false) : b.drop (skipWhile p b i) = t := by
  rw [drop_skipWhile, h]
  exact dropWhile_append_rest hw ht

theorem drop_skipSpace {c : UInt8} {w t : Bytes} (h : b.drop i = w ++ c :: t)
    (hw : Spaces isspace w) (hc : isspace c = false) : b.drop (skipSpace b i) = c :: t :=
  drop_skip h hw fun x hx => by
    cases hx
    exact hc

theorem parses_string {items : List Item} {w rest : Bytes} (hv : ∀ i ∈ items, i.Valid)
    (hw : Spaces isspace w) (h : b.drop i = w ++ (quoted items ++ rest)) :
    ∃ j, Parses b i (.ofText (decode items)) j ∧ b.drop j = rest := by
  have hk : b.drop (skipSpace b i) = chr '"' :: (textOf items ++ chr '"' :: rest) :=
    drop_skipSpace (by simpa [quoted] using h) hw (by decide)
  have hs := drop_succ_of_drop hk
  have hp := Parses.string (getElem?_of_drop hk)
  rw [parseString, hs, stringLength_textOf hv, Nat.add_sub_cancel_left, List.take_left,
    unescape_textOf hv] at hp
  refine ⟨_, hp, ?_⟩
  rw [drop_next, ← List.drop_drop, ← List.drop_drop, hs, List.drop_left]
  rfl

def isPlain (c : UInt8) : Bool := !isDelim c && !(ascii ":\"[\x7b").contains c

/-- A spelling that the reader takes for one scalar. -/
structure Lexeme (t : Bytes) : Prop where
  ne_nil : t ≠ []
  plain : ∀ c ∈ t, isPlain c = true

theorem isDelim_of_isPlain {c : UInt8} (h : isPlain c = true) : isDelim c = false := by
  simp only [isPlain, Bool.and_eq_true, Bool.not_eq_true'] at h
  exact h.1

theorem Lexeme.parses {t w rest : Bytes} (ht : Lexeme t) (hw : Spaces isspace w)
    (h : b.drop i = w ++ (t ++ rest)) (hr : Follows rest) :
    ∃ j, Parses b i (.ofText t) j ∧ b.drop j = rest := by
  obtain ⟨c, u, rfl⟩ := List.exists_cons_of_ne_nil ht.ne_nil
  have hc := ht.plain c (by simp)
  have hd := isDelim_of_isPlain hc
  have hne : ∀ x ∈ ascii ":\"[\x7b", c ≠ x := by
    rintro x hx rfl
    simp only [isPlain, Bool.and_eq_true, Bool.not_eq_true'] at hc
    simp_all
  have hsp : isspace c = false := by simp_all [isDelim]
  have hk : b.drop (skipSpace b i) = c :: (u ++ rest) := drop_skipSpace h hw hsp
  have hp := Parses.scalar (getElem?_of_drop hk) (hne _ (by decide)) (hne _ (by decide))
    (hne _ (by decide))
  have hin : ∀ x ∈ c :: u, (!isDelim x) = true := fun x hx => by
    simp [isDelim_of_isPlain (ht.plain x hx)]
  have hout : ∀ x, rest.head? = some x → (!isDelim x) = false := fun x hx => by simp [hr x hx]
  rw [← List.cons_append] at hk
  refine ⟨_, ?_, drop_skip hk hin hout⟩
  rwa [parseScalar_eq, hk, takeWhile_append_rest hin hout] at hp

theorem Lexeme.append {t u : Bytes} (ht : Lexeme t) (hu : ∀ c ∈ u, isPlain c = true) :
    Lexeme (t ++ u) :=
  ⟨by simp [ht.ne_nil], fun c hc => (List.mem_append.mp hc).elim (ht.plain c) (hu c)⟩

theorem isPlain_of_isdigit {c : UInt8} (h : isdigit c = true) : isPlain c = true := by
  have hs := isspace_of_isdigit h
  have ne {x : UInt8} (hx : isdigit x = false) : c ≠ x := by
    rintro rfl
    simp [h] at hx
  simp [isPlain, isDelim, hs, ascii, ne (x := chr ',') (by decide),
    ne (x := chr '\x7d') (by decide),
    ne (x := chr ']') (by decide), ne (x := chr ':') (by decide), ne (x := chr '"') (by decide),
    ne (x := chr '[') (by decide), ne (x := chr '\x7b') (by decide)]

theorem plain_of_digits {t : Bytes} (h : Digits t) : ∀ c ∈ t, isPlain c = true :=
  fun c hc => isPlain_of_isdigit (h.digit c hc)

theorem plain_of_mem {t : Bytes} {l : List Bytes} (h : t ∈ l)
    (hl : l.all (·.all isPlain) = true) : ∀ c ∈ t, isPlain c = true :=
  List.all_eq_true.mp (List.all_eq_true.mp hl t h)

theorem lexeme_intPart {t : Bytes} (h : IntPart t) : Lexeme t := by
  cases h with
  | zero => exact ⟨by decide, plain_of_mem (List.mem_singleton_self _) (by decide)⟩
  | digits h _ => exact ⟨h.ne_nil, plain_of_digits h⟩

theorem plain_fracPart {t : Bytes} (h : FracPart t) : ∀ c ∈ t, isPlain c = true := by
  cases h with
  | none => simp
  | some h => exact List.forall_mem_cons.mpr ⟨by decide, plain_of_digits h⟩

theorem plain_expPart {t : Bytes} (h : ExpPart t) : ∀ c ∈ t, isPlain c = true := by
  cases h with
  | none => simp
  | some he hs h =>
    refine List.forall_mem_cons.mpr ⟨?_, List.forall_mem_append.mpr ⟨?_, plain_of_digits h⟩⟩
    · exact plain_of_mem (List.mem_singleton_self _) (by decide) _ he
    · exact plain_of_mem hs (by decide)

theorem lexeme_number {t : Bytes} (h : Number t) : Lexeme t := by
  obtain ⟨hs, hi, hf, he⟩ := h
  have hi := lexeme_intPart hi
  refine Lexeme.append (.append ⟨by simp [hi.ne_nil], ?_⟩ (plain_fracPart hf)) (plain_expPart he)
  exact List.forall_mem_append.mpr ⟨plain_of_mem hs (by decide), hi.plain⟩

theorem lexeme_name {t : Bytes} (h : t ∈ names) : Lexeme t := by
  refine ⟨?_, plain_of_mem h (by decide)⟩
  rintro rfl
  exact absurd h (by decide)

-- ---------------------------------------------------------------------------
-- The containers
-- ---------------------------------------------------------------------------

/-- No loop skips the first byte of a value, and none stops at it. -/
theorem isDelim_of_startByte {c : UInt8} (h : startByte c = true) : isDelim c = false := by
  have hcomma := ne_of_startByte (x := chr ',') h rfl
  have hobject := ne_of_startByte (x := chr '\x7d') h rfl
  have harray := ne_of_startByte (x := chr ']') h rfl
  simp [isDelim, isspace_of_startByte h, hcomma, hobject, harray]

/-- The reader makes something of the text at `i` that stands for `d`, and
goes on with `rest`. -/
def Reads (b : Bytes) (i : Nat) (d : Doc) (rest : Bytes) : Prop :=
  ∃ v j, Parses b i v j ∧ b.drop j = rest ∧ Represents v d

theorem parses_nothing {c : UInt8} {w rest : Bytes} (h : b.drop i = w ++ c :: rest)
    (hw : Spaces isspace w) (hc : c ∈ ascii "]\x7d") :
    ∃ j, Parses b i (.ofText []) j ∧ b.drop j = c :: rest := by
  have hall : ∀ c ∈ ascii "]\x7d", isspace c = false ∧ isDelim c = true ∧ c ≠ chr '"' ∧
      c ≠ chr '\x7b' ∧ c ≠ chr '[' := List.all_iff_forall_prop.mp (by decide)
  obtain ⟨hs, hd, hq, ho, ha⟩ := hall c hc
  have hk := drop_skipSpace h hw hs
  have hb := getElem?_of_drop hk
  have hp := Parses.scalar hb hq ho ha
  have hstay : skipWhile (fun c => !isDelim c) b (skipSpace b i) = skipSpace b i :=
    skipWhile_eq_self fun x hx => by
      rw [hb] at hx
      cases hx
      simp [hd]
  rw [parseScalar_eq, hk, List.takeWhile_cons, if_neg (by simp [hd]), hstay] at hp
  exact ⟨_, hp, hk⟩

theorem Represents.blankElement : Represents (.array [.ofText []]) (.array []) :=
  ⟨rfl, fun _ => rfl⟩

theorem Represents.blankMember : Represents (.object [([], .ofText [])] [[]]) (.object []) := by
  refine ⟨rfl, ?_⟩
  intro key
  cases key with
  | nil => rfl
  | cons c key => rfl

theorem drop_skip_last {w rest : Bytes} {x c : UInt8} (h : b.drop i = w ++ c :: rest)
    (hw : Spaces isspace w) (hc : isspace c = false) (hx : c ≠ x) :
    b.drop (skipSpaceOr x b i) = c :: rest :=
  drop_skip h (fun y hy => by simp [hw y hy]) fun y hy => by
    cases hy
    simp [hc, hx]

theorem spaces_nil : Spaces isspace [] := fun _ h => absurd h (List.not_mem_nil)

theorem stop_or_starts {c : UInt8} {t : Bytes} (h : b.drop i = c :: t) (x : UInt8) :
    (b[i]? = none ∨ b[i]? = some x) ↔ c = x := by
  simp [getElem?_of_drop h]

theorem not_stop {w t rest : Bytes} {x : UInt8} (h : b.drop i = w ++ (t ++ rest))
    (hw : Spaces isspace w) (ht : Starts t) (hx : isDelim x = true) (hs : isspace x = false) :
    ¬(b[i]? = none ∨ b[i]? = some x) := by
  cases w with
  | nil =>
    obtain ⟨c, u, rfl, hc⟩ := ht
    rw [stop_or_starts h]
    rintro rfl
    simp [isDelim_of_startByte hc] at hx
  | cons c w =>
    rw [stop_or_starts h]
    rintro rfl
    simp [hw c (by simp)] at hs

theorem ParsesArray.close {rest : Bytes} (h : b.drop i = chr ']' :: rest) :
    ∃ j, ParsesArray b a i (.array a) j ∧ b.drop j = rest :=
  ⟨_, .stop (.inr (getElem?_of_drop h)), by rw [drop_next, drop_succ_of_drop h]⟩

theorem ParsesObject.close {rest : Bytes} (h : b.drop i = chr '\x7d' :: rest) :
    ∃ j, ParsesObject b o order i (.object o order) j ∧ b.drop j = rest :=
  ⟨_, .stop (.inr (getElem?_of_drop h)), by rw [drop_next, drop_succ_of_drop h]⟩

theorem reads_array {w t rest : Bytes} {d : Doc} (hw : Spaces isspace w)
    (h : b.drop i = w ++ (chr '[' :: t))
    (hl : ∀ {i}, b.drop i = t → ∃ v j, ParsesArray b [] i v j ∧ b.drop j = rest ∧ Represents v d) :
    Reads b i d rest := by
  have hk := drop_skipSpace h hw (by decide)
  obtain ⟨v, j, hp, hr⟩ := hl (drop_succ_of_drop hk)
  exact ⟨v, j, .array (getElem?_of_drop hk) hp, hr⟩

theorem reads_object {w t rest : Bytes} {d : Doc} (hw : Spaces isspace w)
    (h : b.drop i = w ++ (chr '\x7b' :: t))
    (hl : ∀ {i}, b.drop i = t →
      ∃ v j, ParsesObject b [] [] i v j ∧ b.drop j = rest ∧ Represents v d) :
    Reads b i d rest := by
  have hk := drop_skipSpace h hw (by decide)
  obtain ⟨v, j, hp, hr⟩ := hl (drop_succ_of_drop hk)
  exact ⟨v, j, .object (getElem?_of_drop hk) hp, hr⟩

theorem reads_emptyArray {w w' rest : Bytes} (hw : Spaces isspace w) (hw' : Spaces isspace w')
    (h : b.drop i = w ++ (chr '[' :: (w' ++ chr ']' :: rest))) : Reads b i (.array []) rest := by
  refine reads_array hw h fun {i} h => ?_
  cases w' with
  | nil =>
    obtain ⟨j, hp, hr⟩ := ParsesArray.close h
    exact ⟨_, j, hp, hr, .array .nil⟩
  | cons c w' =>
    obtain ⟨j, hp, hj⟩ := parses_nothing h hw' (by decide)
    obtain ⟨l, hc, hr⟩ := ParsesArray.close (a := [.ofText []])
      (drop_skip_last (x := chr ',') (w := []) hj spaces_nil (by decide) (by decide))
    refine ⟨_, l, .element ?_ hp hc, hr, .blankElement⟩
    rw [stop_or_starts h]
    rintro rfl
    exact absurd (hw' (chr ']') (by simp)) (by decide)

theorem reads_emptyObject {w w' rest : Bytes} (hw : Spaces isspace w) (hw' : Spaces isspace w')
    (h : b.drop i = w ++ (chr '\x7b' :: (w' ++ chr '\x7d' :: rest))) :
    Reads b i (.object []) rest := by
  refine reads_object hw h fun {i} h => ?_
  cases w' with
  | nil =>
    obtain ⟨j, hp, hr⟩ := ParsesObject.close h
    exact ⟨_, j, hp, hr, Collected.nil.object⟩
  | cons c w' =>
    obtain ⟨j, hk, hj⟩ := parses_nothing h hw' (by decide)
    obtain ⟨l, hv, hl⟩ := parses_nothing (w := [])
      (drop_skip_last (x := chr ':') (w := []) hj spaces_nil (by decide) (by decide)) spaces_nil
      (by decide)
    have hclose := drop_skip_last (x := chr ',') (w := []) hl spaces_nil (by decide) (by decide)
    obtain ⟨m, hc, hr⟩ : ∃ m, ParsesObject b [([], .ofText [])] [[]] _
        (.object [([], .ofText [])] [[]]) m ∧ b.drop m = rest := ParsesObject.close hclose
    refine ⟨_, m, .member ?_ hk hv hc, hr, .blankMember⟩
    rw [stop_or_starts h]
    rintro rfl
    exact absurd (hw' (chr '\x7d') (by simp)) (by decide)

-- ---------------------------------------------------------------------------
-- Every text is read as its document
-- ---------------------------------------------------------------------------

theorem spaces_of {w : Bytes} (hws : ∀ c, ws c = true → isspace c = true) (h : Spaces ws w) :
    Spaces isspace w := fun c hc => hws c (h c hc)

theorem follows_spaces {w t : Bytes} {c : UInt8} (hw : Spaces isspace w) (hc : isDelim c = true) :
    Follows (w ++ c :: t) := by
  intro x hx
  cases w with
  | nil =>
    cases hx
    exact hc
  | cons y w =>
    obtain rfl : y = x := by simpa using hx
    simp [isDelim, hw y (by simp)]

theorem drop_skip_separator {w w' t : Bytes} {x : UInt8} (h : b.drop i = w ++ x :: (w' ++ t))
    (hw : Spaces isspace w) (hw' : Spaces isspace w') (ht : Starts t)
    (hx : startByte x = false) : b.drop (skipSpaceOr x b i) = t := by
  refine drop_skip (w := w ++ x :: w') (by simpa using h) (fun y hy => ?_) fun y hy => ?_
  · rcases List.mem_append.mp hy with hy | hy
    · simp [hw y hy]
    · rcases List.mem_cons.mp hy with rfl | hy
      · simp
      · simp [hw' y hy]
  · obtain ⟨c, u, rfl, hc⟩ := ht
    obtain rfl : c = y := by simpa using hy
    simp [isspace_of_startByte hc, ne_of_startByte hc hx]

mutual

theorem reads_value (hws : ∀ c, ws c = true → isspace c = true) :
    ∀ {t d i w rest}, JsonText.Value ws t d → b.drop i = w ++ (t ++ rest) → Spaces isspace w →
      Follows rest → Reads b i d rest
  | _, _, i, w, rest, .string hv, h, hw, _ => by
    obtain ⟨j, hp, hj⟩ := parses_string hv hw h
    exact ⟨_, j, hp, hj, .ofText _⟩
  | t, _, i, w, rest, .number hn, h, hw, hr => by
    obtain ⟨j, hp, hj⟩ := (lexeme_number hn).parses hw h hr
    exact ⟨_, j, hp, hj, .ofLexeme _⟩
  | t, _, i, w, rest, .name hn, h, hw, hr => by
    obtain ⟨j, hp, hj⟩ := (lexeme_name hn).parses hw h hr
    exact ⟨_, j, hp, hj, .ofLexeme _⟩
  | _, _, i, w, rest, .emptyArray hw', h, hw, _ =>
    reads_emptyArray hw (spaces_of hws hw') (by simpa using h)
  | _, _, i, w, rest, .array hw' he, h, hw, _ =>
    reads_array hw (by simpa using h) fun h => reads_elements hws he h (spaces_of hws hw') .nil
  | _, _, i, w, rest, .emptyObject hw', h, hw, _ =>
    reads_emptyObject hw (spaces_of hws hw') (by simpa using h)
  | _, _, i, w, rest, .object hw' hm, h, hw, _ =>
    reads_object hw (by simpa using h) fun h => reads_members hws hm h (spaces_of hws hw') .nil

theorem reads_elements (hws : ∀ c, ws c = true → isspace c = true) :
    ∀ {t ds i w rest a done}, Elements ws t ds → b.drop i = w ++ (t ++ chr ']' :: rest) →
      Spaces isspace w → List.Forall₂ Represents a done →
      ∃ v j, ParsesArray b a i v j ∧ b.drop j = rest ∧ Represents v (.array (done ++ ds))
  | _, _, i, w, rest, a, done, .last hv hs, h, hw, ha => by
    have hs := spaces_of hws hs
    rw [List.append_assoc] at h
    have hstop := not_stop h hw hv.starts (x := chr ']') (by decide) (by decide)
    obtain ⟨v, j, hp, hj, hr⟩ := reads_value hws hv h hw (follows_spaces hs (by decide))
    obtain ⟨l, hc, hl⟩ := ParsesArray.close (a := a ++ [v])
      (drop_skip_last (x := chr ',') hj hs (by decide) (by decide))
    exact ⟨_, l, .element hstop hp hc, hl, .array (List.rel_append ha (.cons hr .nil))⟩
  | _, _, i, w, rest, a, done, .cons hv hs hs' he, h, hw, ha => by
    have hs := spaces_of hws hs
    simp only [List.append_assoc, List.cons_append] at h
    have hstop := not_stop h hw hv.starts (x := chr ']') (by decide) (by decide)
    obtain ⟨v, j, hp, hj, hr⟩ := reads_value hws hv h hw (follows_spaces hs (by decide))
    have hn := drop_skip_separator hj hs (spaces_of hws hs') (he.starts.append _)
      rfl
    obtain ⟨r, l, hl, hd, hrep⟩ := reads_elements hws he (w := []) hn spaces_nil
      (List.rel_append ha (.cons hr .nil))
    exact ⟨r, l, .element hstop hp hl, hd, by simpa using hrep⟩

theorem reads_members (hws : ∀ c, ws c = true → isspace c = true) :
    ∀ {t ms i w rest o order done}, Members ws t ms → b.drop i = w ++ (t ++ chr '\x7d' :: rest) →
      Spaces isspace w → Collected o order done →
      ∃ v j, ParsesObject b o order i v j ∧ b.drop j = rest ∧ Represents v (.object (done ++ ms))
  | _, _, i, w, rest, o, order, done, .last hm hs, h, hw, ho => by
    have hs := spaces_of hws hs
    rw [List.append_assoc] at h
    obtain ⟨key, j, v, l, hstop, hk, hv, hl, hc⟩ :=
      reads_member hws hm h hw (follows_spaces hs (by decide)) ho
    obtain ⟨m, hm, hr⟩ := ParsesObject.close
      (drop_skip_last (x := chr ',') hl hs (by decide) (by decide))
    exact ⟨_, m, .member hstop hk hv hm, hr, hc.object⟩
  | _, _, i, w, rest, o, order, done, .cons hm hs hs' hms, h, hw, ho => by
    have hs := spaces_of hws hs
    simp only [List.append_assoc, List.cons_append] at h
    obtain ⟨key, j, v, l, hstop, hk, hv, hl, hc⟩ :=
      reads_member hws hm h hw (follows_spaces hs (by decide)) ho
    have hn := drop_skip_separator hl hs (spaces_of hws hs') (hms.starts.append _)
      rfl
    obtain ⟨r, n, hn, hd, hrep⟩ := reads_members hws hms (w := []) hn spaces_nil hc
    exact ⟨r, n, .member hstop hk hv hn, hd, by simpa using hrep⟩

theorem reads_member (hws : ∀ c, ws c = true → isspace c = true) :
    ∀ {t m i w rest o order done}, Member ws t m → b.drop i = w ++ (t ++ rest) →
      Spaces isspace w → Follows rest → Collected o order done →
      ∃ key j v l, ¬(b[i]? = none ∨ b[i]? = some (chr '\x7d')) ∧ Parses b i key j ∧
        Parses b (skipSpaceOr (chr ':') b j) v l ∧ b.drop l = rest ∧
        Collected (assign key.s v o) (if (o.lookup key.s).isNone then order ++ [key.s] else order)
          (done ++ [m])
  | _, _, i, w, rest, o, order, done, .mk hi hs hs' hv, h, hw, hr, ho => by
    simp only [List.append_assoc, List.cons_append] at h
    have hstop := not_stop h hw (starts_quoted _) (x := chr '\x7d')
      (by decide) (by decide)
    obtain ⟨j, hk, hj⟩ := parses_string hi hw h
    have hn := drop_skip_separator hj (spaces_of hws hs) (spaces_of hws hs')
      (hv.starts.append _) rfl
    obtain ⟨v, l, hp, hl, hrep⟩ := reads_value hws (w := []) hv hn spaces_nil hr
    exact ⟨_, j, v, l, hstop, hk, hp, hl, ho.concat hrep _⟩

end

theorem isspace_of_standardSpace (c : UInt8) (h : standardSpace c = true) : isspace c = true := by
  simp only [standardSpace, Bool.or_eq_true, beq_iff_eq] at h
  rcases h with ((rfl | rfl) | rfl) | rfl <;> rfl

theorem reads_text {text : Bytes} {d : Doc} (h : Text standardSpace text d) :
    ∃ v j, Parses text 0 v j ∧ Represents v d := by
  obtain ⟨hw, hv, hw'⟩ := h
  rename_i w t w'
  have hr : Follows w' := fun c hc => by
    simp [isDelim, isspace_of_standardSpace c (hw' c (List.mem_of_mem_head? hc))]
  obtain ⟨v, j, hp, -, hrep⟩ := reads_value (i := 0) isspace_of_standardSpace hv
    (List.append_assoc w t w') (spaces_of isspace_of_standardSpace hw) hr
  exact ⟨v, j, hp, hrep⟩

theorem answers_text {text : Bytes} {d : Doc} (h : Text standardSpace text d) :
    Answers text (Doc.lookup · d) := by
  obtain ⟨v, j, hp, hrep⟩ := reads_text h
  rw [← funext hrep.lookup]
  exact hp.answers

/-- On every text of a document `json_get_str` returns what the lookup of the
key in the document says. -/
theorem jsonGetStr_eq_lookup (text : Bytes) (d : Doc) (h : Text standardSpace text d)
    (key : Bytes) :
    ∃ fuel₀, ∀ fuel, fuel₀ ≤ fuel → jsonGetStr fuel text key = some (Doc.lookup key d) := by
  obtain ⟨fuel₀, hanswer⟩ := answers_text h
  exact ⟨fuel₀, fun fuel hle => hanswer fuel hle key⟩

theorem jsonGetStr_eq_lookup_sample :
    ∃ fuel₀, ∀ fuel, fuel₀ ≤ fuel →
      jsonGetStr fuel (ascii "\x7b\"k\": [\"\\u0041\"], \"k\":10\x7d") (ascii "k") =
        some (ascii "10") := by
  have none : Spaces standardSpace [] := by simp [Spaces]
  have one : Spaces standardSpace (ascii " ") := by simp [Spaces, ascii]; rfl
  have key : ∀ i ∈ [Item.raw (chr 'k')], i.Valid := by
    simp only [List.mem_singleton, forall_eq]
    exact ⟨by decide, by decide, by decide⟩
  have letter : ∀ i ∈ [Item.unit (chr '0') (chr '0') (chr '4') (chr '1')], i.Valid := by
    simp only [List.mem_singleton, forall_eq]
    exact ⟨by decide, by decide, by decide, by decide⟩
  have array : JsonText.Value standardSpace (ascii "[\"\\u0041\"]")
      (.array [.string (ascii "A")]) :=
    .array none (.last (.string letter) none)
  have ten : JsonText.Value standardSpace (ascii "10") (.scalar (ascii "10")) :=
    .number (@Number.mk [] (ascii "10") [] [] (by decide)
      (.digits ⟨by decide, List.all_eq_true.mp (by decide)⟩ (by decide)) .none .none)
  have text : Text standardSpace (ascii "\x7b\"k\": [\"\\u0041\"], \"k\":10\x7d")
      (.object [(ascii "k", .array [.string (ascii "A")]), (ascii "k", .scalar (ascii "10"))]) :=
    .mk none (.object none (.cons (.mk key none one array) none one
      (.last (.mk key none none ten) none))) none
  exact jsonGetStr_eq_lookup _ _ text (ascii "k")

end ByeByeVpn.JSON
