import ByeByeVpn.Lib.Bytes

/-!
# JSON documents and their texts

The grammar of JSON over bytes, and the document that a text spells. What
counts as white space is a parameter, since readers differ in it. A string
is the list of its bytes in UTF-8: an unescaped byte stands for itself, and
`\u` escapes spell UTF-16 code units.
-/

namespace ByeByeVpn.JsonText

/-- Numbers and the three names are kept as they are spelled. -/
inductive Doc
  | string (text : Bytes)
  | scalar (lexeme : Bytes)
  | array (elements : List Doc)
  | object (members : List (Bytes × Doc))

-- ---------------------------------------------------------------------------
-- Strings
-- ---------------------------------------------------------------------------

/-- One step of the spelling of a string. -/
inductive Item
  | raw (b : UInt8)
  | escape (c : UInt8)
  | unit (h₁ h₂ h₃ h₄ : UInt8)
  deriving DecidableEq, Repr

namespace Item

def Valid : Item → Prop
  | raw b => 0x20 ≤ b ∧ b ≠ chr '"' ∧ b ≠ chr '\\'
  | escape c => c ∈ ascii "\"\\/bfnrt"
  | unit h₁ h₂ h₃ h₄ => isxdigit h₁ ∧ isxdigit h₂ ∧ isxdigit h₃ ∧ isxdigit h₄

def text : Item → Bytes
  | raw b => [b]
  | escape c => [chr '\\', c]
  | unit h₁ h₂ h₃ h₄ => [chr '\\', chr 'u', h₁, h₂, h₃, h₄]

end Item

def textOf (items : List Item) : Bytes := items.flatMap Item.text

@[simp] theorem textOf_nil : textOf [] = [] := rfl

@[simp] theorem textOf_cons (i : Item) (items : List Item) :
    textOf (i :: items) = i.text ++ textOf items := rfl

def quoted (items : List Item) : Bytes := chr '"' :: (textOf items ++ [chr '"'])

def hexValue (c : UInt8) : Nat := if isdigit c then c.toNat - 48 else (tolower c).toNat - 87

def codeUnit (h₁ h₂ h₃ h₄ : UInt8) : Nat :=
  ((hexValue h₁ * 16 + hexValue h₂) * 16 + hexValue h₃) * 16 + hexValue h₄

def escaped (c : UInt8) : UInt8 :=
  if c = chr 'b' then 8
  else if c = chr 'f' then 12
  else if c = chr 'n' then 10
  else if c = chr 'r' then 13
  else if c = chr 't' then 9
  else c

abbrev IsHigh (u : Nat) : Prop := 0xD800 ≤ u ∧ u ≤ 0xDBFF

abbrev IsLow (u : Nat) : Prop := 0xDC00 ≤ u ∧ u ≤ 0xDFFF

def utf8 (c : Nat) : Bytes := String.utf8EncodeChar (Char.ofNat c)

/-- A surrogate without its partner reads as the replacement character. -/
def utf8Unit (u : Nat) : Bytes := utf8 (if IsHigh u ∨ IsLow u then 0xFFFD else u)

def decode : List Item → Bytes
  | [] => []
  | .raw b :: items => b :: decode items
  | .escape c :: items => escaped c :: decode items
  | .unit h₁ h₂ h₃ h₄ :: .unit l₁ l₂ l₃ l₄ :: items =>
    let u := codeUnit h₁ h₂ h₃ h₄
    let v := codeUnit l₁ l₂ l₃ l₄
    if IsHigh u ∧ IsLow v then utf8 (0x10000 + (u - 0xD800) * 0x400 + (v - 0xDC00)) ++ decode items
    else utf8Unit u ++ decode (.unit l₁ l₂ l₃ l₄ :: items)
  | .unit h₁ h₂ h₃ h₄ :: items => utf8Unit (codeUnit h₁ h₂ h₃ h₄) ++ decode items

@[simp] theorem decode_nil : decode [] = [] := rfl

@[simp] theorem decode_raw (b : UInt8) (items : List Item) :
    decode (.raw b :: items) = b :: decode items := rfl

@[simp] theorem decode_escape (c : UInt8) (items : List Item) :
    decode (.escape c :: items) = escaped c :: decode items := rfl

theorem decode_units (h₁ h₂ h₃ h₄ l₁ l₂ l₃ l₄ : UInt8) (items : List Item) :
    decode (.unit h₁ h₂ h₃ h₄ :: .unit l₁ l₂ l₃ l₄ :: items) =
      if IsHigh (codeUnit h₁ h₂ h₃ h₄) ∧ IsLow (codeUnit l₁ l₂ l₃ l₄) then
        utf8 (0x10000 + (codeUnit h₁ h₂ h₃ h₄ - 0xD800) * 0x400 +
          (codeUnit l₁ l₂ l₃ l₄ - 0xDC00)) ++ decode items
      else utf8Unit (codeUnit h₁ h₂ h₃ h₄) ++ decode (.unit l₁ l₂ l₃ l₄ :: items) := rfl

theorem decode_unit {h₁ h₂ h₃ h₄ : UInt8} {items : List Item}
    (hne : ∀ l₁ l₂ l₃ l₄ rest, items = .unit l₁ l₂ l₃ l₄ :: rest → False) :
    decode (.unit h₁ h₂ h₃ h₄ :: items) = utf8Unit (codeUnit h₁ h₂ h₃ h₄) ++ decode items := by
  cases items with
  | nil => rfl
  | cons i items =>
    cases i with
    | unit => exact (hne _ _ _ _ _ rfl).elim
    | _ => rfl

-- ---------------------------------------------------------------------------
-- Numbers
-- ---------------------------------------------------------------------------

structure Digits (t : Bytes) : Prop where
  ne_nil : t ≠ []
  digit : ∀ c ∈ t, isdigit c

/-- No leading zero. -/
inductive IntPart : Bytes → Prop
  | zero : IntPart [chr '0']
  | digits {t : Bytes} : Digits t → t.head? ≠ some (chr '0') → IntPart t

inductive FracPart : Bytes → Prop
  | none : FracPart []
  | some {t : Bytes} : Digits t → FracPart (chr '.' :: t)

inductive ExpPart : Bytes → Prop
  | none : ExpPart []
  | some {e : UInt8} {sign t : Bytes} : e ∈ ascii "eE" → sign ∈ [[], ascii "+", ascii "-"] →
      Digits t → ExpPart (e :: (sign ++ t))

inductive Number : Bytes → Prop
  | mk {sign int frac exp : Bytes} : sign ∈ [[], ascii "-"] → IntPart int → FracPart frac →
      ExpPart exp → Number (sign ++ int ++ frac ++ exp)

def names : List Bytes := [ascii "true", ascii "false", ascii "null"]

-- ---------------------------------------------------------------------------
-- Values
-- ---------------------------------------------------------------------------

def Spaces (ws : UInt8 → Bool) (t : Bytes) : Prop := ∀ c ∈ t, ws c = true

mutual

inductive Value (ws : UInt8 → Bool) : Bytes → Doc → Prop
  | string {items : List Item} : (∀ i ∈ items, i.Valid) →
      Value ws (quoted items) (.string (decode items))
  | number {t : Bytes} : Number t → Value ws t (.scalar t)
  | name {t : Bytes} : t ∈ names → Value ws t (.scalar t)
  | emptyArray {w : Bytes} : Spaces ws w → Value ws (chr '[' :: (w ++ [chr ']'])) (.array [])
  | array {w t : Bytes} {ds : List Doc} : Spaces ws w → Elements ws t ds →
      Value ws (chr '[' :: (w ++ t ++ [chr ']'])) (.array ds)
  | emptyObject {w : Bytes} : Spaces ws w →
      Value ws (chr '\x7b' :: (w ++ [chr '\x7d'])) (.object [])
  | object {w t : Bytes} {ms : List (Bytes × Doc)} : Spaces ws w → Members ws t ms →
      Value ws (chr '\x7b' :: (w ++ t ++ [chr '\x7d'])) (.object ms)

/-- Elements and the commas between them, with white space after each. -/
inductive Elements (ws : UInt8 → Bool) : Bytes → List Doc → Prop
  | last {t w : Bytes} {d : Doc} : Value ws t d → Spaces ws w → Elements ws (t ++ w) [d]
  | cons {t w w' ts : Bytes} {d : Doc} {ds : List Doc} : Value ws t d → Spaces ws w →
      Spaces ws w' → Elements ws ts ds → Elements ws (t ++ w ++ chr ',' :: (w' ++ ts)) (d :: ds)

inductive Members (ws : UInt8 → Bool) : Bytes → List (Bytes × Doc) → Prop
  | last {t w : Bytes} {m : Bytes × Doc} : Member ws t m → Spaces ws w → Members ws (t ++ w) [m]
  | cons {t w w' ts : Bytes} {m : Bytes × Doc} {ms : List (Bytes × Doc)} : Member ws t m →
      Spaces ws w → Spaces ws w' → Members ws ts ms →
      Members ws (t ++ w ++ chr ',' :: (w' ++ ts)) (m :: ms)

inductive Member (ws : UInt8 → Bool) : Bytes → Bytes × Doc → Prop
  | mk {items : List Item} {w w' t : Bytes} {d : Doc} : (∀ i ∈ items, i.Valid) → Spaces ws w →
      Spaces ws w' → Value ws t d →
      Member ws (quoted items ++ w ++ chr ':' :: (w' ++ t)) (decode items, d)

end

/-- A whole text: one value with white space around it. -/
inductive Text (ws : UInt8 → Bool) : Bytes → Doc → Prop
  | mk {w t w' : Bytes} {d : Doc} : Spaces ws w → Value ws t d → Spaces ws w' →
      Text ws (w ++ t ++ w') d

-- ---------------------------------------------------------------------------
-- How the parts start
-- ---------------------------------------------------------------------------

def startByte (c : UInt8) : Bool := isdigit c || (ascii "\"[\x7b-tfn").contains c

def Starts (t : Bytes) : Prop := ∃ c u, t = c :: u ∧ startByte c = true

theorem isspace_of_startByte {c : UInt8} (h : startByte c = true) : isspace c = false := by
  rcases (Bool.or_eq_true _ _).mp h with h | h
  · exact isspace_of_isdigit h
  · have hall : ∀ x ∈ ascii "\"[\x7b-tfn", isspace x = false :=
      List.all_iff_forall_prop.mp (by decide)
    exact hall c (List.contains_iff_mem.mp h)

theorem ne_of_startByte {c x : UInt8} (h : startByte c = true) (hx : startByte x = false) :
    c ≠ x := by
  rintro rfl
  simp [h] at hx

theorem Starts.append {t : Bytes} (h : Starts t) (u : Bytes) : Starts (t ++ u) := by
  obtain ⟨c, v, rfl, h⟩ := h
  exact ⟨c, v ++ u, rfl, h⟩

theorem starts_quoted (items : List Item) : Starts (quoted items) := ⟨_, _, rfl, rfl⟩

theorem Digits.starts {t : Bytes} (h : Digits t) : ∃ c u, t = c :: u ∧ isdigit c = true := by
  obtain ⟨c, u, rfl⟩ := List.exists_cons_of_ne_nil h.ne_nil
  exact ⟨c, u, rfl, h.digit c (by simp)⟩

theorem IntPart.starts {t : Bytes} (h : IntPart t) : ∃ c u, t = c :: u ∧ isdigit c = true := by
  cases h with
  | zero => exact ⟨_, _, rfl, rfl⟩
  | digits h _ => exact h.starts

theorem Number.starts {t : Bytes} (h : Number t) :
    ∃ c u, t = c :: u ∧ (isdigit c = true ∨ c = chr '-') := by
  obtain ⟨hs, hi, -, -⟩ := h
  obtain ⟨c, u, rfl, hc⟩ := hi.starts
  simp only [List.mem_cons, List.not_mem_nil, or_false] at hs
  rcases hs with rfl | rfl
  · exact ⟨c, _, rfl, .inl hc⟩
  · exact ⟨_, _, rfl, .inr rfl⟩

variable {ws : UInt8 → Bool}

theorem Value.starts {t : Bytes} {d : Doc} (h : Value ws t d) : Starts t := by
  cases h with
  | number h =>
    obtain ⟨c, u, rfl, hc⟩ := h.starts
    refine ⟨c, u, rfl, ?_⟩
    rcases hc with hc | rfl
    · simp [startByte, hc]
    · rfl
  | name h =>
    simp only [names, List.mem_cons, List.not_mem_nil, or_false] at h
    rcases h with rfl | rfl | rfl <;> exact ⟨_, _, rfl, rfl⟩
  | _ => exact ⟨_, _, rfl, rfl⟩

theorem Elements.starts {t : Bytes} {ds : List Doc} (h : Elements ws t ds) : Starts t := by
  cases h with
  | last h _ => exact h.starts.append _
  | cons h _ _ _ => exact (h.starts.append _).append _

theorem Member.starts {t : Bytes} {m : Bytes × Doc} (h : Member ws t m) : Starts t := by
  cases h
  exact ⟨_, _, rfl, rfl⟩

theorem Members.starts {t : Bytes} {ms : List (Bytes × Doc)} (h : Members ws t ms) : Starts t := by
  cases h with
  | last h _ => exact h.starts.append _
  | cons h _ _ _ => exact (h.starts.append _).append _

def standardSpace (c : UInt8) : Bool := c == 32 || c == 9 || c == 10 || c == 13

end ByeByeVpn.JsonText
