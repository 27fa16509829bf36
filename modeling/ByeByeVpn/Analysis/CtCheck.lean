import ByeByeVpn.Lib.JsonText
import Mathlib.Data.List.TakeWhile

/-!
# The certificate transparency check (`analysis/ct_check.cpp`)

`ct_check` counts the entries of a reply with a recogniser of its own. Its
functions take the text at the cursor and return the text behind what they
recognised. Calls are counted with fuel, and running out of it is told apart
from rejecting the text, so that it can be shown not to happen.
-/

namespace ByeByeVpn

namespace CtCheck

inductive Stop
  | rejected
  | exhausted
  deriving DecidableEq, Repr

/-- `none` stands for `return false`. -/
def orReject {α : Type} : Option α → Except Stop α
  | some a => .ok a
  | none => .error .rejected

def skipWs (s : Bytes) : Bytes := s.dropWhile isspace

/-- The loop of `parse_string`, after the opening quote. -/
def parseStringRest : Bytes → Option Bytes
  | [] => none
  | c :: s =>
    if c = chr '"' then some s
    else if c = chr '\\' then
      match s with
      | [] => none
      | esc :: s =>
        if esc = chr 'u' then
          match s with
          | h₁ :: h₂ :: h₃ :: h₄ :: s =>
            if isxdigit h₁ && isxdigit h₂ && isxdigit h₃ && isxdigit h₄ then parseStringRest s
            else none
          | _ => none
        else if (ascii "\"\\/bfnrt").contains esc then parseStringRest s
        else none
    else if c < 0x20 then none
    else parseStringRest s

def parseString : Bytes → Option Bytes
  | [] => none
  | c :: s => if c = chr '"' then parseStringRest s else none

def parseSign (sign : UInt8 → Bool) : Bytes → Bytes
  | [] => []
  | c :: s => if sign c then s else c :: s

def parseDigits (s : Bytes) : Option Bytes :=
  let t := s.dropWhile isdigit
  if t.length = s.length then none else some t

def parseInt : Bytes → Option Bytes
  | [] => none
  | c :: s => if c = chr '0' then some s else parseDigits (c :: s)

def parseFrac : Bytes → Option Bytes
  | [] => some []
  | c :: s => if c = chr '.' then parseDigits s else some (c :: s)

def parseExp : Bytes → Option Bytes
  | [] => some []
  | c :: s =>
    if c = chr 'e' ∨ c = chr 'E' then
      parseDigits (parseSign (fun c => c == chr '+' || c == chr '-') s)
    else some (c :: s)

def parseNumber (s : Bytes) : Option Bytes := do
  let s ← parseInt (parseSign (· == chr '-') s)
  let s ← parseFrac s
  parseExp s

def parseLiteral (lit s : Bytes) : Option Bytes :=
  if lit.isPrefixOf s then some (s.drop lit.length) else none

mutual

def parseValue : Nat → Bytes → Except Stop Bytes
  | 0, _ => .error .exhausted
  | fuel + 1, s =>
    match skipWs s with
    | [] => .error .rejected
    | c :: s =>
      if c = chr '"' then orReject (parseString (c :: s))
      else if c = chr '\x7b' then parseObject fuel (c :: s)
      else if c = chr '[' then (parseArray fuel (c :: s)).map Prod.fst
      else if c = chr 't' then orReject (parseLiteral (ascii "true") (c :: s))
      else if c = chr 'f' then orReject (parseLiteral (ascii "false") (c :: s))
      else if c = chr 'n' then orReject (parseLiteral (ascii "null") (c :: s))
      else orReject (parseNumber (c :: s))

def parseObject : Nat → Bytes → Except Stop Bytes
  | 0, _ => .error .exhausted
  | _ + 1, [] => .error .rejected
  | fuel + 1, c :: s =>
    if c ≠ chr '\x7b' then .error .rejected
    else if (skipWs s).head? = some (chr '\x7d') then .ok (skipWs s).tail
    else parseMembers fuel (skipWs s)

/-- The loop of `parse_object`. -/
def parseMembers : Nat → Bytes → Except Stop Bytes
  | 0, _ => .error .exhausted
  | fuel + 1, s => do
    let s ← orReject (parseString s)
    match skipWs s with
    | [] => .error .rejected
    | c :: s =>
      if c ≠ chr ':' then .error .rejected
      else
        let s ← parseValue fuel s
        match skipWs s with
        | [] => .error .rejected
        | c :: s =>
          if c = chr '\x7d' then .ok s
          else if c ≠ chr ',' then .error .rejected
          else parseMembers fuel (skipWs s)

/-- The text behind the array, and the number of its elements. -/
def parseArray : Nat → Bytes → Except Stop (Bytes × Nat)
  | 0, _ => .error .exhausted
  | _ + 1, [] => .error .rejected
  | fuel + 1, c :: s =>
    if c ≠ chr '[' then .error .rejected
    else if (skipWs s).head? = some (chr ']') then .ok ((skipWs s).tail, 0)
    else parseElements fuel 0 (skipWs s)

/-- The loop of `parse_array`, after `items` elements. -/
def parseElements : Nat → Nat → Bytes → Except Stop (Bytes × Nat)
  | 0, _, _ => .error .exhausted
  | fuel + 1, items, s =>
    if s.isEmpty then .error .rejected
    else do
      let s ← parseValue fuel s
      match skipWs s with
      | [] => .error .rejected
      | c :: s =>
        if c = chr ']' then .ok (s, items + 1)
        else if c ≠ chr ',' then .error .rejected
        else parseElements fuel (items + 1) (skipWs s)

end

def parseTopLevelArraySize (fuel : Nat) (s : Bytes) : Except Stop Nat := do
  let (s, count) ← parseArray fuel (skipWs s)
  if (skipWs s).isEmpty then return count else throw .rejected

def enoughFuel (s : Bytes) : Nat := 3 * s.length + 3

-- ---------------------------------------------------------------------------
-- Strings
-- ---------------------------------------------------------------------------

open JsonText

theorem parseStringRest_sound {s rest : Bytes} (h : parseStringRest s = some rest) :
    ∃ items, (∀ i ∈ items, Item.Valid i) ∧ s = textOf items ++ chr '"' :: rest := by
  fun_induction parseStringRest s with
  | case2 s =>
    cases h
    exact ⟨[], by simp, rfl⟩
  | case4 h₁ h₂ h₃ h₄ s hx _ ih =>
    obtain ⟨items, hv, rfl⟩ := ih h
    simp only [Bool.and_eq_true] at hx
    refine ⟨.unit h₁ h₂ h₃ h₄ :: items, List.forall_mem_cons.mpr ⟨?_, hv⟩, rfl⟩
    exact ⟨hx.1.1.1, hx.1.1.2, hx.1.2, hx.2⟩
  | case7 esc s _ he _ ih =>
    obtain ⟨items, hv, rfl⟩ := ih h
    exact ⟨.escape esc :: items, List.forall_mem_cons.mpr ⟨List.contains_iff_mem.mp he, hv⟩, rfl⟩
  | case10 c s hq hs hc ih =>
    obtain ⟨items, hv, rfl⟩ := ih h
    exact ⟨.raw c :: items, List.forall_mem_cons.mpr ⟨⟨UInt8.not_lt.mp hc, hq, hs⟩, hv⟩, rfl⟩
  | _ => cases h

theorem parseStringRest_textOf {items : List Item} (hv : ∀ i ∈ items, i.Valid) (rest : Bytes) :
    parseStringRest (textOf items ++ chr '"' :: rest) = some rest := by
  induction items with
  | nil =>
    rw [textOf_nil, List.nil_append, parseStringRest.eq_def]
    simp
  | cons i items ih =>
    have hi := hv i (by simp)
    have ih := ih fun i hi => hv i (by simp [hi])
    have hq : chr '\\' ≠ chr '"' := by decide
    cases i with
    | raw b =>
      rw [textOf_cons, Item.text, List.cons_append, parseStringRest.eq_def]
      simp [hi.2.1, hi.2.2, UInt8.not_lt.mpr hi.1, ih]
    | escape c =>
      have hc : c ≠ chr 'u' := by
        rintro rfl
        exact absurd (show chr 'u' ∈ ascii "\"\\/bfnrt" from hi) (by decide)
      have hm : (ascii "\"\\/bfnrt").contains c = true := List.contains_iff_mem.mpr hi
      rw [textOf_cons, Item.text, List.cons_append, parseStringRest.eq_def]
      simp only [List.cons_append, List.nil_append, if_neg hq, if_true, if_neg hc, hm, ih]
    | unit h₁ h₂ h₃ h₄ =>
      obtain ⟨v₁, v₂, v₃, v₄⟩ := hi
      rw [textOf_cons, Item.text, List.cons_append, parseStringRest.eq_def]
      simp only [List.cons_append, List.nil_append, if_neg hq, if_true, v₁, v₂, v₃, v₄,
        Bool.and_self, ih]

theorem parseString_sound {s rest : Bytes} (h : parseString s = some rest) :
    ∃ items, (∀ i ∈ items, Item.Valid i) ∧ s = quoted items ++ rest := by
  unfold parseString at h
  split at h
  · cases h
  · split at h
    · next c s hc =>
      obtain ⟨items, hv, rfl⟩ := parseStringRest_sound h
      exact ⟨items, hv, by simp [quoted, hc]⟩
    · cases h

theorem parseString_quoted {items : List Item} (hv : ∀ i ∈ items, i.Valid) (rest : Bytes) :
    parseString (quoted items ++ rest) = some rest := by
  simp [quoted, parseString, parseStringRest_textOf hv]

-- ---------------------------------------------------------------------------
-- Numbers
-- ---------------------------------------------------------------------------

theorem parseDigits_sound {s rest : Bytes} (h : parseDigits s = some rest) :
    ∃ t, Digits t ∧ s = t ++ rest := by
  simp only [parseDigits, Option.ite_none_left_eq_some, Option.some.injEq] at h
  obtain ⟨hne, rfl⟩ := h
  refine ⟨s.takeWhile isdigit, ⟨fun he => hne ?_, fun c hc => List.mem_takeWhile_imp hc⟩,
    List.takeWhile_append_dropWhile.symm⟩
  have := congrArg List.length (List.takeWhile_append_dropWhile (p := isdigit) (l := s))
  simpa [he] using this

theorem parseDigits_append {t rest : Bytes} (ht : Digits t)
    (hr : ∀ c, rest.head? = some c → isdigit c = false) : parseDigits (t ++ rest) = some rest := by
  have hlen := List.length_pos_of_ne_nil ht.ne_nil
  simp only [parseDigits, dropWhile_append_rest ht.digit hr, List.length_append]
  rw [if_neg (by omega)]

theorem parseSign_sound (sign : UInt8 → Bool) (s : Bytes) :
    ∃ u, s = u ++ parseSign sign s ∧ (u = [] ∨ ∃ c, u = [c] ∧ sign c = true) := by
  unfold parseSign
  split
  · exact ⟨[], rfl, .inl rfl⟩
  · split
    · next c s hc => exact ⟨[c], rfl, .inr ⟨c, rfl, hc⟩⟩
    · exact ⟨[], rfl, .inl rfl⟩

theorem parseSign_of_not {sign : UInt8 → Bool} {s : Bytes}
    (h : ∀ c, s.head? = some c → sign c = false) : parseSign sign s = s := by
  cases s with
  | nil => rfl
  | cons c s => rw [parseSign, h c rfl, if_neg (by decide)]

theorem parseInt_sound {s rest : Bytes} (h : parseInt s = some rest) :
    ∃ t, IntPart t ∧ s = t ++ rest := by
  unfold parseInt at h
  split at h
  · cases h
  · split at h
    · next hc =>
      cases h
      exact ⟨[chr '0'], .zero, by rw [hc]; rfl⟩
    · next c s hc =>
      obtain ⟨t, ht, he⟩ := parseDigits_sound h
      refine ⟨t, .digits ht fun h0 => hc ?_, he⟩
      obtain ⟨c', t, rfl⟩ := List.exists_cons_of_ne_nil ht.ne_nil
      simp_all

theorem parseFrac_sound {s rest : Bytes} (h : parseFrac s = some rest) :
    ∃ t, FracPart t ∧ s = t ++ rest := by
  unfold parseFrac at h
  split at h
  · cases h
    exact ⟨[], .none, rfl⟩
  · split at h
    · next hc =>
      subst hc
      obtain ⟨t, ht, rfl⟩ := parseDigits_sound h
      exact ⟨_, .some ht, rfl⟩
    · cases h
      exact ⟨[], .none, rfl⟩

theorem parseExp_sound {s rest : Bytes} (h : parseExp s = some rest) :
    ∃ t, ExpPart t ∧ s = t ++ rest := by
  unfold parseExp at h
  split at h
  · cases h
    exact ⟨[], .none, rfl⟩
  · split at h
    · next c s hc =>
      obtain ⟨sign, hs, hsign⟩ := parseSign_sound (fun c => c == chr '+' || c == chr '-') s
      obtain ⟨t, ht, he⟩ := parseDigits_sound h
      refine ⟨c :: (sign ++ t), .some ?_ ?_ ht, ?_⟩
      · rcases hc with rfl | rfl <;> decide
      · rcases hsign with rfl | ⟨x, rfl, hx⟩
        · decide
        · rcases (Bool.or_eq_true _ _).mp hx with hx | hx <;> rw [beq_iff_eq.mp hx] <;> decide
      · rw [hs, he]
        simp
    · cases h
      exact ⟨[], .none, rfl⟩

theorem parseNumber_sound {s rest : Bytes} (h : parseNumber s = some rest) :
    ∃ t, Number t ∧ s = t ++ rest := by
  simp only [parseNumber, bind, Option.bind_eq_some_iff] at h
  obtain ⟨s₁, hi, s₂, hf, he⟩ := h
  obtain ⟨sign, hs, hsign⟩ := parseSign_sound (· == chr '-') s
  obtain ⟨int, hint, e₁⟩ := parseInt_sound hi
  obtain ⟨frac, hfrac, rfl⟩ := parseFrac_sound hf
  obtain ⟨exp, hexp, rfl⟩ := parseExp_sound he
  refine ⟨sign ++ int ++ frac ++ exp, .mk ?_ hint hfrac hexp, by rw [hs, e₁]; simp⟩
  rcases hsign with rfl | ⟨x, rfl, hx⟩
  · decide
  · rw [beq_iff_eq.mp hx]
    decide

/-- What follows does not continue a number. -/
def Ends (rest : Bytes) : Prop :=
  ∀ c, rest.head? = some c → isdigit c = false ∧ c ≠ chr '.' ∧ c ≠ chr 'e' ∧ c ≠ chr 'E'

theorem parseInt_append {t rest : Bytes} (ht : IntPart t)
    (hr : ∀ c, rest.head? = some c → isdigit c = false) : parseInt (t ++ rest) = some rest := by
  cases ht with
  | zero => simp [parseInt]
  | digits h h0 =>
    obtain ⟨c, t, rfl⟩ := List.exists_cons_of_ne_nil h.ne_nil
    have hc : c ≠ chr '0' := fun e => h0 (by simp [e])
    rw [List.cons_append, parseInt, if_neg hc, ← List.cons_append, parseDigits_append h hr]

theorem parseFrac_append {t rest : Bytes} (ht : FracPart t)
    (hr : ∀ c, rest.head? = some c → isdigit c = false ∧ c ≠ chr '.') :
    parseFrac (t ++ rest) = some rest := by
  cases ht with
  | none =>
    cases rest with
    | nil => rfl
    | cons c rest => rw [List.nil_append, parseFrac, if_neg (hr c rfl).2]
  | some h =>
    rw [List.cons_append, parseFrac, if_pos rfl, parseDigits_append h fun c hc => (hr c hc).1]

theorem parseExp_append {t rest : Bytes} (ht : ExpPart t) (hr : Ends rest) :
    parseExp (t ++ rest) = some rest := by
  cases ht with
  | none =>
    cases rest with
    | nil => rfl
    | cons c rest =>
      have hc := hr c rfl
      rw [List.nil_append, parseExp, if_neg (by simp [hc.2.2.1, hc.2.2.2])]
  | some he hs h =>
    rename_i e sign t
    have hall : ∀ x ∈ ascii "eE", x = chr 'e' ∨ x = chr 'E' :=
      List.all_iff_forall_prop.mp (by decide)
    have he := hall e he
    have hsign : parseSign (fun c => c == chr '+' || c == chr '-') (sign ++ (t ++ rest)) =
        t ++ rest := by
      simp only [List.mem_cons, List.not_mem_nil, or_false] at hs
      rcases hs with rfl | rfl | rfl
      · apply parseSign_of_not
        intro c hc
        obtain ⟨x, t, rfl, hx⟩ := h.starts
        obtain rfl : x = c := by simpa using hc
        by_contra hp
        simp only [Bool.not_eq_false, Bool.or_eq_true, beq_iff_eq] at hp
        rcases hp with rfl | rfl <;> exact absurd hx (by decide)
      · rfl
      · rfl
    rw [List.cons_append, parseExp, if_pos he, List.append_assoc, hsign,
      parseDigits_append h fun c hc => (hr c hc).1]

theorem head_expPart {t rest : Bytes} (ht : ExpPart t) (hr : Ends rest) (c : UInt8)
    (hc : (t ++ rest).head? = some c) : isdigit c = false ∧ c ≠ chr '.' := by
  cases ht with
  | none => exact ⟨(hr c hc).1, (hr c hc).2.1⟩
  | @some e _ _ he _ _ =>
    obtain rfl : e = c := by simpa using hc
    have hall : ∀ x ∈ ascii "eE", isdigit x = false ∧ x ≠ chr '.' :=
      List.all_iff_forall_prop.mp (by decide)
    exact hall e he

theorem head_fracPart {t u : Bytes} (ht : FracPart t)
    (hu : ∀ c, u.head? = some c → isdigit c = false) (c : UInt8)
    (hc : (t ++ u).head? = some c) : isdigit c = false := by
  cases ht with
  | none => exact hu c hc
  | some _ =>
    obtain rfl : chr '.' = c := by simpa using hc
    rfl

theorem parseNumber_append {t rest : Bytes} (ht : Number t) (hr : Ends rest) :
    parseNumber (t ++ rest) = some rest := by
  obtain ⟨hs, hi, hf, he⟩ := ht
  rename_i sign int frac exp
  have hsign : parseSign (· == chr '-') (sign ++ (int ++ (frac ++ (exp ++ rest)))) =
      int ++ (frac ++ (exp ++ rest)) := by
    simp only [List.mem_cons, List.not_mem_nil, or_false] at hs
    rcases hs with rfl | rfl
    · apply parseSign_of_not
      intro c hc
      obtain ⟨x, u, rfl, hd⟩ := hi.starts
      obtain rfl : x = c := by simpa using hc
      by_contra hp
      rw [Bool.not_eq_false, beq_iff_eq] at hp
      subst hp
      exact absurd hd (by decide)
    · rfl
  have hexp := head_expPart he hr
  have hint := parseInt_append hi (head_fracPart hf fun c hc => (hexp c hc).1)
  simp only [parseNumber, List.append_assoc, hsign, hint, parseFrac_append hf hexp,
    parseExp_append he hr, bind, Option.bind_some]

theorem parseLiteral_sound {lit s rest : Bytes} (h : parseLiteral lit s = some rest) :
    s = lit ++ rest := by
  unfold parseLiteral at h
  split at h
  · next hp =>
    cases h
    exact (List.prefix_iff_eq_append.mp (List.isPrefixOf_iff_prefix.mp hp)).symm
  · cases h

theorem parseLiteral_append (lit rest : Bytes) : parseLiteral lit (lit ++ rest) = some rest := by
  rw [parseLiteral, if_pos (List.isPrefixOf_iff_prefix.mpr (List.prefix_append _ _)),
    List.drop_left]

-- ---------------------------------------------------------------------------
-- What is accepted is in the grammar
-- ---------------------------------------------------------------------------

theorem skipWs_sound (s : Bytes) : ∃ w, Spaces isspace w ∧ s = w ++ skipWs s :=
  ⟨s.takeWhile isspace, fun _ hc => List.mem_takeWhile_imp hc,
    List.takeWhile_append_dropWhile.symm⟩

theorem bind_ok {α β : Type} {x : Except Stop α} {f : α → Except Stop β} {b : β}
    (h : (x >>= f) = .ok b) : ∃ a, x = .ok a ∧ f a = .ok b := by
  cases x with
  | error _ => cases h
  | ok a => exact ⟨a, rfl, h⟩

/-- The call does not run out of fuel, and what it accepts satisfies `P`. -/
def Good {α : Type} (x : Except Stop α) (P : α → Prop) : Prop :=
  match x with
  | .ok a => P a
  | .error .rejected => True
  | .error .exhausted => False

theorem Good.bind {α β : Type} {x : Except Stop α} {f : α → Except Stop β} {P : α → Prop}
    {Q : β → Prop} (hx : Good x P) (hf : ∀ a, P a → Good (f a) Q) : Good (x >>= f) Q := by
  cases x with
  | ok a => exact hf a hx
  | error e => cases e <;> exact hx

theorem Good.orReject {α : Type} {o : Option α} {P : α → Prop} (h : ∀ a, o = some a → P a) :
    Good (orReject o) P := by
  cases o with
  | none => trivial
  | some a => exact h a rfl

theorem Good.imp {α : Type} {x : Except Stop α} {P Q : α → Prop} (hx : Good x P)
    (h : ∀ a, P a → Q a) : Good x Q := by
  cases x with
  | ok a => exact h a hx
  | error e => cases e <;> exact hx

theorem Good.map {α β : Type} {x : Except Stop α} {f : α → β} {P : α → Prop} {Q : β → Prop}
    (hx : Good x P) (h : ∀ a, P a → Q (f a)) : Good (x.map f) Q := by
  cases x with
  | ok a => exact h a hx
  | error e => cases e <;> exact hx

def IsValue (s rest : Bytes) : Prop :=
  ∃ w t d, Spaces isspace w ∧ Value isspace t d ∧ s = w ++ (t ++ rest)

def IsObject (s rest : Bytes) : Prop := ∃ t d, Value isspace t d ∧ s = t ++ rest

def IsMembers (s rest : Bytes) : Prop :=
  ∃ t ms, Members isspace t ms ∧ s = t ++ chr '\x7d' :: rest

def IsArray (s : Bytes) (r : Bytes × Nat) : Prop :=
  ∃ t ds, Value isspace t (.array ds) ∧ ds.length = r.2 ∧ s = t ++ r.1

def IsElements (k : Nat) (s : Bytes) (r : Bytes × Nat) : Prop :=
  ∃ w t ds, Spaces isspace w ∧ Elements isspace t ds ∧ k + ds.length = r.2 ∧
    s = w ++ (t ++ chr ']' :: r.1)

structure Works (fuel : Nat) : Prop where
  value : ∀ s, 3 * s.length + 2 ≤ fuel → Good (parseValue fuel s) (IsValue s)
  object : ∀ s, 3 * s.length + 1 ≤ fuel → Good (parseObject fuel s) (IsObject s)
  members : ∀ s, 3 * s.length + 3 ≤ fuel → Good (parseMembers fuel s) (IsMembers s)
  array : ∀ s, 3 * s.length + 1 ≤ fuel → Good (parseArray fuel s) (IsArray s)
  elements : ∀ k s, 3 * s.length + 3 ≤ fuel → Good (parseElements fuel k s) (IsElements k s)

theorem spaces_append {w w' : Bytes} (h : Spaces isspace w) (h' : Spaces isspace w') :
    Spaces isspace (w ++ w') :=
  List.forall_mem_append.mpr ⟨h, h'⟩

theorem skipWs_length_le (s : Bytes) : (skipWs s).length ≤ s.length :=
  (List.dropWhile_suffix isspace).length_le

theorem IsValue.length_lt {s rest : Bytes} (h : IsValue s rest) : rest.length < s.length := by
  obtain ⟨w, t, d, -, hv, rfl⟩ := h
  obtain ⟨c, u, rfl, -⟩ := hv.starts
  simp only [List.length_append, List.length_cons]
  omega

theorem Works.succ_value (ih : Works fuel) (s : Bytes) (h : 3 * s.length + 2 ≤ fuel + 1) :
    Good (parseValue (fuel + 1) s) (IsValue s) := by
  obtain ⟨w, hw, hs⟩ := skipWs_sound s
  have hl := skipWs_length_le s
  rw [parseValue]
  generalize skipWs s = u at hs hl
  have behind {t rest : Bytes} {d : Doc} (hv : Value isspace t d) (hu : u = t ++ rest) :
      IsValue s rest := ⟨w, t, d, hw, hv, hu ▸ hs⟩
  cases u with
  | nil => trivial
  | cons c u =>
    simp only
    split
    · refine .orReject ?_
      intro rest hr
      obtain ⟨items, hv, hu⟩ := parseString_sound hr
      exact behind (.string hv) hu
    · split
      · apply (ih.object (c :: u) (by omega)).imp
        intro rest hr
        obtain ⟨t, d, hv, hu⟩ := hr
        exact behind hv hu
      · split
        · apply (ih.array (c :: u) (by omega)).map
          intro r hr
          obtain ⟨t, ds, hv, -, hu⟩ := hr
          exact behind hv hu
        · split
          · exact .orReject fun rest hr => behind (.name (by decide)) (parseLiteral_sound hr)
          · split
            · exact .orReject fun rest hr => behind (.name (by decide)) (parseLiteral_sound hr)
            · split
              · exact .orReject fun rest hr => behind (.name (by decide)) (parseLiteral_sound hr)
              · refine .orReject ?_
                intro rest hr
                obtain ⟨t, ht, hu⟩ := parseNumber_sound hr
                exact behind (.number ht) hu

theorem Works.succ_object (ih : Works fuel) (s : Bytes) (h : 3 * s.length + 1 ≤ fuel + 1) :
    Good (parseObject (fuel + 1) s) (IsObject s) := by
  cases s with
  | nil => trivial
  | cons c s =>
    obtain ⟨w, hw, hs⟩ := skipWs_sound s
    have hl := skipWs_length_le s
    rw [parseObject]
    generalize skipWs s = u at hs hl
    split
    · trivial
    · next hc =>
      obtain rfl := not_not.mp hc
      split
      · next hh =>
        obtain ⟨u, rfl⟩ : ∃ v, u = chr '\x7d' :: v := by
          cases u <;> simp_all
        exact ⟨_, _, .emptyObject hw, by simp [hs]⟩
      · apply (ih.members u (by simp at h; omega)).imp
        intro rest hr
        obtain ⟨t, ms, hm, rfl⟩ := hr
        exact ⟨_, _, .object hw hm, by simp [hs]⟩

theorem Works.succ_array (ih : Works fuel) (s : Bytes) (h : 3 * s.length + 1 ≤ fuel + 1) :
    Good (parseArray (fuel + 1) s) (IsArray s) := by
  cases s with
  | nil => trivial
  | cons c s =>
    obtain ⟨w, hw, hs⟩ := skipWs_sound s
    have hl := skipWs_length_le s
    rw [parseArray]
    generalize skipWs s = u at hs hl
    split
    · trivial
    · next hc =>
      obtain rfl := not_not.mp hc
      split
      · next hh =>
        obtain ⟨u, rfl⟩ : ∃ v, u = chr ']' :: v := by
          cases u <;> simp_all
        exact ⟨_, _, .emptyArray hw, rfl, by simp [hs]⟩
      · apply (ih.elements 0 u (by simp at h; omega)).imp
        intro r hr
        obtain ⟨w', t, ds, hw', he, hn, rfl⟩ := hr
        exact ⟨_, ds, .array (spaces_append hw hw') he, by simpa using hn, by simp [hs]⟩

theorem Works.succ_elements (ih : Works fuel) (k : Nat) (s : Bytes)
    (h : 3 * s.length + 3 ≤ fuel + 1) : Good (parseElements (fuel + 1) k s) (IsElements k s) := by
  rw [parseElements]
  split
  · trivial
  · apply (ih.value s (by omega)).bind
    intro s₁ hv
    have hlt := hv.length_lt
    obtain ⟨w, t, d, hw, hv, rfl⟩ := hv
    obtain ⟨w₁, hw₁, hs₁⟩ := skipWs_sound s₁
    have hl := skipWs_length_le s₁
    generalize skipWs s₁ = u at hs₁ hl
    cases u with
    | nil => trivial
    | cons c u =>
      simp only
      split
      · next hc =>
        subst hc hs₁
        exact ⟨w, _, [d], hw, .last hv hw₁, rfl, by simp⟩
      · split
        · trivial
        · next hc =>
          obtain rfl := not_not.mp hc
          obtain ⟨w₂, hw₂, hs₂⟩ := skipWs_sound u
          have hl₂ := skipWs_length_le u
          simp only [List.length_cons] at hl
          apply (ih.elements (k + 1) (skipWs u) (by omega)).imp
          intro r hr
          obtain ⟨w₃, ts, ds, hw₃, he, hn, hu⟩ := hr
          refine ⟨w, _, d :: ds, hw, .cons hv hw₁ (spaces_append hw₂ hw₃) he, ?_, ?_⟩
          · rw [List.length_cons, ← hn]
            omega
          · rw [hs₁, hs₂, hu]
            simp

theorem Works.succ_members (ih : Works fuel) (s : Bytes) (h : 3 * s.length + 3 ≤ fuel + 1) :
    Good (parseMembers (fuel + 1) s) (IsMembers s) := by
  rw [parseMembers]
  refine Good.bind (P := fun s₁ => ∃ items, (∀ i ∈ items, Item.Valid i) ∧ s = quoted items ++ s₁)
    (.orReject fun _ => parseString_sound) fun s₁ hk => ?_
  obtain ⟨items, hi, rfl⟩ := hk
  obtain ⟨w₁, hw₁, hs₁⟩ := skipWs_sound s₁
  have hl₁ := skipWs_length_le s₁
  generalize skipWs s₁ = u at hs₁ hl₁
  cases u with
  | nil => trivial
  | cons c u =>
    simp only
    split
    · trivial
    · next hc =>
      obtain rfl := not_not.mp hc
      simp only [List.length_append, List.length_cons] at h hl₁
      apply (ih.value u (by omega)).bind
      intro s₂ hv
      have hlt := hv.length_lt
      obtain ⟨w₂, t, d, hw₂, hv, rfl⟩ := hv
      have member := Member.mk hi hw₁ hw₂ hv
      obtain ⟨w₃, hw₃, hs₃⟩ := skipWs_sound s₂
      have hl₃ := skipWs_length_le s₂
      generalize skipWs s₂ = v at hs₃ hl₃
      cases v with
      | nil => trivial
      | cons c v =>
        simp only
        split
        · next hc =>
          subst hc hs₃
          exact ⟨_, _, .last member hw₃, by rw [hs₁]; simp⟩
        · split
          · trivial
          · next hc =>
            obtain rfl := not_not.mp hc
            obtain ⟨w₄, hw₄, hs₄⟩ := skipWs_sound v
            have hl₄ := skipWs_length_le v
            simp only [List.length_cons] at hl₃
            apply (ih.members (skipWs v) (by omega)).imp
            intro rest hr
            obtain ⟨ts, ms, hms, hu⟩ := hr
            exact ⟨_, _, .cons member hw₃ hw₄ hms, by rw [hs₁, hs₃, hs₄, hu]; simp⟩

theorem works (fuel : Nat) : Works fuel := by
  induction fuel with
  | zero => constructor <;> intros <;> omega
  | succ fuel ih =>
    exact ⟨ih.succ_value, ih.succ_object, ih.succ_members, ih.succ_array, ih.succ_elements⟩

-- ---------------------------------------------------------------------------
-- What is in the grammar is accepted
-- ---------------------------------------------------------------------------

theorem skipWs_starts {w t u : Bytes} (hw : Spaces isspace w) (ht : Starts t) :
    skipWs (w ++ (t ++ u)) = t ++ u := by
  obtain ⟨c, v, rfl, hc⟩ := ht
  apply dropWhile_append_rest hw
  intro x hx
  obtain rfl : c = x := by simpa using hx
  exact isspace_of_startByte hc

theorem skipWs_cons {w u : Bytes} {c : UInt8} (hw : Spaces isspace w) (hc : isspace c = false) :
    skipWs (w ++ c :: u) = c :: u :=
  dropWhile_append_rest hw fun x hx => by
    obtain rfl : c = x := by simpa using hx
    exact hc

theorem ends_cons {w u : Bytes} {c : UInt8} (hw : Spaces isspace w) (hc : c ∈ ascii ",]\x7d") :
    Ends (w ++ c :: u) := by
  have hends : ∀ x, isspace x = true ∨ x ∈ ascii ",]\x7d" →
      isdigit x = false ∧ x ≠ chr '.' ∧ x ≠ chr 'e' ∧ x ≠ chr 'E' := by
    rintro x (hx | hx)
    · have ne {y : UInt8} (hy : isspace y = false) : x ≠ y := by
        rintro rfl
        simp [hx] at hy
      refine ⟨?_, ne (by decide), ne (by decide), ne (by decide)⟩
      by_contra hd
      simp [isspace_of_isdigit (Bool.of_not_eq_false hd)] at hx
    · have hall : ∀ x ∈ ascii ",]\x7d", isdigit x = false ∧ x ≠ chr '.' ∧ x ≠ chr 'e' ∧
          x ≠ chr 'E' := List.all_iff_forall_prop.mp (by decide)
      exact hall x hx
  intro x hx
  cases w with
  | nil =>
    obtain rfl : c = x := by simpa using hx
    exact hends c (.inr hc)
  | cons y w =>
    obtain rfl : y = x := by simpa using hx
    exact hends y (.inl (hw y (by simp)))

theorem head_ne_of_starts {t u : Bytes} {x : UInt8} (ht : Starts t) (hx : startByte x = false) :
    (t ++ u).head? ≠ some x := by
  obtain ⟨c, v, rfl, hc⟩ := ht
  simpa using ne_of_startByte hc hx

theorem complete_string {items : List Item} {fuel : Nat} {w rest : Bytes}
    (hv : ∀ i ∈ items, i.Valid) (hw : Spaces isspace w) :
    parseValue (fuel + 1) (w ++ (quoted items ++ rest)) = .ok rest := by
  rw [parseValue, skipWs_starts hw (starts_quoted items), quoted, List.cons_append]
  simp only [if_true]
  rw [← List.cons_append, ← quoted, parseString_quoted hv]
  rfl

theorem complete_number {t w rest : Bytes} {fuel : Nat} (ht : Number t) (hw : Spaces isspace w)
    (hr : Ends rest) : parseValue (fuel + 1) (w ++ (t ++ rest)) = .ok rest := by
  rw [parseValue, skipWs_starts hw (show Value isspace t (.scalar t) from .number ht).starts]
  have hp := parseNumber_append ht hr
  obtain ⟨c, u, rfl, hc⟩ := ht.starts
  have ne {x : UInt8} (hx : isdigit x = false) (hx' : x ≠ chr '-') : c ≠ x := by
    rintro rfl
    simp_all
  simp only [List.cons_append] at hp ⊢
  rw [if_neg (ne (by decide) (by decide)), if_neg (ne (by decide) (by decide)),
    if_neg (ne (by decide) (by decide)), if_neg (ne (by decide) (by decide)),
    if_neg (ne (by decide) (by decide)), if_neg (ne (by decide) (by decide)), hp]
  rfl

theorem complete_name {t w rest : Bytes} {fuel : Nat} (ht : t ∈ names) (hw : Spaces isspace w) :
    parseValue (fuel + 1) (w ++ (t ++ rest)) = .ok rest := by
  rw [parseValue, skipWs_starts hw (show Value isspace t (.scalar t) from .name ht).starts]
  simp only [names, List.mem_cons, List.not_mem_nil, or_false] at ht
  rcases ht with rfl | rfl | rfl
  · exact congrArg orReject (parseLiteral_append (ascii "true") rest)
  · exact congrArg orReject (parseLiteral_append (ascii "false") rest)
  · exact congrArg orReject (parseLiteral_append (ascii "null") rest)

theorem value_array {t w rest : Bytes} {fuel n : Nat} (hw : Spaces isspace w)
    (h : parseArray fuel (chr '[' :: t) = .ok (rest, n)) :
    parseValue (fuel + 1) (w ++ chr '[' :: t) = .ok rest := by
  rw [parseValue, skipWs_cons hw (by decide)]
  exact congrArg (Except.map Prod.fst) h

theorem value_object {t w rest : Bytes} {fuel : Nat} (hw : Spaces isspace w)
    (h : parseObject fuel (chr '\x7b' :: t) = .ok rest) :
    parseValue (fuel + 1) (w ++ chr '\x7b' :: t) = .ok rest := by
  rw [parseValue, skipWs_cons hw (by decide)]
  exact h

theorem array_empty {w : Bytes} (fuel : Nat) (rest : Bytes) (hw : Spaces isspace w) :
    parseArray (fuel + 1) (chr '[' :: (w ++ chr ']' :: rest)) = .ok (rest, 0) := by
  rw [parseArray, if_neg (by simp), skipWs_cons hw (by decide)]
  rfl

theorem object_empty {w : Bytes} (fuel : Nat) (rest : Bytes) (hw : Spaces isspace w) :
    parseObject (fuel + 1) (chr '\x7b' :: (w ++ chr '\x7d' :: rest)) = .ok rest := by
  rw [parseObject, if_neg (by simp), skipWs_cons hw (by decide)]
  rfl

theorem array_elements {w t rest : Bytes} {fuel n : Nat} (hw : Spaces isspace w) (ht : Starts t)
    (h : parseElements fuel 0 (t ++ chr ']' :: rest) = .ok (rest, n)) :
    parseArray (fuel + 1) (chr '[' :: (w ++ (t ++ chr ']' :: rest))) = .ok (rest, n) := by
  rw [parseArray, if_neg (by simp), skipWs_starts hw ht, if_neg (head_ne_of_starts ht (by decide)),
    h]

theorem object_members {w t rest : Bytes} {fuel : Nat} (hw : Spaces isspace w) (ht : Starts t)
    (h : parseMembers fuel (t ++ chr '\x7d' :: rest) = .ok rest) :
    parseObject (fuel + 1) (chr '\x7b' :: (w ++ (t ++ chr '\x7d' :: rest))) = .ok rest := by
  rw [parseObject, if_neg (by simp), skipWs_starts hw ht, if_neg (head_ne_of_starts ht (by decide)),
    h]

theorem elements_last {s s' rest : Bytes} {fuel k : Nat} (hs : s ≠ [])
    (h : parseValue fuel s = .ok s') (hr : skipWs s' = chr ']' :: rest) :
    parseElements (fuel + 1) k s = .ok (rest, k + 1) := by
  rw [parseElements, if_neg (by simpa using hs), h]
  simp [bind, Except.bind, hr]

theorem elements_next {s s' u : Bytes} {fuel k : Nat} (hs : s ≠ [])
    (h : parseValue fuel s = .ok s') (hr : skipWs s' = chr ',' :: u) :
    parseElements (fuel + 1) k s = parseElements fuel (k + 1) (skipWs u) := by
  have hc : chr ',' ≠ chr ']' := by decide
  rw [parseElements, if_neg (by simpa using hs), h]
  simp [bind, Except.bind, hr, hc]

theorem members_last {s s₁ s₂ u rest : Bytes} {fuel : Nat} (hk : parseString s = some s₁)
    (hcolon : skipWs s₁ = chr ':' :: u) (h : parseValue fuel u = .ok s₂)
    (hr : skipWs s₂ = chr '\x7d' :: rest) : parseMembers (fuel + 1) s = .ok rest := by
  rw [parseMembers, hk]
  simp [bind, Except.bind, orReject, hcolon, h, hr]

theorem members_next {s s₁ s₂ u v : Bytes} {fuel : Nat} (hk : parseString s = some s₁)
    (hcolon : skipWs s₁ = chr ':' :: u) (h : parseValue fuel u = .ok s₂)
    (hr : skipWs s₂ = chr ',' :: v) : parseMembers (fuel + 1) s = parseMembers fuel (skipWs v) := by
  have hc : chr ',' ≠ chr '\x7d' := by decide
  rw [parseMembers, hk]
  simp [bind, Except.bind, orReject, hcolon, h, hr, hc]

mutual

theorem complete_value : ∀ {t d} fuel {w rest}, Value isspace t d → Spaces isspace w → Ends rest →
    3 * (w ++ (t ++ rest)).length + 2 ≤ fuel → parseValue fuel (w ++ (t ++ rest)) = .ok rest
  | _, _, 0, _, _, _, _, _, hf => by omega
  | _, _, 1, _, _, h, _, _, hf => by
    obtain ⟨c, u, rfl, -⟩ := h.starts
    simp at hf
  | _, _, fuel + 2, w, rest, .string hv, hw, _, _ => complete_string hv hw
  | _, _, fuel + 2, w, rest, .number hn, hw, hr, _ => complete_number hn hw hr
  | _, _, fuel + 2, w, rest, .name hn, hw, _, _ => complete_name hn hw
  | _, _, fuel + 2, w, rest, .emptyArray hw', hw, _, hf => by
    simpa using value_array hw (array_empty fuel rest hw')
  | _, _, fuel + 2, w, rest, .array hw' he, hw, _, hf => by
    have hes := complete_elements fuel 0 rest he (by simp at hf ⊢; omega)
    simpa using value_array hw (array_elements hw' he.starts hes)
  | _, _, fuel + 2, w, rest, .emptyObject hw', hw, _, hf => by
    simpa using value_object hw (object_empty fuel rest hw')
  | _, _, fuel + 2, w, rest, .object hw' hm, hw, _, hf => by
    have hms := complete_members fuel rest hm (by simp at hf ⊢; omega)
    simpa using value_object hw (object_members hw' hm.starts hms)

theorem complete_elements : ∀ {t ds} fuel k rest, Elements isspace t ds →
    3 * (t ++ chr ']' :: rest).length + 3 ≤ fuel →
    parseElements fuel k (t ++ chr ']' :: rest) = .ok (rest, k + ds.length)
  | _, _, 0, _, _, _, hf => by omega
  | _, _, fuel + 1, k, rest, .last hv hw, hf => by
    have h := complete_value fuel (w := []) hv (by simp [Spaces])
      (ends_cons (u := rest) hw (c := chr ']') (by decide)) (by simp at hf ⊢; omega)
    rw [List.nil_append] at h
    rw [List.append_assoc]
    exact elements_last (by simp) h (skipWs_cons hw (by decide))
  | _, _, fuel + 1, k, rest, @Elements.cons _ _ _ w' ts _ _ hv hw hw' he, hf => by
    have h := complete_value fuel (w := []) hv (by simp [Spaces])
      (ends_cons (u := w' ++ (ts ++ chr ']' :: rest)) hw (c := chr ',') (by decide))
      (by simp at hf ⊢; omega)
    have hes := complete_elements fuel (k + 1) rest he
      (by simp at hf ⊢; omega)
    rw [List.nil_append] at h
    simp only [List.append_assoc, List.cons_append]
    rw [elements_next (by simp) h (skipWs_cons hw (by decide)), skipWs_starts hw' he.starts, hes,
      List.length_cons, Nat.add_assoc, Nat.add_comm 1]

theorem complete_members : ∀ {t ms} fuel rest, Members isspace t ms →
    3 * (t ++ chr '\x7d' :: rest).length + 3 ≤ fuel →
    parseMembers fuel (t ++ chr '\x7d' :: rest) = .ok rest
  | _, _, 0, _, _, hf => by omega
  | _, _, fuel + 1, rest, .last hm hw, hf => by
    have hends := ends_cons (u := rest) hw (c := chr '\x7d') (by decide)
    rw [List.append_assoc] at hf ⊢
    obtain ⟨s₁, u, s₂, hk, hcolon, h, rfl⟩ := complete_member fuel hm hends hf
    exact members_last hk hcolon h (skipWs_cons hw (by decide))
  | _, _, fuel + 1, rest, @Members.cons _ _ _ w' ts _ _ hm hw hw' hms, hf => by
    have hends := ends_cons (u := w' ++ (ts ++ chr '\x7d' :: rest)) hw (c := chr ',') (by decide)
    have hrest := complete_members fuel rest hms (by simp at hf ⊢; omega)
    simp only [List.append_assoc, List.cons_append] at hf ⊢
    obtain ⟨s₁, u, s₂, hk, hcolon, h, rfl⟩ := complete_member fuel hm hends hf
    rw [members_next hk hcolon h (skipWs_cons hw (by decide)), skipWs_starts hw' hms.starts, hrest]

theorem complete_member : ∀ {t m} fuel {rest}, Member isspace t m → Ends rest →
    3 * (t ++ rest).length + 3 ≤ fuel + 1 →
    ∃ s₁ u s₂, parseString (t ++ rest) = some s₁ ∧ skipWs s₁ = chr ':' :: u ∧
      parseValue fuel u = .ok s₂ ∧ s₂ = rest
  | _, _, fuel, rest, @Member.mk _ items w w' t _ hi hw hw' hv, hr, hf => by
    have h := complete_value fuel hv hw' hr (by simp at hf ⊢; omega)
    refine ⟨w ++ chr ':' :: (w' ++ (t ++ rest)), _, rest, ?_, skipWs_cons hw (by decide), h, rfl⟩
    simpa using parseString_quoted hi (w ++ chr ':' :: (w' ++ (t ++ rest)))

end

-- ---------------------------------------------------------------------------
-- The whole text
-- ---------------------------------------------------------------------------

theorem parseArray_of_value {t : Bytes} {ds : List Doc} (fuel : Nat) (rest : Bytes)
    (h : Value isspace t (.array ds)) (hf : 3 * (t ++ rest).length + 1 ≤ fuel) :
    parseArray fuel (t ++ rest) = .ok (rest, ds.length) := by
  obtain ⟨fuel, rfl⟩ : ∃ f, fuel = f + 1 := ⟨fuel - 1, by omega⟩
  cases h with
  | emptyArray hw => simpa using array_empty fuel rest hw
  | array hw he =>
    have hes := complete_elements fuel 0 rest he (by simp at hf ⊢; omega)
    simpa using array_elements hw he.starts hes

/-- With enough fuel the recogniser accepts the array texts, with the number
of their elements, and rejects all others. -/
theorem parseTopLevelArraySize_iff (body : Bytes) (n : Nat) :
    parseTopLevelArraySize (enoughFuel body) body = .ok n ↔
      ∃ ds, Text isspace body (.array ds) ∧ ds.length = n := by
  constructor
  · intro h
    obtain ⟨⟨rest, k⟩, ha, h⟩ := bind_ok h
    simp only at h
    split at h
    · next he =>
      cases h
      obtain ⟨w, hw, hs⟩ := skipWs_sound body
      obtain ⟨w', hw', hs'⟩ := skipWs_sound rest
      have hl := skipWs_length_le body
      have hg := (works (enoughFuel body)).array (skipWs body) (by simp only [enoughFuel]; omega)
      rw [ha] at hg
      obtain ⟨t, ds, hv, hn, ht⟩ := hg
      rw [List.isEmpty_iff.mp he, List.append_nil] at hs'
      subst hs'
      exact ⟨ds, by rw [hs, ht, ← List.append_assoc]; exact .mk hw hv hw', hn⟩
    · cases h
  · rintro ⟨ds, ⟨hw, hv, hw'⟩, rfl⟩
    rename_i w t w'
    have hend : skipWs w' = [] := List.dropWhile_eq_nil_iff.mpr hw'
    have ha := parseArray_of_value (enoughFuel (w ++ t ++ w')) w' hv
      (by simp only [enoughFuel, List.length_append]; omega)
    rw [parseTopLevelArraySize, List.append_assoc, skipWs_starts hw hv.starts,
      ← List.append_assoc, ha]
    simp [bind, Except.bind, hend, pure, Except.pure]

theorem parseTopLevelArraySize_ne_exhausted (body : Bytes) :
    parseTopLevelArraySize (enoughFuel body) body ≠ .error .exhausted := by
  have hl := skipWs_length_le body
  have hg := (works (enoughFuel body)).array (skipWs body) (by simp only [enoughFuel]; omega)
  have htop : Good (parseTopLevelArraySize (enoughFuel body) body) fun _ => True := by
    refine hg.bind fun ⟨s, count⟩ _ => ?_
    simp only
    split <;> trivial
  intro he
  rw [he] at htop
  exact htop

end CtCheck

-- ---------------------------------------------------------------------------
-- `ct_check`
-- ---------------------------------------------------------------------------

structure HttpResp where
  status : Int := 0
  body : Bytes := []
  err : Bytes := []
  ms : Int := 0

def HttpResp.ok (r : HttpResp) : Bool := 200 ≤ r.status && r.status < 400

def kCtCheckSha256HexLength : Nat := 64
def kCtCheckHttpTimeoutMs : Int := 5000
def kCtCheckMaxLogEntries : Nat := 50

structure CtCheck where
  queried : Bool := false
  found : Bool := false
  logEntries : Int := 0
  err : Bytes := []
  deriving DecidableEq, Repr

def ctUrl (certSha256 : Bytes) : Bytes :=
  ascii "https://crt.sh/?q=" ++ certSha256 ++ ascii "&output=json"

def ctCheck (httpGet : Bytes → Int → HttpResp) (certSha256 : Bytes) (allowRemote : Bool) :
    CtCheck :=
  if certSha256.length ≠ kCtCheckSha256HexLength then { err := ascii "invalid sha256" }
  else if !certSha256.all isxdigit then { err := ascii "invalid sha256" }
  else if !allowRemote then { err := ascii "remote query disabled" }
  else
    let h := httpGet (ctUrl certSha256) kCtCheckHttpTimeoutMs
    if !h.ok then { queried := true, err := ascii "http " ++ ascii (toString h.status) }
    else
      match CtCheck.parseTopLevelArraySize (CtCheck.enoughFuel h.body) h.body with
      | .error _ => { queried := true, err := ascii "json parse" }
      | .ok count =>
        { queried := true
          found := 0 < count
          logEntries := if 0 < count then (min count kCtCheckMaxLogEntries : Nat) else 0 }

namespace CtCheck

open JsonText

variable {httpGet : Bytes → Int → HttpResp} {certSha256 : Bytes}

theorem counted_of_err_eq_nil (hl : certSha256.length = kCtCheckSha256HexLength)
    (hx : certSha256.all isxdigit = true) (herr : (ctCheck httpGet certSha256 true).err = []) :
    ∃ count, (httpGet (ctUrl certSha256) kCtCheckHttpTimeoutMs).ok = true ∧
      parseTopLevelArraySize (enoughFuel (httpGet (ctUrl certSha256) kCtCheckHttpTimeoutMs).body)
        (httpGet (ctUrl certSha256) kCtCheckHttpTimeoutMs).body = .ok count ∧
      (ctCheck httpGet certSha256 true).found = decide (0 < count) ∧
      (ctCheck httpGet certSha256 true).logEntries = (min count kCtCheckMaxLogEntries : Nat) := by
  rw [ctCheck, if_neg (by simp [hl]), if_neg (by simp [hx]), if_neg (by simp)] at herr ⊢
  generalize httpGet (ctUrl certSha256) kCtCheckHttpTimeoutMs = h at herr ⊢
  simp only at herr ⊢
  cases hok : h.ok with
  | false => simp [hok, ascii] at herr
  | true =>
    simp only [hok, Bool.not_true, Bool.false_eq_true, if_false] at herr ⊢
    cases hp : parseTopLevelArraySize (enoughFuel h.body) h.body with
    | error e => simp [hp, ascii] at herr
    | ok count =>
      refine ⟨count, trivial, rfl, rfl, ?_⟩
      simp only
      split
      · rfl
      · next hc =>
        obtain rfl : count = 0 := by omega
        rfl

/-- The recogniser is exact, and so a check without an error is about the
elements of a well-formed array. -/
theorem ctCheck_exact (body : Bytes) :
    (∀ count, parseTopLevelArraySize (enoughFuel body) body = .ok count ↔
      ∃ ds, Text isspace body (.array ds) ∧ ds.length = count) ∧
    parseTopLevelArraySize (enoughFuel body) body ≠ .error .exhausted ∧
    ∀ (httpGet : Bytes → Int → HttpResp) (certSha256 : Bytes),
      certSha256.length = 64 → certSha256.all isxdigit = true →
      (httpGet (ctUrl certSha256) kCtCheckHttpTimeoutMs).body = body →
      (ctCheck httpGet certSha256 true).err = [] →
        ((ctCheck httpGet certSha256 true).found = false →
          (httpGet (ctUrl certSha256) kCtCheckHttpTimeoutMs).ok = true ∧
            Text isspace body (.array [])) ∧
        ∃ ds, Text isspace body (.array ds) ∧
          (ctCheck httpGet certSha256 true).logEntries = (min ds.length 50 : Nat) := by
  refine ⟨parseTopLevelArraySize_iff body, parseTopLevelArraySize_ne_exhausted body, ?_⟩
  intro httpGet certSha256 hl hx hb herr
  obtain ⟨count, hok, hp, hf, he⟩ := counted_of_err_eq_nil hl hx herr
  rw [hb] at hp
  obtain ⟨ds, ht, rfl⟩ := (parseTopLevelArraySize_iff body count).mp hp
  refine ⟨fun hfound => ⟨hok, ?_⟩, ds, ht, he⟩
  rw [hfound] at hf
  obtain rfl : ds = [] := by simpa using hf.symm
  exact ht

theorem ctCheck_exact_empty :
    Text isspace (ascii " [ ]") (.array []) ∧
      (ctCheck (fun _ _ => { status := 200, body := ascii " [ ]" })
        (List.replicate 64 (chr '0')) true).found = false := by
  have hc := ctCheck_exact (ascii " [ ]")
  have h := hc.2.2 (fun _ _ => { status := 200, body := ascii " [ ]" })
    (List.replicate 64 (chr '0')) (by decide) (by decide) rfl (by decide)
  exact ⟨(h.1 (by decide)).2, by decide⟩

end CtCheck

end ByeByeVpn
