import ByeByeVpn.Lib.Bytes

/-!
# The JSON reader (`namespace JSON` and `json_get_str` in `core/utils.cpp`)

The reader is lenient and keeps its place as an index into the body. Its
loops need not end, so `parse` takes fuel, and `Parses` is the fuel-free
reading of a call that returns. Fuel counts nested calls and iterations, and
the lemmas about a call say what it does in terms of the calls it makes.
-/

namespace ByeByeVpn

namespace JSON

-- ---------------------------------------------------------------------------
-- Values
-- ---------------------------------------------------------------------------

/-- `o` is a `std::map`; `order` lists its keys as they were first met. -/
inductive Value
  | mk (s : Bytes) (o : List (Bytes × Value)) (order : List Bytes) (a : List Value)
      (isObj isArr : Bool)

/-- `m[k] = v`. -/
def assign {ν : Type} (k : Bytes) (v : ν) : List (Bytes × ν) → List (Bytes × ν)
  | [] => [(k, v)]
  | (k', v') :: m => if k' = k then (k, v) :: m else (k', v') :: assign k v m

namespace Value

def empty : Value := ⟨[], [], [], [], false, false⟩

def ofText (s : Bytes) : Value := ⟨s, [], [], [], false, false⟩

def object (o : List (Bytes × Value)) (order : List Bytes) : Value :=
  ⟨[], o, order, [], true, false⟩

def array (a : List Value) : Value := ⟨[], [], [], a, false, true⟩

def s : Value → Bytes
  | ⟨s, _, _, _, _, _⟩ => s

end Value

-- ---------------------------------------------------------------------------
-- Strings
-- ---------------------------------------------------------------------------

def hexVal (c : UInt8) : Option Nat :=
  if chr '0' ≤ c ∧ c ≤ chr '9' then some (c.toNat - 48)
  else if chr 'a' ≤ c ∧ c ≤ chr 'f' then some (c.toNat - 87)
  else if chr 'A' ≤ c ∧ c ≤ chr 'F' then some (c.toNat - 55)
  else none

/-- The four hex digits at the start of `s`. -/
def parseU16 : Bytes → Option Nat
  | c₁ :: c₂ :: c₃ :: c₄ :: _ => do
    let d₁ ← hexVal c₁
    let d₂ ← hexVal c₂
    let d₃ ← hexVal c₃
    let d₄ ← hexVal c₄
    return ((d₁ <<< 4 ||| d₂) <<< 4 ||| d₃) <<< 4 ||| d₄
  | _ => none

def appendUtf8 (cp : Nat) : Bytes :=
  if cp ≤ 0x7F then [.ofNat cp]
  else if cp ≤ 0x7FF then [.ofNat (0xC0 ||| cp >>> 6), .ofNat (0x80 ||| cp &&& 0x3F)]
  else if cp ≤ 0xFFFF then
    [.ofNat (0xE0 ||| cp >>> 12), .ofNat (0x80 ||| (cp >>> 6) &&& 0x3F),
      .ofNat (0x80 ||| cp &&& 0x3F)]
  else if cp ≤ 0x10FFFF then
    [.ofNat (0xF0 ||| cp >>> 18), .ofNat (0x80 ||| (cp >>> 12) &&& 0x3F),
      .ofNat (0x80 ||| (cp >>> 6) &&& 0x3F), .ofNat (0x80 ||| cp &&& 0x3F)]
  else [0xEF, 0xBF, 0xBD]

def unescapeChar (c : UInt8) : UInt8 :=
  if c = chr 'b' then 8
  else if c = chr 'f' then 12
  else if c = chr 'n' then 10
  else if c = chr 'r' then 13
  else if c = chr 't' then 9
  else c

def lowSurrogate : Bytes → Option Nat
  | c₁ :: c₂ :: s =>
    if c₁ = chr '\\' ∧ c₂ = chr 'u' then
      (parseU16 s).filter fun u => 0xDC00 ≤ u ∧ u ≤ 0xDFFF
    else none
  | _ => none

def unescape (s : Bytes) : Bytes :=
  match s with
  | [] => []
  | [c] => [c]
  | c :: e :: t =>
    if c ≠ chr '\\' then c :: unescape (e :: t)
    else if e ≠ chr 'u' then unescapeChar e :: unescape t
    else
      match parseU16 t with
      | none => chr '?' :: unescape t
      | some u₁ =>
        match (if 0xD800 ≤ u₁ ∧ u₁ ≤ 0xDBFF then lowSurrogate (t.drop 4) else none) with
        | some u₂ =>
          appendUtf8 (0x10000 + ((u₁ - 0xD800) <<< 10 ||| (u₂ - 0xDC00))) ++ unescape (t.drop 10)
        | none =>
          -- A lone surrogate is not a scalar value.
          appendUtf8 (if 0xD800 ≤ u₁ ∧ u₁ ≤ 0xDFFF then 0xFFFD else u₁) ++ unescape (t.drop 4)
termination_by s.length
decreasing_by all_goals simp only [List.length_cons, List.length_drop]; omega

/-- How far it is to the quote that ends the string. -/
def stringLength : Bool → Bytes → Nat
  | _, [] => 0
  | true, _ :: b => stringLength false b + 1
  | false, c :: b =>
    if c = chr '\\' then stringLength true b + 1
    else if c = chr '"' then 0
    else stringLength false b + 1

-- ---------------------------------------------------------------------------
-- The parser
-- ---------------------------------------------------------------------------

/-- `while (i < b.size() && p(b.at(i))) ++i;` -/
def skipWhile (p : UInt8 → Bool) (b : Bytes) (i : Nat) : Nat :=
  i + ((b.drop i).takeWhile p).length

def skipSpace (b : Bytes) (i : Nat) : Nat := skipWhile isspace b i

def skipSpaceOr (c : UInt8) (b : Bytes) (i : Nat) : Nat :=
  skipWhile (fun x => isspace x || x == c) b i

/-- A scalar ends here. -/
def isDelim (c : UInt8) : Bool := c == chr ',' || c == chr '}' || c == chr ']' || isspace c

/-- `if (i < b.size()) ++i;` -/
def next (b : Bytes) (i : Nat) : Nat := if i < b.length then i + 1 else i

/-- A string whose opening quote is just before `start`. -/
def parseString (b : Bytes) (start : Nat) : Value × Nat :=
  let stop := start + stringLength false (b.drop start)
  (.ofText (unescape ((b.drop start).take (stop - start))), next b stop)

def parseScalar (b : Bytes) (start : Nat) : Value × Nat :=
  let stop := skipWhile (fun c => !isDelim c) b start
  (.ofText ((b.drop start).take (stop - start)), stop)

mutual

def parse : Nat → Bytes → Nat → Option (Value × Nat)
  | 0, _, _ => none
  | fuel + 1, b, i =>
    let i := skipSpace b i
    match b[i]? with
    | none => some (.empty, i)
    | some c =>
      if c = chr '"' then some (parseString b (i + 1))
      else if c = chr '\x7b' then parseObject fuel b [] [] (i + 1)
      else if c = chr '[' then parseArray fuel b [] (i + 1)
      else some (parseScalar b i)

/-- The loop over the members, with what it has collected so far. -/
def parseObject : Nat → Bytes → List (Bytes × Value) → List Bytes → Nat → Option (Value × Nat)
  | 0, _, _, _, _ => none
  | fuel + 1, b, o, order, i =>
    if b[i]? = none ∨ b[i]? = some (chr '\x7d') then some (.object o order, next b i)
    else do
      let (key, i) ← parse fuel b i
      let i := skipSpaceOr (chr ':') b i
      let order := if (o.lookup key.s).isNone then order ++ [key.s] else order
      let (value, i) ← parse fuel b i
      let i := skipSpaceOr (chr ',') b i
      parseObject fuel b (assign key.s value o) order i

def parseArray : Nat → Bytes → List Value → Nat → Option (Value × Nat)
  | 0, _, _, _ => none
  | fuel + 1, b, a, i =>
    if b[i]? = none ∨ b[i]? = some (chr ']') then some (.array a, next b i)
    else do
      let (element, i) ← parse fuel b i
      let i := skipSpaceOr (chr ',') b i
      parseArray fuel b (a ++ [element]) i

end

-- ---------------------------------------------------------------------------
-- The search
-- ---------------------------------------------------------------------------

def firstNonEmpty (results : List Bytes) : Bytes := (results.find? (!·.isEmpty)).getD []

mutual

def findKey (key : Bytes) : Value → Bytes
  | ⟨_, o, order, a, isObj, isArr⟩ =>
    match (if isObj then o.lookup key else none) with
    | some member => member.s
    | none =>
      let hits := findMembers key o
      let members := if isObj then order.filterMap fun k => hits.lookup k else []
      let elements := if isArr then findElements key a else []
      firstNonEmpty (members ++ elements)

def findMembers (key : Bytes) : List (Bytes × Value) → List (Bytes × Bytes)
  | [] => []
  | (k, v) :: o => (k, findKey key v) :: findMembers key o

def findElements (key : Bytes) : List Value → List Bytes
  | [] => []
  | v :: a => findKey key v :: findElements key a

end

-- ---------------------------------------------------------------------------
-- The cursor
-- ---------------------------------------------------------------------------

variable {b : Bytes} {i j : Nat} {p : UInt8 → Bool}

theorem drop_skipWhile (p : UInt8 → Bool) (b : Bytes) (i : Nat) :
    b.drop (skipWhile p b i) = (b.drop i).dropWhile p := by
  rw [skipWhile, ← List.drop_drop]
  conv_lhs => arg 2; rw [← List.takeWhile_append_dropWhile (p := p) (l := b.drop i)]
  rw [List.drop_left]

theorem le_skipWhile (p : UInt8 → Bool) (b : Bytes) (i : Nat) : i ≤ skipWhile p b i :=
  Nat.le_add_right ..

theorem skipWhile_le_length (p : UInt8 → Bool) (h : i ≤ b.length) :
    skipWhile p b i ≤ b.length := by
  have := (List.takeWhile_prefix p (l := b.drop i)).length_le
  rw [List.length_drop] at this
  simp only [skipWhile]
  omega

theorem skipWhile_stop {c : UInt8} (h : b[skipWhile p b i]? = some c) : p c = false := by
  have hd : ((b.drop i).dropWhile p)[0]? = some c := by
    rw [← drop_skipWhile, List.getElem?_drop, Nat.add_zero, h]
  cases hl : (b.drop i).dropWhile p with
  | nil => simp [hl] at hd
  | cons x l =>
    have := List.head_dropWhile_not p (l := b.drop i) (by simp [hl])
    simp_all

theorem skipWhile_eq_self (h : ∀ c, b[i]? = some c → p c = false) : skipWhile p b i = i := by
  cases hb : b[i]? with
  | none =>
    rw [skipWhile, List.drop_eq_nil_of_le (List.getElem?_eq_none_iff.mp hb)]
    rfl
  | some c =>
    obtain ⟨hi, rfl⟩ := List.getElem?_eq_some_iff.mp hb
    rw [skipWhile, List.drop_eq_getElem_cons hi, List.takeWhile_cons, h _ hb]
    rfl

theorem lt_skipWhile {c : UInt8} (h : b[i]? = some c) (hp : p c = true) :
    i < skipWhile p b i := by
  obtain ⟨hi, rfl⟩ := List.getElem?_eq_some_iff.mp h
  rw [skipWhile, List.drop_eq_getElem_cons hi, List.takeWhile_cons, hp]
  simp

theorem parseScalar_eq (b : Bytes) (i : Nat) :
    parseScalar b i =
      (.ofText ((b.drop i).takeWhile fun c => !isDelim c),
        skipWhile (fun c => !isDelim c) b i) := by
  rw [parseScalar, skipWhile, Nat.add_sub_cancel_left,
    ← List.prefix_iff_eq_take.mp (List.takeWhile_prefix _)]

theorem drop_next (b : Bytes) (i : Nat) : b.drop (next b i) = b.drop (i + 1) := by
  unfold next
  split
  · rfl
  · rw [List.drop_eq_nil_of_le (by omega), List.drop_eq_nil_of_le (by omega)]

-- ---------------------------------------------------------------------------
-- Calls that return
-- ---------------------------------------------------------------------------

theorem parse_succ (fuel : Nat) :
    (∀ b i r, parse fuel b i = some r → parse (fuel + 1) b i = some r) ∧
    (∀ b o order i r, parseObject fuel b o order i = some r →
      parseObject (fuel + 1) b o order i = some r) ∧
    ∀ b a i r, parseArray fuel b a i = some r → parseArray (fuel + 1) b a i = some r := by
  induction fuel with
  | zero => simp [parse, parseObject, parseArray]
  | succ fuel ih =>
    obtain ⟨ihp, iho, iha⟩ := ih
    refine ⟨?_, ?_, ?_⟩
    · intro b i r h
      rw [parse] at h ⊢
      grind
    · intro b o order i r h
      rw [parseObject] at h ⊢
      split
      · grind
      · rw [if_neg ‹_›] at h
        simp only [bind, Option.bind_eq_some_iff, Prod.exists] at h ⊢
        obtain ⟨key, j, hk, v, l, hv, h⟩ := h
        exact ⟨key, j, ihp _ _ _ hk, v, l, ihp _ _ _ hv, iho _ _ _ _ _ h⟩
    · intro b a i r h
      rw [parseArray] at h ⊢
      split
      · grind
      · rw [if_neg ‹_›] at h
        simp only [bind, Option.bind_eq_some_iff, Prod.exists] at h ⊢
        obtain ⟨v, l, hv, h⟩ := h
        exact ⟨v, l, ihp _ _ _ hv, iha _ _ _ _ h⟩

theorem parse_mono {fuel fuel' : Nat} (hle : fuel ≤ fuel') (h : parse fuel b i = some r) :
    parse fuel' b i = some r := by
  induction hle with
  | refl => exact h
  | step _ ih => exact (parse_succ _).1 _ _ _ ih

theorem parseObject_mono {fuel fuel' : Nat} (hle : fuel ≤ fuel')
    (h : parseObject fuel b o order i = some r) : parseObject fuel' b o order i = some r := by
  induction hle with
  | refl => exact h
  | step _ ih => exact (parse_succ _).2.1 _ _ _ _ _ ih

theorem parseArray_mono {fuel fuel' : Nat} (hle : fuel ≤ fuel')
    (h : parseArray fuel b a i = some r) : parseArray fuel' b a i = some r := by
  induction hle with
  | refl => exact h
  | step _ ih => exact (parse_succ _).2.2 _ _ _ _ ih

/-- The call `parse(b, i)` returns `v` and leaves the cursor at `j`. -/
def Parses (b : Bytes) (i : Nat) (v : Value) (j : Nat) : Prop :=
  ∃ fuel, parse fuel b i = some (v, j)

def ParsesObject (b : Bytes) (o : List (Bytes × Value)) (order : List Bytes) (i : Nat) (v : Value)
    (j : Nat) : Prop :=
  ∃ fuel, parseObject fuel b o order i = some (v, j)

def ParsesArray (b : Bytes) (a : List Value) (i : Nat) (v : Value) (j : Nat) : Prop :=
  ∃ fuel, parseArray fuel b a i = some (v, j)

theorem Parses.finish (h : b[skipSpace b i]? = none) : Parses b i .empty (skipSpace b i) :=
  ⟨1, by simp [parse, h]⟩

theorem Parses.string (h : b[skipSpace b i]? = some (chr '"')) :
    Parses b i (parseString b (skipSpace b i + 1)).1 (parseString b (skipSpace b i + 1)).2 :=
  ⟨1, by simp [parse, h]⟩

theorem Parses.object (h : b[skipSpace b i]? = some (chr '\x7b'))
    (hl : ParsesObject b [] [] (skipSpace b i + 1) v j) : Parses b i v j := by
  obtain ⟨n, hl⟩ := hl
  have hq : chr '\x7b' ≠ chr '"' := by decide
  exact ⟨n + 1, by simpa [parse, h, hq] using hl⟩

theorem Parses.array (h : b[skipSpace b i]? = some (chr '['))
    (hl : ParsesArray b [] (skipSpace b i + 1) v j) : Parses b i v j := by
  obtain ⟨n, hl⟩ := hl
  have hq : chr '[' ≠ chr '"' := by decide
  have ho : chr '[' ≠ chr '\x7b' := by decide
  exact ⟨n + 1, by simpa [parse, h, hq, ho] using hl⟩

theorem Parses.scalar {c : UInt8} (h : b[skipSpace b i]? = some c) (hq : c ≠ chr '"')
    (ho : c ≠ chr '\x7b') (ha : c ≠ chr '[') :
    Parses b i (parseScalar b (skipSpace b i)).1 (parseScalar b (skipSpace b i)).2 :=
  ⟨1, by simp [parse, h, hq, ho, ha]⟩

theorem ParsesObject.stop (h : b[i]? = none ∨ b[i]? = some (chr '\x7d')) :
    ParsesObject b o order i (.object o order) (next b i) :=
  ⟨1, by rw [parseObject, if_pos h]⟩

theorem ParsesObject.member (h : ¬(b[i]? = none ∨ b[i]? = some (chr '\x7d')))
    (hk : Parses b i key j) (hv : Parses b (skipSpaceOr (chr ':') b j) v l)
    (hr : ParsesObject b (assign key.s v o)
      (if (o.lookup key.s).isNone then order ++ [key.s] else order)
      (skipSpaceOr (chr ',') b l) r m) :
    ParsesObject b o order i r m := by
  obtain ⟨n₁, hk⟩ := hk
  obtain ⟨n₂, hv⟩ := hv
  obtain ⟨n₃, hr⟩ := hr
  refine ⟨max n₁ (max n₂ n₃) + 1, ?_⟩
  have hk' := parse_mono (Nat.le_max_left n₁ (max n₂ n₃)) hk
  have hv' := parse_mono (n₂.le_max_left n₃ |>.trans (Nat.le_max_right n₁ _)) hv
  have hr' := parseObject_mono (n₂.le_max_right n₃ |>.trans (Nat.le_max_right n₁ _)) hr
  rw [parseObject, if_neg h]
  simp [hk', hv', hr']

theorem ParsesArray.stop (h : b[i]? = none ∨ b[i]? = some (chr ']')) :
    ParsesArray b a i (.array a) (next b i) :=
  ⟨1, by rw [parseArray, if_pos h]⟩

theorem ParsesArray.element (h : ¬(b[i]? = none ∨ b[i]? = some (chr ']')))
    (hv : Parses b i v j)
    (hr : ParsesArray b (a ++ [v]) (skipSpaceOr (chr ',') b j) r m) :
    ParsesArray b a i r m := by
  obtain ⟨n₁, hv⟩ := hv
  obtain ⟨n₂, hr⟩ := hr
  refine ⟨max n₁ n₂ + 1, ?_⟩
  rw [parseArray, if_neg h]
  simp [parse_mono (Nat.le_max_left n₁ n₂) hv, parseArray_mono (Nat.le_max_right n₁ n₂) hr]

end JSON

def jsonGetStr (fuel : Nat) (body key : Bytes) : Option Bytes :=
  (JSON.parse fuel body 0).map fun (v, _) => JSON.findKey key v

/-- `json_get_str(body, _)` returns, and `answer` says what. -/
def Answers (body : Bytes) (answer : Bytes → Bytes) : Prop :=
  ∃ fuel₀, ∀ fuel, fuel₀ ≤ fuel → ∀ key, jsonGetStr fuel body key = some (answer key)

theorem JSON.Parses.answers {body : Bytes} {v : JSON.Value} {j : Nat}
    (h : JSON.Parses body 0 v j) : Answers body (JSON.findKey · v) := by
  obtain ⟨fuel₀, hp⟩ := h
  refine ⟨fuel₀, fun fuel hle key => ?_⟩
  rw [jsonGetStr, JSON.parse_mono hle hp]
  rfl

end ByeByeVpn
