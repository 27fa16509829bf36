import ByeByeVpn.Lib.Bytes
import Mathlib.Algebra.Ring.Nat
import Mathlib.Data.Nat.Basic

/-!
# Numbers in text

`strtol` as documented: leading white space, an optional sign, for base 16 an
optional `0x` before a digit, and then the digits. The result saturates at the
bounds of a 64-bit `long`.
-/

namespace ByeByeVpn

def digitVal (c : UInt8) : Nat :=
  if isdigit c then c.toNat - 48
  else if chr 'a' ≤ c && c ≤ chr 'z' then c.toNat - 87
  else if chr 'A' ≤ c && c ≤ chr 'Z' then c.toNat - 55
  else 36

def isDigitOf (base : Nat) (c : UInt8) : Bool := digitVal c < base

def ofDigits (base : Nat) (ds : Bytes) : Nat := ds.foldl (fun n c => n * base + digitVal c) 0

def longMax : Int := 9223372036854775807

/-- The value, the text from `endptr` on, whether there was a number, and
whether it was in range. -/
structure Strtol where
  value : Int
  rest : Bytes
  converted : Bool
  inRange : Bool
  deriving DecidableEq, Repr

def strtolSign : Bytes → Bool × Bytes
  | c :: s => if c = chr '-' then (true, s) else if c = chr '+' then (false, s) else (false, c :: s)
  | [] => (false, [])

/-- A `0x` counts when a digit follows. -/
def skipHexPrefix (s : Bytes) : Bytes :=
  match s with
  | z :: x :: d :: _ =>
    if z = chr '0' && tolower x == chr 'x' && isDigitOf 16 d then s.drop 2 else s
  | _ => s

def strtol (base : Nat) (s : Bytes) : Strtol :=
  let (negative, t) := strtolSign (s.dropWhile isspace)
  let t := if base = 16 then skipHexPrefix t else t
  let ds := t.takeWhile (isDigitOf base)
  if ds.isEmpty then ⟨0, s, false, true⟩
  else
    let v : Int := if negative then -(ofDigits base ds) else ofDigits base ds
    ⟨max (-longMax - 1) (min v longMax), t.dropWhile (isDigitOf base), true,
      -longMax - 1 ≤ v ∧ v ≤ longMax⟩

/-- `atoi`: the low 32 bits of the number. -/
def atoi (s : Bytes) : Int := (strtol 10 s).value.bmod (2 ^ 32)

theorem isspace_of_isDigitOf {base : Nat} (hb : base ≤ 36) {c : UInt8}
    (h : isDigitOf base c = true) : isspace c = false := by
  have large : ∀ d : UInt8, 33 ≤ d.toNat → d ≤ c → isspace c = false := fun d hd hc =>
    isspace_of_lt (Nat.lt_of_lt_of_le hd (UInt8.le_iff_toNat_le.mp hc))
  unfold isDigitOf digitVal at h
  split_ifs at h with h₁ h₂ h₃
  · exact isspace_of_isdigit h₁
  · simp only [Bool.and_eq_true, decide_eq_true_eq] at h₂
    exact large _ (by decide) h₂.1
  · simp only [Bool.and_eq_true, decide_eq_true_eq] at h₃
    exact large _ (by decide) h₃.1
  · simp only [decide_eq_true_eq] at h
    omega

theorem isDigitOf_of_isdigit {c : UInt8} (h : isdigit c = true) : isDigitOf 10 c = true := by
  have h0 : (chr '0').toNat = 48 := rfl
  have h9 : (chr '9').toNat = 57 := rfl
  have hc := h
  simp only [isdigit, Bool.and_eq_true, decide_eq_true_eq, UInt8.le_iff_toNat_le, h0, h9] at hc
  simp only [isDigitOf, digitVal, h, if_true, decide_eq_true_eq]
  omega

theorem strtolSign_of_isDigitOf {base : Nat} (hb : base ≤ 36) {s : Bytes}
    (h : ∀ c ∈ s.head?, isDigitOf base c = true) : strtolSign s = (false, s) := by
  cases s with
  | nil => rfl
  | cons c s =>
    have hc := h c rfl
    have hm : c ≠ chr '-' := by
      rintro rfl
      have := (by decide : digitVal (chr '-') = 36)
      simp [isDigitOf, this] at hc
      omega
    have hp : c ≠ chr '+' := by
      rintro rfl
      have := (by decide : digitVal (chr '+') = 36)
      simp [isDigitOf, this] at hc
      omega
    simp [strtolSign, hm, hp]

theorem tolower_of_isDigitOf {c : UInt8} (h : isDigitOf 16 c = true) :
    (tolower c == chr 'x') = false := by
  rw [beq_eq_false_iff_ne]
  intro hx
  have hcases : c = chr 'x' ∨ c = chr 'X' := by
    unfold tolower at hx
    split_ifs at hx with hu
    · right
      have hs : c + 32 - 32 = chr 'x' - 32 := congrArg (· - 32) hx
      rw [UInt8.add_sub_cancel] at hs
      exact hs.trans (by decide)
    · exact .inl hx
  rcases hcases with rfl | rfl <;> exact absurd h (by decide)

theorem skipHexPrefix_digits {d : UInt8} {ds rest : Bytes}
    (hds : ∀ c ∈ ds, isDigitOf 16 c = true)
    (hrest : ∀ c ∈ rest.head?, (tolower c == chr 'x') = false) :
    skipHexPrefix (d :: (ds ++ rest)) = d :: (ds ++ rest) := by
  have hsecond : ∀ c ∈ (ds ++ rest).head?, (tolower c == chr 'x') = false := by
    cases ds with
    | nil => exact hrest
    | cons e ds =>
      rintro c ⟨⟩
      exact tolower_of_isDigitOf (hds e List.mem_cons_self)
  unfold skipHexPrefix
  split
  · next z x e t h =>
    obtain ⟨rfl, ht⟩ := List.cons.inj h
    simp [hsecond x (by simp [ht])]
  · rfl

/-- Digits that are followed by something else are read as their number, or as
the largest one. -/
theorem strtol_digits_min {base : Nat} (hb : base ≤ 36) {ds rest : Bytes} (hne : ds ≠ [])
    (hds : ∀ c ∈ ds, isDigitOf base c = true)
    (hrest : ∀ c ∈ rest.head?, isDigitOf base c = false ∧ (tolower c == chr 'x') = false) :
    strtol base (ds ++ rest) =
      ⟨min (ofDigits base ds) longMax, rest, true, (ofDigits base ds : Int) ≤ longMax⟩ := by
  obtain ⟨d, ds', rfl⟩ := List.exists_cons_of_ne_nil hne
  have hd := hds d List.mem_cons_self
  have hspace : (d :: ds' ++ rest).dropWhile isspace = d :: ds' ++ rest := by
    rw [List.cons_append, List.dropWhile_cons_of_neg]
    simp [isspace_of_isDigitOf hb hd]
  have hsign : strtolSign (d :: ds' ++ rest) = (false, d :: ds' ++ rest) :=
    strtolSign_of_isDigitOf hb (by simpa using hd)
  have hhex : (if base = 16 then skipHexPrefix (d :: ds' ++ rest) else d :: ds' ++ rest) =
      d :: ds' ++ rest := by
    split_ifs with h16
    · subst h16
      exact skipHexPrefix_digits (List.forall_mem_cons.mp hds).2 fun c hc => (hrest c hc).2
    · rfl
  have htake : (d :: ds' ++ rest).takeWhile (isDigitOf base) = d :: ds' :=
    takeWhile_append_rest hds fun c hc => (hrest c hc).1
  have hdrop : (d :: ds' ++ rest).dropWhile (isDigitOf base) = rest :=
    dropWhile_append_rest hds fun c hc => (hrest c hc).1
  have hmin : -longMax - 1 ≤ min (ofDigits base (d :: ds') : Int) longMax := by
    simp only [longMax]
    omega
  have hlow : -longMax - 1 ≤ (ofDigits base (d :: ds') : Int) :=
    Int.le_trans hmin (Int.min_le_left _ _)
  simp only [strtol, hspace, hsign, hhex, htake, hdrop, List.isEmpty_cons, Bool.false_eq_true,
    if_false, Int.max_eq_right hmin, hlow, true_and]

theorem strtol_digits {base : Nat} (hb : base ≤ 36) {ds rest : Bytes} (hne : ds ≠ [])
    (hds : ∀ c ∈ ds, isDigitOf base c = true)
    (hrest : ∀ c ∈ rest.head?, isDigitOf base c = false ∧ (tolower c == chr 'x') = false)
    (hmax : (ofDigits base ds : Int) ≤ longMax) :
    strtol base (ds ++ rest) = ⟨ofDigits base ds, rest, true, true⟩ := by
  rw [strtol_digits_min hb hne hds hrest, Int.min_eq_left hmax, decide_eq_true hmax]

theorem strtol_minus_minus (s : Bytes) :
    (strtol 10 (chr '-' :: chr '-' :: s)).converted = false := by
  have hs : isspace (chr '-') = false := by decide
  have hd : isDigitOf 10 (chr '-') = false := by decide
  simp [strtol, strtolSign, hs, hd]

end ByeByeVpn
