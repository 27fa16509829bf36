import ByeByeVpn.Core.Json

/-!
# When the JSON reader comes to an end

The scalar branch of `parse` consumes nothing at a closing bracket, and each
loop stops only at its own. A scanner with a stack of the open containers
tells from the bytes alone whether the reader ever asks for an element in
front of a bracket of the other kind. It returns exactly when it does not.
-/

namespace ByeByeVpn.JSON

-- ---------------------------------------------------------------------------
-- The bracket scanner
-- ---------------------------------------------------------------------------

/-- What comes next in the innermost open container. -/
inductive Frame
  | element
  | key
  | value
  deriving DecidableEq, Repr

inductive Mode
  | token
  | string
  | escaped
  | scalar
  deriving DecidableEq, Repr

inductive Scan
  | reading (m : Mode) (stack : List Frame)
  | stopped (fits : Bool)
  deriving DecidableEq, Repr

def Frame.next : Frame → Frame
  | .element => .element
  | .key => .value
  | .value => .key

/-- After a comma a member starts again with its key. -/
def Frame.comma : Frame → Frame
  | .value => .key
  | f => f

def Frame.closer : Frame → UInt8
  | .element => chr ']'
  | _ => chr '\x7d'

namespace Scan

/-- A token or a container has ended, with `stack` open around it. -/
def after : List Frame → Scan
  | [] => .stopped true
  | f :: stack => .reading .token (f.next :: stack)

/-- A separator, a closing bracket or the start of a scalar. -/
def atOther (f : Frame) (stack : List Frame) (c : UInt8) : Scan :=
  if c = chr ',' then .reading .token (f.comma :: stack)
  else if c = f.closer then after stack
  else if isDelim c then .stopped false
  else if f = .value ∧ c = chr ':' then .reading .token (f :: stack)
  else .reading .scalar (f :: stack)

def atToken (stack : List Frame) (c : UInt8) : Scan :=
  if isspace c then .reading .token stack
  else if c = chr '"' then .reading .string stack
  else if c = chr '\x7b' then .reading .token (.key :: stack)
  else if c = chr '[' then .reading .token (.element :: stack)
  else
    match stack with
    | [] => if isDelim c then .stopped true else .reading .scalar []
    | f :: stack => atOther f stack c

/-- The scanner reads a byte. -/
def feed : Scan → UInt8 → Scan
  | .stopped fits, _ => .stopped fits
  | .reading .token stack, c => atToken stack c
  | .reading .string stack, c =>
    if c = chr '\\' then .reading .escaped stack
    else if c = chr '"' then after stack
    else .reading .string stack
  | .reading .escaped stack, _ => .reading .string stack
  | .reading .scalar stack, c =>
    if isDelim c then
      match stack with
      | [] => .stopped true
      | f :: stack => atToken (f.next :: stack) c
    else .reading .scalar stack

def fits (s : Scan) (b : Bytes) : Bool := b.foldl feed s != .stopped false

@[simp] theorem fits_reading_nil (m : Mode) (stack : List Frame) : fits (.reading m stack) [] := rfl

@[simp] theorem fits_stopped (x : Bool) (b : Bytes) : fits (.stopped x) b = x := by
  have h : b.foldl feed (.stopped x) = .stopped x := by
    induction b with
    | nil => rfl
    | cons c b ih => exact ih
  cases x <;> simp [fits, h]

theorem fits_cons (s : Scan) (c : UInt8) (b : Bytes) : fits s (c :: b) = fits (feed s c) b := rfl

@[simp] theorem fits_after_nil (stack : List Frame) : fits (after stack) [] := by
  cases stack <;> rfl

-- ---------------------------------------------------------------------------
-- What the scanner does with the parts of a text
-- ---------------------------------------------------------------------------

variable {b : Bytes} {i j : Nat} {stack : List Frame} {f : Frame}

theorem fits_dropWhile {p : UInt8 → Bool}
    (h : ∀ c, p c = true → atToken stack c = .reading .token stack) (b : Bytes) :
    fits (.reading .token stack) b = fits (.reading .token stack) (b.dropWhile p) := by
  induction b with
  | nil => rfl
  | cons c b ih =>
    rw [List.dropWhile_cons]
    split
    · next hp => rw [fits_cons, feed, h c hp, ih]
    · rfl

theorem fits_skipSpace (b : Bytes) (i : Nat) :
    fits (.reading .token stack) (b.drop i) =
      fits (.reading .token stack) (b.drop (skipSpace b i)) := by
  rw [skipSpace, drop_skipWhile]
  exact fits_dropWhile (fun c hc => by simp [atToken, hc]) _

theorem fits_skipSpaceOr {c : UInt8}
    (h : atToken stack c = .reading .token stack) (b : Bytes) (i : Nat) :
    fits (.reading .token stack) (b.drop i) =
      fits (.reading .token stack) (b.drop (skipSpaceOr c b i)) := by
  rw [skipSpaceOr, drop_skipWhile]
  refine fits_dropWhile (fun c' hc => ?_) _
  rcases (Bool.or_eq_true _ _).mp hc with hc | hc
  · simp [atToken, hc]
  · rw [beq_iff_eq.mp hc, h]

theorem fits_skipComma (hf : f ≠ .value) (b : Bytes) (i : Nat) :
    fits (.reading .token (f :: stack)) (b.drop i) =
      fits (.reading .token (f :: stack)) (b.drop (skipSpaceOr (chr ',') b i)) := by
  refine fits_skipSpaceOr ?_ b i
  cases f with
  | value => exact absurd rfl hf
  | _ => rfl

theorem fits_skipColon (b : Bytes) (i : Nat) :
    fits (.reading .token (.value :: stack)) (b.drop i) =
      fits (.reading .token (.value :: stack)) (b.drop (skipSpaceOr (chr ':') b i)) :=
  fits_skipSpaceOr rfl b i

theorem fits_string (stack : List Frame) (esc : Bool) (b : Bytes) :
    fits (.reading (if esc then .escaped else .string) stack) b =
      fits (after stack) (b.drop (stringLength esc b + 1)) := by
  induction b generalizing esc with
  | nil => simp
  | cons c b ih =>
    cases esc with
    | true => simpa [fits_cons, feed, stringLength] using ih false
    | false =>
      have ht := ih true
      have hf := ih false
      simp only [if_true, if_false, Bool.false_eq_true] at ht hf
      simp only [fits_cons, feed, stringLength, Bool.false_eq_true, if_false]
      split
      · simpa using ht
      · split
        · simp
        · simpa using hf

theorem atToken_scalar {c : UInt8} (hq : c ≠ chr '"') (ho : c ≠ chr '\x7b') (ha : c ≠ chr '[')
    (hd : isDelim c = false) (hc : c = chr ':' → stack.head? ≠ some .value) :
    atToken stack c = .reading .scalar stack := by
  have hs : isspace c = false := by simp_all [isDelim]
  cases stack with
  | nil => simp [atToken, hs, hq, ho, ha, hd]
  | cons f stack =>
    have hcomma : c ≠ chr ',' := fun e => by simp [e, isDelim] at hd
    have hcloser : c ≠ f.closer := fun e => by cases f <;> simp [e, isDelim, Frame.closer] at hd
    have hcolon : ¬(f = .value ∧ c = chr ':') := fun ⟨hf, e⟩ => hc e (by simp [hf])
    simp [atToken, atOther, hs, hq, ho, ha, hd, hcomma, hcloser, hcolon]

theorem fits_scalar (b : Bytes) :
    fits (.reading .scalar stack) b = fits (after stack) (b.dropWhile fun c => !isDelim c) := by
  induction b with
  | nil => simp
  | cons c b ih =>
    rw [List.dropWhile_cons]
    cases hc : isDelim c with
    | true => cases stack <;> simp [fits_cons, feed, hc, after]
    | false => simpa [fits_cons, feed, hc] using ih

end Scan

-- ---------------------------------------------------------------------------
-- What a returned call has read
-- ---------------------------------------------------------------------------

open Scan

variable {b : Bytes} {i j l : Nat} {v key : Value} {stack : List Frame}

/-- `parse` finds nothing that it would consume. -/
def Stuck (b : Bytes) (i : Nat) : Prop := ∀ c, b[i]? = some c → isDelim c = true

/-- The scanner would skip the colon that the call takes for a scalar. -/
def AtColon (b : Bytes) (i : Nat) (stack : List Frame) : Prop :=
  b[i]? = some (chr ':') ∧ stack.head? = some .value

/-- A call at `i` that left the cursor at `j` read white space only, or it
read a token or a container. -/
structure Read (b : Bytes) (i j : Nat) : Prop where
  le : j ≤ b.length
  stuck : Stuck b (skipSpace b i) → j = skipSpace b i
  consumed : ¬Stuck b (skipSpace b i) → skipSpace b i < j ∧
    ∀ stack, ¬AtColon b (skipSpace b i) stack →
      fits (.reading .token stack) (b.drop i) = fits (after stack) (b.drop j)

/-- A loop of a container in frame `f` that left the cursor at `j` read the
rest of the container. -/
structure ReadRest (b : Bytes) (f : Frame) (i j : Nat) : Prop where
  le : j ≤ b.length
  mono : i ≤ j
  eq : ∀ stack, fits (.reading .token (f :: stack)) (b.drop i) = fits (after stack) (b.drop j)

theorem fits_at {c : UInt8} (h : b[i]? = some c) :
    fits (.reading .token stack) (b.drop i) = fits (atToken stack c) (b.drop (i + 1)) := by
  rw [drop_eq_cons h, fits_cons, feed]

theorem next_le (h : i ≤ b.length) : i ≤ next b i ∧ next b i ≤ b.length := by
  unfold next
  split <;> omega

theorem stringLength_le (esc : Bool) (b : Bytes) : stringLength esc b ≤ b.length := by
  induction b generalizing esc with
  | nil => rfl
  | cons c b ih =>
    have ht := ih true
    have hf := ih false
    cases esc <;> simp only [stringLength, List.length_cons] <;> grind

theorem not_isspace_of_skipSpaceOr {c x : UInt8} (h : b[skipSpaceOr c b i]? = some x) :
    isspace x = false ∧ x ≠ c := by
  simpa using skipWhile_stop h

theorem skipSpace_skipSpaceOr (c : UInt8) (b : Bytes) (i : Nat) :
    skipSpace b (skipSpaceOr c b i) = skipSpaceOr c b i :=
  skipWhile_eq_self fun _ h => (not_isspace_of_skipSpaceOr h).1

theorem skipColon_of_stuck (h : Stuck b (skipSpace b i)) :
    skipSpaceOr (chr ':') b (skipSpace b i) = skipSpace b i := by
  apply skipWhile_eq_self
  intro c hc
  have hs := skipWhile_stop hc
  have hne : c ≠ chr ':' := by
    rintro rfl
    exact absurd (h _ hc) (by decide)
  simp [hs, hne]

theorem parseString_read (h : b[skipSpace b i]? = some (chr '"')) :
    Read b i (parseString b (skipSpace b i + 1)).2 := by
  have hlt := (List.getElem?_eq_some_iff.mp h).1
  have hlen := stringLength_le false (b.drop (skipSpace b i + 1))
  rw [List.length_drop] at hlen
  have hn := next_le (b := b)
    (i := skipSpace b i + 1 + stringLength false (b.drop (skipSpace b i + 1))) (by omega)
  refine ⟨hn.2, fun hs => absurd (hs _ h) (by decide), fun _ => ⟨?_, fun stack _ => ?_⟩⟩
  · simp only [parseString]
    omega
  · have hq : atToken stack (chr '"') = .reading .string stack := by simp [atToken]; decide
    have hstr := fits_string stack false (b.drop (skipSpace b i + 1))
    rw [if_neg (by decide)] at hstr
    rw [fits_skipSpace, fits_at h, hq, hstr, parseString, drop_next, List.drop_drop]
    rfl

theorem parseScalar_read {c : UInt8} (hi : i ≤ b.length) (h : b[skipSpace b i]? = some c)
    (hq : c ≠ chr '"') (ho : c ≠ chr '\x7b') (ha : c ≠ chr '[') :
    Read b i (parseScalar b (skipSpace b i)).2 := by
  have hle := skipWhile_le_length isspace hi
  refine ⟨skipWhile_le_length _ hle, ?_, ?_⟩
  · intro hs
    exact skipWhile_eq_self fun x hx => by simp [hs x hx]
  · intro hs
    have hd : isDelim c = false := by
      by_contra hd
      exact hs fun x hx => by
        rw [h] at hx
        cases hx
        simpa using hd
    refine ⟨lt_skipWhile h (by simp [hd]), ?_⟩
    intro stack hcolon
    have hc : atToken stack c = .reading .scalar stack :=
      atToken_scalar hq ho ha hd fun e hf => hcolon ⟨e ▸ h, hf⟩
    rw [fits_skipSpace, parseScalar, drop_skipWhile, drop_eq_cons h, List.dropWhile_cons,
      if_pos (by simp [hd]), fits_cons, feed, hc, fits_scalar]

theorem fits_close {f : Frame} (h : b[i]? = none ∨ b[i]? = some f.closer) :
    fits (.reading .token (f :: stack)) (b.drop i) = fits (after stack) (b.drop (next b i)) := by
  rcases h with h | h
  · have hl := List.getElem?_eq_none_iff.mp h
    rw [drop_next, List.drop_eq_nil_of_le hl, List.drop_eq_nil_of_le (by omega)]
    simp
  · rw [fits_at h, drop_next]
    cases f <;> rfl

theorem ReadRest.close {f : Frame} (hi : i ≤ b.length)
    (h : b[i]? = none ∨ b[i]? = some f.closer) : ReadRest b f i (next b i) :=
  ⟨(next_le hi).2, (next_le hi).1, fun _ => fits_close h⟩

theorem ReadRest.read {f : Frame} {c : UInt8} (h : b[skipSpace b i]? = some c)
    (hd : isDelim c = false)
    (hf : ∀ stack, atToken stack c = .reading .token (f :: stack))
    (hr : ReadRest b f (skipSpace b i + 1) j) : Read b i j := by
  refine ⟨hr.le, fun hs => ?_, fun _ => ⟨hr.mono, fun stack _ => ?_⟩⟩
  · rw [hs c h] at hd
    cases hd
  · rw [fits_skipSpace, fits_at h, hf, hr.eq]

theorem fits_value_of_stuck (hsp : ∀ c, b[i]? = some c → isspace c = false) (h : Stuck b i) :
    fits (.reading .token (.value :: stack)) (b.drop i) =
      fits (.reading .token (.key :: stack)) (b.drop i) := by
  cases hb : b[i]? with
  | none => simp [List.drop_eq_nil_of_le (List.getElem?_eq_none_iff.mp hb)]
  | some c =>
    have hd := h c hb
    have hs := hsp c hb
    simp only [isDelim, hs, Bool.or_false, Bool.or_eq_true, beq_iff_eq] at hd
    rw [fits_at hb, fits_at hb]
    rcases hd with (rfl | rfl) | rfl <;> rfl

theorem Read.member (hk : Read b i j) (hv : Read b (skipSpaceOr (chr ':') b j) l) :
    fits (.reading .token (.key :: stack)) (b.drop i) =
      fits (.reading .token (.key :: stack)) (b.drop (skipSpaceOr (chr ',') b l)) := by
  rw [← fits_skipComma (by decide)]
  have hcolon := skipSpace_skipSpaceOr (chr ':') b j
  by_cases hs : Stuck b (skipSpace b i)
  · obtain rfl := hk.stuck hs
    have he := skipColon_of_stuck hs
    have hl := hv.stuck (by rwa [hcolon, he])
    rw [hl, hcolon, he, ← fits_skipSpace]
  · rw [(hk.consumed hs).2 _ (by simp [AtColon]), after, Frame.next, fits_skipColon]
    by_cases hs' : Stuck b (skipSpaceOr (chr ':') b j)
    · have hl := hv.stuck (by rwa [hcolon])
      rw [hl, hcolon]
      exact fits_value_of_stuck (fun c hc => (not_isspace_of_skipSpaceOr hc).1) hs'
    · have hl := (hv.consumed (by rwa [hcolon])).2 (.value :: stack) fun ⟨hc, _⟩ => by
        rw [hcolon] at hc
        exact (not_isspace_of_skipSpaceOr hc).2 rfl
      rw [hl, after, Frame.next]

theorem Read.element (hv : Read b i j) :
    fits (.reading .token (.element :: stack)) (b.drop i) =
      fits (.reading .token (.element :: stack)) (b.drop (skipSpaceOr (chr ',') b j)) := by
  rw [← fits_skipComma (by decide)]
  by_cases hs : Stuck b (skipSpace b i)
  · rw [hv.stuck hs, ← fits_skipSpace]
  · rw [(hv.consumed hs).2 _ (by simp [AtColon]), after, Frame.next]

theorem le_skipSpaceOr (c : UInt8) (h : i ≤ b.length) :
    i ≤ skipSpaceOr c b i ∧ skipSpaceOr c b i ≤ b.length :=
  ⟨le_skipWhile .., skipWhile_le_length _ h⟩

theorem Read.mono (h : Read b i j) : i ≤ j := by
  have hle := le_skipWhile isspace b i
  by_cases hs : Stuck b (skipSpace b i)
  · exact h.stuck hs ▸ hle
  · exact hle.trans (h.consumed hs).1.le

theorem returned_read (fuel : Nat) :
    (∀ b i v j, i ≤ b.length → parse fuel b i = some (v, j) → Read b i j) ∧
    (∀ b o order i v j, i ≤ b.length → parseObject fuel b o order i = some (v, j) →
      ReadRest b .key i j) ∧
    ∀ b a i v j, i ≤ b.length → parseArray fuel b a i = some (v, j) →
      ReadRest b .element i j := by
  induction fuel with
  | zero => simp [parse, parseObject, parseArray]
  | succ fuel ih =>
    obtain ⟨ihp, iho, iha⟩ := ih
    refine ⟨?_, ?_, ?_⟩
    · intro b i v j hi h
      have hk := skipWhile_le_length isspace hi
      rw [parse] at h
      split at h
      · next hb =>
        cases h
        exact ⟨hk, fun _ => rfl, fun hs => absurd (fun c hc => by simp [hb] at hc) hs⟩
      · next c hb =>
        have hlt := (List.getElem?_eq_some_iff.mp hb).1
        split at h
        · next hq =>
          subst hq
          cases h
          exact parseString_read hb
        · next hq =>
          split at h
          · next ho =>
            subst ho
            exact (iho _ _ _ _ _ _ hlt h).read hb (by decide) fun _ => rfl
          · next ho =>
            split at h
            · next ha =>
              subst ha
              exact (iha _ _ _ _ _ hlt h).read hb (by decide) fun _ => rfl
            · next ha =>
              cases h
              exact parseScalar_read hi hb hq ho ha
    · intro b o order i v j hi h
      rw [parseObject] at h
      split at h
      · next hc =>
        cases h
        exact .close hi hc
      · simp only [bind, Option.bind_eq_some_iff, Prod.exists] at h
        obtain ⟨key, k, hk, value, l, hv, h⟩ := h
        have hkey := ihp _ _ _ _ hi hk
        have hc := le_skipSpaceOr (chr ':') hkey.le
        have hval := ihp _ _ _ _ hc.2 hv
        have hm := le_skipSpaceOr (chr ',') hval.le
        have hr := iho _ _ _ _ _ _ hm.2 h
        refine ⟨hr.le, ?_, ?_⟩
        · exact hkey.mono.trans (hc.1.trans (hval.mono.trans (hm.1.trans hr.mono)))
        · intro stack
          rw [hkey.member hval, hr.eq]
    · intro b a i v j hi h
      rw [parseArray] at h
      split at h
      · next hc =>
        cases h
        exact .close hi hc
      · simp only [bind, Option.bind_eq_some_iff, Prod.exists] at h
        obtain ⟨value, l, hv, h⟩ := h
        have hval := ihp _ _ _ _ hi hv
        have hm := le_skipSpaceOr (chr ',') hval.le
        have hr := iha _ _ _ _ _ hm.2 h
        refine ⟨hr.le, hval.mono.trans (hm.1.trans hr.mono), ?_⟩
        intro stack
        rw [hval.element, hr.eq]

theorem Parses.read (hi : i ≤ b.length) (h : Parses b i v j) : Read b i j := by
  obtain ⟨fuel, h⟩ := h
  exact (returned_read fuel).1 _ _ _ _ hi h

-- ---------------------------------------------------------------------------
-- Where the scanner goes on, the reader returns
-- ---------------------------------------------------------------------------

def Fits (b : Bytes) (stack : List Frame) (i : Nat) : Prop :=
  fits (.reading .token stack) (b.drop i) = true

theorem not_stuck {c : UInt8} (hb : b[i]? = some c) (hs : ¬Stuck b i) : isDelim c = false := by
  by_contra hd
  apply hs
  intro x hx
  rw [hb] at hx
  cases hx
  simpa using hd

theorem Read.lt {c : UInt8} (hv : Read b i j) (hb : b[i]? = some c) (hs : ¬Stuck b i) : i < j := by
  have hd := not_stuck hb hs
  have he : skipSpace b i = i := skipWhile_eq_self fun x hx => by
    rw [hb] at hx
    cases hx
    simp_all [isDelim]
  have := (hv.consumed (by rwa [he])).1
  omega

/-- Where a call is stuck at a byte that fits, the loop skips that byte. -/
theorem lt_skipComma {f : Frame} {c : UInt8} (hf : Fits b (f :: stack) i) (hne : f ≠ .value)
    (hb : b[i]? = some c) (hc : c ≠ f.closer) (hle : i ≤ l) (hlt : ¬Stuck b i → i < l) :
    i < skipSpaceOr (chr ',') b l := by
  have hl := le_skipWhile (fun x => isspace x || x == chr ',') b l
  rw [← skipSpaceOr] at hl
  rcases Nat.lt_or_eq_of_le hle with h | rfl
  · omega
  · have hs : Stuck b i := by_contra fun hs => absurd (hlt hs) (lt_irrefl i)
    have hd := hs c hb
    refine lt_skipWhile hb ?_
    rw [Fits, fits_at hb] at hf
    simp only [isDelim, Bool.or_eq_true, beq_iff_eq] at hd
    rcases hd with ((rfl | rfl) | rfl) | hd
    · rfl
    · cases f with
      | element =>
        rw [show atToken (.element :: stack) (chr '\x7d') = .stopped false from rfl] at hf
        simp at hf
      | _ => exact absurd rfl hc
    · cases f with
      | element => exact absurd rfl hc
      | key =>
        rw [show atToken (.key :: stack) (chr ']') = .stopped false from rfl] at hf
        simp at hf
      | value => exact absurd rfl hne
    · simp [hd]

theorem Read.member_lt {c : UInt8} (hf : Fits b (.key :: stack) i) (hb : b[i]? = some c)
    (hc : c ≠ chr '\x7d') (hk : Read b i j) (hv : Read b (skipSpaceOr (chr ':') b j) l) :
    i < skipSpaceOr (chr ',') b l := by
  have hj := (le_skipSpaceOr (chr ':') hk.le).1
  have hjl := hj.trans hv.mono
  exact lt_skipComma hf (by decide) hb hc (hk.mono.trans hjl) fun hs =>
    lt_of_lt_of_le (hk.lt hb hs) hjl

theorem Read.element_lt {c : UInt8} (hf : Fits b (.element :: stack) i) (hb : b[i]? = some c)
    (hc : c ≠ chr ']') (hv : Read b i j) : i < skipSpaceOr (chr ',') b j :=
  lt_skipComma hf (by decide) hb hc hv.mono fun hs => hv.lt hb hs

theorem Read.fits_value (hf : Fits b (.key :: stack) i) (hk : Read b i j) :
    ∃ stack', Fits b stack' (skipSpaceOr (chr ':') b j) := by
  unfold Fits at hf ⊢
  by_cases hs : Stuck b (skipSpace b i)
  · rw [hk.stuck hs, skipColon_of_stuck hs]
    exact ⟨_, fits_skipSpace b i ▸ hf⟩
  · rw [(hk.consumed hs).2 _ (by simp [AtColon]), after, Frame.next, fits_skipColon] at hf
    exact ⟨_, hf⟩

theorem some_of_not_stop {x : UInt8} (h : ¬(b[i]? = none ∨ b[i]? = some x)) :
    ∃ c, b[i]? = some c ∧ c ≠ x := by
  cases hb : b[i]? with
  | none => exact absurd (.inl hb) h
  | some c => exact ⟨c, rfl, fun e => h (.inr (e ▸ hb))⟩

theorem returns (n : Nat) : ∀ i ≤ b.length, b.length - i ≤ n →
    (∀ stack, Fits b stack i → ∃ v j, Parses b i v j) ∧
    (∀ stack o order, Fits b (.key :: stack) i → ∃ v j, ParsesObject b o order i v j) ∧
    ∀ stack a, Fits b (.element :: stack) i → ∃ v j, ParsesArray b a i v j := by
  induction n using Nat.strong_induction_on with
  | _ n ih =>
    intro i hi hn
    have call : ∀ stack, Fits b stack i → ∃ v j, Parses b i v j := by
      intro stack hf
      have hle := le_skipWhile isspace b i
      rw [Fits, fits_skipSpace] at hf
      cases hb : b[skipSpace b i]? with
      | none => exact ⟨_, _, .finish hb⟩
      | some c =>
        have hlt := (List.getElem?_eq_some_iff.mp hb).1
        have hlt' : i < b.length := lt_of_le_of_lt hle hlt
        rw [fits_at hb] at hf
        have rest := ih (b.length - (skipSpace b i + 1)) (by simp only [skipSpace] at *; omega)
          (skipSpace b i + 1) hlt le_rfl
        by_cases hq : c = chr '"'
        · exact ⟨_, _, .string (hq ▸ hb)⟩
        · by_cases ho : c = chr '\x7b'
          · subst ho
            obtain ⟨v, j, h⟩ := rest.2.1 stack [] [] hf
            exact ⟨v, j, .object hb h⟩
          · by_cases ha : c = chr '['
            · subst ha
              obtain ⟨v, j, h⟩ := rest.2.2 stack [] hf
              exact ⟨v, j, .array hb h⟩
            · exact ⟨_, _, .scalar hb hq ho ha⟩
    have callFrom : ∀ k, i ≤ k → k ≤ b.length → ∀ stack, Fits b stack k →
        ∃ v j, Parses b k v j := by
      intro k hk hl
      rcases Nat.lt_or_eq_of_le hk with hlt | rfl
      · exact (ih (b.length - k) (by omega) k hl le_rfl).1
      · exact call
    refine ⟨call, ?_, ?_⟩
    · intro stack o order hf
      by_cases hstop : b[i]? = none ∨ b[i]? = some (chr '\x7d')
      · exact ⟨_, _, .stop hstop⟩
      · obtain ⟨c, hb, hc⟩ := some_of_not_stop hstop
        obtain ⟨key, j, hk⟩ := call _ hf
        have hkr := hk.read hi
        have hj := le_skipSpaceOr (chr ':') hkr.le
        obtain ⟨_, hfv⟩ := hkr.fits_value hf
        obtain ⟨value, l, hv⟩ := callFrom _ (hkr.mono.trans hj.1) hj.2 _ hfv
        have hvr := hv.read hj.2
        have hlt := hkr.member_lt hf hb hc hvr
        have hl := le_skipSpaceOr (chr ',') hvr.le
        obtain ⟨v, m, h⟩ := (ih (b.length - skipSpaceOr (chr ',') b l) (by omega) _ hl.2 le_rfl).2.1
          stack _ _ ((hkr.member hvr).symm.trans hf)
        exact ⟨v, m, .member hstop hk hv h⟩
    · intro stack a hf
      by_cases hstop : b[i]? = none ∨ b[i]? = some (chr ']')
      · exact ⟨_, _, .stop hstop⟩
      · obtain ⟨c, hb, hc⟩ := some_of_not_stop hstop
        obtain ⟨value, l, hv⟩ := call _ hf
        have hvr := hv.read hi
        have hlt := hvr.element_lt hf hb hc
        have hl := le_skipSpaceOr (chr ',') hvr.le
        obtain ⟨v, m, h⟩ := (ih (b.length - skipSpaceOr (chr ',') b l) (by omega) _ hl.2 le_rfl).2.2
          stack _ (hvr.element.symm.trans hf)
        exact ⟨v, m, .element hstop hv h⟩

theorem Fits.parses (hi : i ≤ b.length) (hf : Fits b stack i) : ∃ v j, Parses b i v j :=
  (returns _ i hi le_rfl).1 stack hf

-- ---------------------------------------------------------------------------
-- The calls and iterations of a whole run
-- ---------------------------------------------------------------------------

inductive Point
  | call (i : Nat)
  | objectHead (i : Nat)
  | arrayHead (i : Nat)
  deriving DecidableEq, Repr

/-- The calls of `parse` and the loop heads that `json_get_str(body, _)` comes to. -/
inductive Reached (b : Bytes) : Point → Prop
  | root : Reached b (.call 0)
  | object {i : Nat} : Reached b (.call i) → b[skipSpace b i]? = some (chr '\x7b') →
      Reached b (.objectHead (skipSpace b i + 1))
  | array {i : Nat} : Reached b (.call i) → b[skipSpace b i]? = some (chr '[') →
      Reached b (.arrayHead (skipSpace b i + 1))
  | key {i : Nat} {c : UInt8} : Reached b (.objectHead i) → b[i]? = some c → c ≠ chr '\x7d' →
      Reached b (.call i)
  | value {i j : Nat} {c : UInt8} {key : Value} : Reached b (.objectHead i) → b[i]? = some c →
      c ≠ chr '\x7d' → Parses b i key j → Reached b (.call (skipSpaceOr (chr ':') b j))
  | member {i j l : Nat} {c : UInt8} {key value : Value} : Reached b (.objectHead i) →
      b[i]? = some c → c ≠ chr '\x7d' → Parses b i key j →
      Parses b (skipSpaceOr (chr ':') b j) value l →
      Reached b (.objectHead (skipSpaceOr (chr ',') b l))
  | element {i : Nat} {c : UInt8} : Reached b (.arrayHead i) → b[i]? = some c → c ≠ chr ']' →
      Reached b (.call i)
  | nextElement {i j : Nat} {c : UInt8} {v : Value} : Reached b (.arrayHead i) →
      b[i]? = some c → c ≠ chr ']' → Parses b i v j →
      Reached b (.arrayHead (skipSpaceOr (chr ',') b j))

/-- Every call returns with its cursor inside the body, and every iteration
moves the cursor on. -/
structure Progress (b : Bytes) : Prop where
  call : ∀ i, Reached b (.call i) → ∃ v j, Parses b i v j ∧ j ≤ b.length
  member : ∀ i c, Reached b (.objectHead i) → b[i]? = some c → c ≠ chr '\x7d' →
    ∃ key j value l, Parses b i key j ∧ Parses b (skipSpaceOr (chr ':') b j) value l ∧
      i < skipSpaceOr (chr ',') b l
  element : ∀ i c, Reached b (.arrayHead i) → b[i]? = some c → c ≠ chr ']' →
    ∃ v j, Parses b i v j ∧ i < skipSpaceOr (chr ',') b j

/-- The scanner finds no closing bracket where the innermost open container
is of the other kind, up to the end of the first value. -/
def closersFit (body : Bytes) : Bool := fits (.reading .token []) body

def Point.Fits (b : Bytes) : Point → Prop
  | .call i => i ≤ b.length ∧ ∃ stack, JSON.Fits b stack i
  | .objectHead i => i ≤ b.length ∧ ∃ stack, JSON.Fits b (.key :: stack) i
  | .arrayHead i => i ≤ b.length ∧ ∃ stack, JSON.Fits b (.element :: stack) i

theorem Reached.fits (h : closersFit b = true) (hr : Reached b p) : p.Fits b := by
  induction hr with
  | root => exact ⟨Nat.zero_le _, [], h⟩
  | object _ hb ih =>
    obtain ⟨-, stack, hf⟩ := ih
    rw [JSON.Fits, fits_skipSpace, fits_at hb] at hf
    exact ⟨(List.getElem?_eq_some_iff.mp hb).1, stack, hf⟩
  | array _ hb ih =>
    obtain ⟨-, stack, hf⟩ := ih
    rw [JSON.Fits, fits_skipSpace, fits_at hb] at hf
    exact ⟨(List.getElem?_eq_some_iff.mp hb).1, stack, hf⟩
  | key _ _ _ ih | element _ _ _ ih => exact ⟨ih.1, _, ih.2.choose_spec⟩
  | value _ _ _ hk ih =>
    obtain ⟨hi, stack, hf⟩ := ih
    have hkr := hk.read hi
    exact ⟨(le_skipSpaceOr (chr ':') hkr.le).2, hkr.fits_value hf⟩
  | member _ _ _ hk hv ih =>
    obtain ⟨hi, stack, hf⟩ := ih
    have hkr := hk.read hi
    have hvr := hv.read (le_skipSpaceOr (chr ':') hkr.le).2
    exact ⟨(le_skipSpaceOr (chr ',') hvr.le).2, stack, (hkr.member hvr).symm.trans hf⟩
  | nextElement _ _ _ hv ih =>
    obtain ⟨hi, stack, hf⟩ := ih
    have hvr := hv.read hi
    exact ⟨(le_skipSpaceOr (chr ',') hvr.le).2, stack, hvr.element.symm.trans hf⟩

theorem progress_of_closersFit (h : closersFit b = true) : Progress b := by
  refine ⟨?_, ?_, ?_⟩
  · intro i hr
    obtain ⟨hi, stack, hf⟩ := hr.fits h
    obtain ⟨v, j, hv⟩ := hf.parses hi
    exact ⟨v, j, hv, (hv.read hi).le⟩
  · intro i c hr hb hc
    obtain ⟨hi, stack, hf⟩ := hr.fits h
    obtain ⟨key, j, hk⟩ := hf.parses hi
    have hkr := hk.read hi
    have hj := (le_skipSpaceOr (chr ':') hkr.le).2
    obtain ⟨_, hfv⟩ := hkr.fits_value hf
    obtain ⟨value, l, hv⟩ := hfv.parses hj
    exact ⟨key, j, value, l, hk, hv, hkr.member_lt hf hb hc (hv.read hj)⟩
  · intro i c hr hb hc
    obtain ⟨hi, stack, hf⟩ := hr.fits h
    obtain ⟨v, j, hv⟩ := hf.parses hi
    exact ⟨v, j, hv, (hv.read hi).element_lt hf hb hc⟩

theorem Parses.closersFit (h : Parses b 0 v j) : JSON.closersFit b = true := by
  have hr := h.read (Nat.zero_le _)
  rw [JSON.closersFit, ← b.drop_zero]
  by_cases hs : Stuck b (skipSpace b 0)
  · rw [fits_skipSpace]
    cases hb : b[skipSpace b 0]? with
    | none => simp [List.drop_eq_nil_of_le (List.getElem?_eq_none_iff.mp hb)]
    | some c =>
      have hd := hs c hb
      have hsp := skipWhile_stop hb
      rw [fits_at hb]
      simp only [isDelim, hsp, Bool.or_false, Bool.or_eq_true, beq_iff_eq] at hd
      rcases hd with (rfl | rfl) | rfl <;> exact fits_stopped true _
  · rw [(hr.consumed hs).2 [] (by simp [AtColon])]
    simp [after]

def Terminates (body key : Bytes) : Prop :=
  (∃ fuel text, jsonGetStr fuel body key = some text) ∧ Progress body

theorem exists_jsonGetStr_iff {body key : Bytes} :
    (∃ fuel text, jsonGetStr fuel body key = some text) ↔ ∃ v j, Parses body 0 v j := by
  constructor
  · rintro ⟨fuel, text, h⟩
    obtain ⟨⟨v, j⟩, h, -⟩ := Option.map_eq_some_iff.mp h
    exact ⟨v, j, fuel, h⟩
  · rintro ⟨v, j, fuel, h⟩
    exact ⟨fuel, findKey key v, by simp [jsonGetStr, h]⟩

theorem exists_answers_iff {body : Bytes} :
    (∃ answer, Answers body answer) ↔ closersFit body = true := by
  constructor
  · rintro ⟨answer, fuel, h⟩
    obtain ⟨v, j, hv⟩ := exists_jsonGetStr_iff.mp ⟨fuel, _, h fuel (Nat.le_refl _) []⟩
    exact hv.closersFit
  · intro h
    obtain ⟨v, j, hv, -⟩ := (progress_of_closersFit h).call 0 .root
    exact ⟨_, hv.answers⟩

/-- The reader terminates, with every call and every iteration, on exactly
the bodies in which no closing bracket meets a container of the other kind. -/
theorem jsonGetStr_terminates_iff (body key : Bytes) :
    Terminates body key ↔ closersFit body = true := by
  constructor
  · rintro ⟨h, -⟩
    obtain ⟨v, j, hv⟩ := exists_jsonGetStr_iff.mp h
    exact hv.closersFit
  · intro h
    have hp := progress_of_closersFit h
    obtain ⟨v, j, hv, -⟩ := hp.call 0 .root
    exact ⟨exists_jsonGetStr_iff.mpr ⟨v, j, hv⟩, hp⟩

/-- The loop over the members never passes the bracket of an array. -/
theorem jsonGetStr_loops : ¬Terminates (ascii "\x7b]") (ascii "name") := by
  rintro ⟨h, -⟩
  obtain ⟨v, j, hv⟩ := exists_jsonGetStr_iff.mp h
  exact absurd hv.closersFit (by decide)

end ByeByeVpn.JSON
