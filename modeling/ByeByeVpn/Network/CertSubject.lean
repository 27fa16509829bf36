import ByeByeVpn.Core.Encoders
import ByeByeVpn.Lib.Search

/-!
# The common name of a certificate (`network/tls_probe.cpp`)

The subject of a certificate is a list of attributes that the library writes
into a buffer of fixed size on one line, and the common name is read back from
that line. The search for `CN=` does not look where an attribute starts, and
the value ends at a comma too.
-/

namespace ByeByeVpn

open Search

structure NameAttribute where
  type : Bytes
  value : Bytes

def isPrintable (c : UInt8) : Bool := chr ' ' ≤ c && c ≤ chr '~'

section
variable (print : Bytes → Bytes)

def NameAttribute.text (a : NameAttribute) : Bytes := a.type ++ chr '=' :: print a.value

def nameLine (name : List NameAttribute) : Bytes := name.flatMap fun a => chr '/' :: a.text print

/-- The attributes in front for which there is room. -/
def fitting (room : Nat) : List NameAttribute → List NameAttribute
  | [] => []
  | a :: name =>
    let size := (a.text print).length + 1
    if size ≤ room then a :: fitting (room - size) name else []

/-- What is known of `X509_NAME_oneline`, a function of the library that is
given a name and the size of the buffer: how it writes a value, and that it
leaves whole attributes in the buffer, as many as fit in front of the NUL. -/
structure IsX509NameOneline (oneline : List NameAttribute → Nat → Bytes) : Prop where
  plain : ∀ v, (∀ c ∈ v, isPrintable c = true) → print v = v
  printable : ∀ v, ∀ c ∈ print v, isPrintable c = true
  written : ∀ name size, 0 < size → ∃ kept dropped, name = kept ++ dropped ∧
    oneline name size = nameLine print kept ∧ (nameLine print kept).length < size ∧
    ∀ a ∈ dropped.head?, size ≤ (nameLine print (kept ++ [a])).length

end

def x509NameOne (oneline : List NameAttribute → Nat → Bytes) (n : List NameAttribute) : Bytes :=
  oneline n 512

def extractCnFromSubject (subj : Bytes) : Bytes :=
  match find (ascii "CN=") subj with
  | none => []
  | some p => (subj.drop (p + 3)).takeWhile fun c => !(c == chr '/' || c == chr ',')

def firstCn (name : List NameAttribute) : Option NameAttribute :=
  name.find? fun a => a.type == ascii "CN"

/-- The value of the first common name, which is empty only if there is none. -/
structure IsCommonName (name : List NameAttribute) (cn : Bytes) : Prop where
  value : ∀ a, firstCn name = some a → cn = a.value
  empty : cn = [] ↔ ∀ a ∈ name, a.type ≠ ascii "CN"

/-- Behind the first `CN=` of the text stands `v`, up to a slash, a comma or
the end. -/
def Shows (text v : Bytes) : Prop :=
  ∃ before rest, text = before ++ ascii "CN=" ++ v ++ rest ∧ ¬ascii "CN=" <:+: before ∧
    (∀ c ∈ v, c ≠ chr '/' ∧ c ≠ chr ',') ∧ ∀ c ∈ rest.head?, c = chr '/' ∨ c = chr ','

structure FirstMarked (print : Bytes → Bytes) (name : List NameAttribute) (a : NameAttribute) :
    Prop where
  split : ∃ before after, name = before ++ a :: after ∧
    ∀ b ∈ before, ¬ascii "CN=" <:+: b.text print
  marked : ascii "CN=" <:+: a.text print

/-- The names that are read right, by the attributes that fit the buffer. -/
inductive ReadRight (print : Bytes → Bytes) (name : List NameAttribute) : Prop
  /-- `CN=` occurs nowhere, and there is no common name behind them either. -/
  | unmarked (h : ∀ a ∈ fitting print 511 name, ¬ascii "CN=" <:+: a.text print)
      (none : ∀ a ∈ name, a.type ≠ ascii "CN")
  /-- It occurs first in a common name, and the value is printable without a
  comma. -/
  | anchored {a : NameAttribute} (first : FirstMarked print (fitting print 511 name) a)
      (cn : a.type = ascii "CN") (nonempty : a.value ≠ [])
      (printable : ∀ c ∈ a.value, isPrintable c = true) (noComma : chr ',' ∉ a.value)
  /-- It occurs first in another attribute, which shows the common name. -/
  | echoed {a c : NameAttribute} (first : FirstMarked print (fitting print 511 name) a)
      (other : a.type ≠ ascii "CN") (cn : firstCn name = some c) (nonempty : c.value ≠ [])
      (shows' : Shows (a.text print) c.value)
  /-- It occurs first in another attribute, which shows nothing, and there is
  no common name. -/
  | hollow {a : NameAttribute} (first : FirstMarked print (fitting print 511 name) a)
      (none : ∀ b ∈ name, b.type ≠ ascii "CN") (shows' : Shows (a.text print) [])

variable {print : Bytes → Bytes} {oneline : List NameAttribute → Nat → Bytes}
  {name kept dropped : List NameAttribute} {a : NameAttribute} {room : Nat}

-- ---------------------------------------------------------------------------
-- The buffer
-- ---------------------------------------------------------------------------

theorem length_nameLine_cons : (nameLine print (a :: name)).length =
    (a.text print).length + 1 + (nameLine print name).length := by
  rw [nameLine, List.flatMap_cons, List.length_append, List.length_cons]
  rfl

theorem fitting_prefix (print : Bytes → Bytes) (room : Nat) (name : List NameAttribute) :
    fitting print room name <+: name := by
  induction name generalizing room with
  | nil => exact List.prefix_rfl
  | cons a name ih =>
    rw [fitting]
    split_ifs
    · exact List.prefix_cons_inj a |>.mpr (ih _)
    · exact List.nil_prefix

theorem fitting_append (hkept : (nameLine print kept).length ≤ room)
    (hdropped : ∀ a ∈ dropped.head?, room < (nameLine print (kept ++ [a])).length) :
    fitting print room (kept ++ dropped) = kept := by
  induction kept generalizing room with
  | nil =>
    cases dropped with
    | nil => rfl
    | cons a dropped =>
      have hroom := hdropped a rfl
      rw [List.nil_append, length_nameLine_cons, nameLine, List.flatMap_nil, List.length_nil]
        at hroom
      rw [List.nil_append, fitting, if_neg (by omega)]
  | cons b kept ih =>
    rw [length_nameLine_cons] at hkept
    rw [List.cons_append, fitting, if_pos (by omega), ih (by omega) fun a ha => ?_]
    have hroom := hdropped a ha
    rw [List.cons_append, length_nameLine_cons] at hroom
    omega

theorem IsX509NameOneline.x509NameOne (h : IsX509NameOneline print oneline)
    (name : List NameAttribute) :
    x509NameOne oneline name = nameLine print (fitting print 511 name) := by
  obtain ⟨kept, dropped, rfl, hline, hkept, hdropped⟩ := h.written name 512 (by decide)
  rw [ByeByeVpn.x509NameOne, hline, fitting_append (by omega) fun a ha => by
    have := hdropped a ha
    omega]

-- ---------------------------------------------------------------------------
-- One text
-- ---------------------------------------------------------------------------

theorem extractCn_unmarked {text : Bytes} (h : ¬ascii "CN=" <:+: text) :
    extractCnFromSubject text = [] := by
  rw [extractCnFromSubject, find_eq_none_iff.mpr h]

theorem takeWhile_stop {p : UInt8 → Bool} {c : UInt8} (hc : p c = false) (v rest : Bytes) :
    (v ++ c :: rest).takeWhile p = v.takeWhile p := by
  induction v with
  | nil => rw [List.nil_append, List.takeWhile_cons, hc, List.takeWhile_nil]; rfl
  | cons d v ih => rw [List.cons_append, List.takeWhile_cons, List.takeWhile_cons, ih]

theorem slash_not_mem_cn : chr '/' ∉ ascii "CN=" := by decide

/-- The search goes on behind a slash if the pattern does not stand before it. -/
theorem extractCn_skip {text rest : Bytes} (h : ¬ascii "CN=" <:+: text) :
    extractCnFromSubject (text ++ chr '/' :: rest) = extractCnFromSubject rest := by
  rw [extractCnFromSubject, extractCnFromSubject, find_around slash_not_mem_cn,
    find_eq_none_iff.mpr h, Option.none_or]
  cases find (ascii "CN=") rest with
  | none => rfl
  | some p =>
    have hdrop : (text ++ chr '/' :: rest).drop (p + (text.length + 1) + 3) =
        rest.drop (p + 3) := by
      rw [show p + (text.length + 1) + 3 = text.length + 1 + (p + 3) by omega, ← List.drop_drop,
        List.append_cons, List.drop_left' (by simp)]
    simp only [Option.map_some, hdrop]

theorem extractCn_stop {text : Bytes} (h : ascii "CN=" <:+: text) (rest : Bytes) :
    extractCnFromSubject (text ++ chr '/' :: rest) = extractCnFromSubject text := by
  rw [extractCnFromSubject, extractCnFromSubject, find_around slash_not_mem_cn]
  cases hfind : find (ascii "CN=") text with
  | none => exact absurd h (find_eq_none_iff.mp hfind)
  | some p =>
    have hlen := length_of_find hfind
    have hp : p + 3 ≤ text.length := hlen
    simp only [Option.some_or]
    rw [List.drop_append_of_le_length hp, takeWhile_stop (by decide)]

theorem shows_iff {text v : Bytes} :
    Shows text v ↔ ascii "CN=" <:+: text ∧ extractCnFromSubject text = v := by
  constructor
  · rintro ⟨before, rest, rfl, hbefore, hv, hrest⟩
    refine ⟨⟨before, v ++ rest, by simp only [List.append_assoc]⟩, ?_⟩
    have hfind : find (ascii "CN=") (before ++ (ascii "CN=" ++ (v ++ rest))) =
        some before.length := find_first (by decide) hbefore (v ++ rest)
    have hdrop : (before ++ (ascii "CN=" ++ (v ++ rest))).drop (before.length + 3) = v ++ rest := by
      rw [← List.drop_drop, List.drop_left]
      rfl
    simp only [extractCnFromSubject, List.append_assoc, hfind, hdrop]
    refine takeWhile_append_rest (fun c hc => ?_) fun c hc => ?_
    · simpa using hv c hc
    · simpa [or_iff_not_imp_left] using hrest c hc
  · rintro ⟨hin, rfl⟩
    cases hfind : find (ascii "CN=") text with
    | none => exact absurd hin (find_eq_none_iff.mp hfind)
    | some p =>
      obtain ⟨w, hw⟩ := prefix_of_find hfind
      have htext : text = text.take p ++ (ascii "CN=" ++ w) := by
        rw [hw, List.take_append_drop]
      have hdrop : text.drop (p + 3) = w := by
        rw [← List.drop_drop, ← hw]
        rfl
      simp only [extractCnFromSubject, hfind, hdrop]
      refine ⟨text.take p, w.dropWhile fun c => !(c == chr '/' || c == chr ','), ?_,
        not_infix_take_of_find (by decide) hfind, fun c hc => ?_, fun c hc => ?_⟩
      · simpa only [List.append_assoc, List.takeWhile_append_dropWhile] using htext
      · simpa using List.mem_takeWhile_imp hc
      · have hne := List.head?_dropWhile_not (fun c => !(c == chr '/' || c == chr ',')) w
        rw [Option.mem_def.mp hc] at hne
        simpa [or_iff_not_imp_left] using hne

-- ---------------------------------------------------------------------------
-- The attributes
-- ---------------------------------------------------------------------------

theorem extractCn_oneline_cons :
    extractCnFromSubject (nameLine print (a :: name)) =
      extractCnFromSubject (a.text print ++ nameLine print name) :=
  extractCn_skip (by decide : ¬ascii "CN=" <:+: [])

theorem extractCn_oneline_skip (h : ¬ascii "CN=" <:+: a.text print) :
    extractCnFromSubject (nameLine print (a :: name)) =
      extractCnFromSubject (nameLine print name) := by
  rw [extractCn_oneline_cons]
  cases name with
  | nil =>
    rw [nameLine, List.flatMap_nil, List.append_nil]
    exact extractCn_unmarked h
  | cons b name =>
    rw [extractCn_oneline_cons]
    exact extractCn_skip h

theorem extractCn_oneline_stop (h : ascii "CN=" <:+: a.text print) :
    extractCnFromSubject (nameLine print (a :: name)) = extractCnFromSubject (a.text print) := by
  rw [extractCn_oneline_cons]
  cases name with
  | nil => rw [nameLine, List.flatMap_nil, List.append_nil]
  | cons b name => exact extractCn_stop h _

theorem extractCn_of_unmarked (h : ∀ a ∈ name, ¬ascii "CN=" <:+: a.text print) :
    extractCnFromSubject (nameLine print name) = [] := by
  induction name with
  | nil => rfl
  | cons a name ih =>
    rw [extractCn_oneline_skip (h a List.mem_cons_self)]
    exact ih fun b hb => h b (List.mem_cons_of_mem a hb)

theorem FirstMarked.extractCn (h : FirstMarked print name a) :
    extractCnFromSubject (nameLine print name) = extractCnFromSubject (a.text print) := by
  obtain ⟨⟨before, after, rfl, hbefore⟩, hmarked⟩ := h
  induction before with
  | nil => exact extractCn_oneline_stop hmarked
  | cons b before ih =>
    rw [List.cons_append, extractCn_oneline_skip (hbefore b List.mem_cons_self)]
    exact ih fun d hd => hbefore d (List.mem_cons_of_mem b hd)

theorem FirstMarked.mem (h : FirstMarked print name a) : a ∈ name := by
  obtain ⟨before, after, rfl, -⟩ := h.split
  exact List.mem_append_right before List.mem_cons_self

theorem marked_cases (print : Bytes → Bytes) (name : List NameAttribute) :
    (∀ a ∈ name, ¬ascii "CN=" <:+: a.text print) ∨ ∃ a, FirstMarked print name a := by
  by_cases h : ∃ a ∈ name, ascii "CN=" <:+: a.text print
  · obtain ⟨before, a, after, hsplit, hbefore, hmarked⟩ := exists_first h
    exact .inr ⟨a, ⟨before, after, hsplit, hbefore⟩, hmarked⟩
  · exact .inl fun a ha hin => h ⟨a, ha, hin⟩

-- ---------------------------------------------------------------------------
-- The common name
-- ---------------------------------------------------------------------------

theorem text_of_cn (h : a.type = ascii "CN") : a.text print = ascii "CN=" ++ print a.value := by
  rw [NameAttribute.text, h]
  rfl

theorem marked_of_cn (h : a.type = ascii "CN") : ascii "CN=" <:+: a.text print := by
  rw [text_of_cn h]
  exact (List.prefix_append _ _).isInfix

theorem firstCn_eq_none_iff : firstCn name = none ↔ ∀ a ∈ name, a.type ≠ ascii "CN" := by
  simp only [firstCn, List.find?_eq_none, beq_iff_eq, ne_eq]

theorem FirstMarked.firstCn (h : FirstMarked print kept a) (hkept : kept <+: name)
    (hcn : a.type = ascii "CN") : firstCn name = some a := by
  obtain ⟨⟨before, after, rfl, hbefore⟩, -⟩ := h
  obtain ⟨dropped, rfl⟩ := hkept
  refine List.find?_eq_some_iff_append.mpr
    ⟨beq_iff_eq.mpr hcn, before, after ++ dropped, by simp, fun b hb => ?_⟩
  have hb' : b.type ≠ ascii "CN" := fun h => hbefore b hb (marked_of_cn h)
  simpa using hb'

theorem extractCn_cn_iff (h : IsX509NameOneline print oneline) (hcn : a.type = ascii "CN")
    (hslash : chr '/' ∉ a.value) :
    extractCnFromSubject (a.text print) = a.value ↔
      (∀ c ∈ a.value, isPrintable c = true) ∧ chr ',' ∉ a.value := by
  have hextract : extractCnFromSubject (a.text print) =
      (print a.value).takeWhile fun c => !(c == chr '/' || c == chr ',') := by
    rw [text_of_cn hcn, extractCnFromSubject, find_at_start (List.prefix_append _ _)]
    rfl
  rw [hextract]
  constructor
  · intro heq
    have hprintable : ∀ c ∈ a.value, isPrintable c = true := fun c hc =>
      h.printable _ c (List.takeWhile_prefix _ |>.subset (heq.symm ▸ hc))
    rw [h.plain _ hprintable, List.takeWhile_eq_self_iff] at heq
    refine ⟨hprintable, fun hm => ?_⟩
    simpa using heq _ hm
  · rintro ⟨hprintable, hcomma⟩
    rw [h.plain _ hprintable, List.takeWhile_eq_self_iff]
    intro c hc
    have h1 : c ≠ chr '/' := fun heq => hslash (heq ▸ hc)
    have h2 : c ≠ chr ',' := fun heq => hcomma (heq ▸ hc)
    simp [h1, h2]

theorem isCommonName_of_none {cn : Bytes} (h : firstCn name = none) :
    IsCommonName name cn ↔ cn = [] := by
  have hnone := firstCn_eq_none_iff.mp h
  constructor
  · exact fun hcn => hcn.empty.mpr hnone
  · intro hcn
    exact ⟨fun a ha => (by rw [h] at ha; cases ha), iff_of_true hcn hnone⟩

theorem isCommonName_of_some {cn : Bytes} (h : firstCn name = some a) :
    IsCommonName name cn ↔ cn = a.value ∧ a.value ≠ [] := by
  have hsome : ¬∀ b ∈ name, b.type ≠ ascii "CN" := by
    rw [← firstCn_eq_none_iff, h]
    exact Option.some_ne_none a
  constructor
  · intro hcn
    have hvalue := hcn.value a h
    exact ⟨hvalue, fun hnil => hsome (hcn.empty.mp (hvalue.trans hnil))⟩
  · rintro ⟨rfl, hne⟩
    refine ⟨fun b hb => ?_, iff_of_false hne hsome⟩
    rw [h, Option.some.injEq] at hb
    rw [hb]

/-- Anything else than a printable byte stands as `\xHH`. -/
def escapeValue (v : Bytes) : Bytes := v.flatMap fun c =>
  if isPrintable c then [c]
  else ascii "\\x" ++ [hexDigitUpper ((c >>> 4) &&& 0xF), hexDigitUpper (c &&& 0xF)]

def onelineOf (print : Bytes → Bytes) (name : List NameAttribute) (size : Nat) : Bytes :=
  nameLine print (fitting print (size - 1) name)

theorem isPrintable_hexDigitUpper {n : UInt8} (h : n.toNat < 16) :
    isPrintable (hexDigitUpper n) = true := by
  have hall : ∀ k < 16, isPrintable ((ascii "0123456789ABCDEF").getD k 0) = true := by decide
  exact hall n.toNat h

theorem exists_fitting (print : Bytes → Bytes) (room : Nat) (name : List NameAttribute) :
    ∃ dropped, name = fitting print room name ++ dropped ∧
      (nameLine print (fitting print room name)).length ≤ room ∧
      ∀ a ∈ dropped.head?, room < (nameLine print (fitting print room name ++ [a])).length := by
  induction name generalizing room with
  | nil => exact ⟨[], rfl, Nat.zero_le room, by simp⟩
  | cons a name ih =>
    rw [fitting]
    split_ifs with hsize
    · obtain ⟨dropped, hsplit, hlength, hroom⟩ := ih (room - ((a.text print).length + 1))
      refine ⟨dropped, by rw [List.cons_append, ← hsplit], ?_, fun b hb => ?_⟩
      · rw [length_nameLine_cons]
        omega
      · have := hroom b hb
        rw [List.cons_append, length_nameLine_cons]
        omega
    · refine ⟨a :: name, rfl, Nat.zero_le room, fun b hb => ?_⟩
      obtain rfl : a = b := by simpa using hb
      rw [List.nil_append, length_nameLine_cons]
      omega

theorem isX509NameOneline_onelineOf : IsX509NameOneline escapeValue (onelineOf escapeValue) where
  plain v hv := by
    induction v with
    | nil => rfl
    | cons c v ih =>
      rw [escapeValue, List.flatMap_cons, if_pos (hv c List.mem_cons_self), List.singleton_append]
      exact congrArg (c :: ·) (ih fun d hd => hv d (List.mem_cons_of_mem c hd))
  printable v c hc := by
    obtain ⟨d, -, hd⟩ := List.mem_flatMap.mp hc
    split_ifs at hd with hprintable
    · rwa [List.mem_singleton.mp hd]
    · have hlt := d.toNat_lt
      have hhigh := toNat_high d
      have hlow := toNat_low d
      rcases List.mem_append.mp hd with hmark | hdigit
      · have hall : (ascii "\\x").all isPrintable = true := by decide
        exact List.all_eq_true.mp hall c hmark
      · rcases List.mem_pair.mp hdigit with rfl | rfl
        · exact isPrintable_hexDigitUpper (by omega)
        · exact isPrintable_hexDigitUpper (by omega)
  written name size hsize := by
    obtain ⟨dropped, hsplit, hlength, hroom⟩ := exists_fitting escapeValue (size - 1) name
    refine ⟨_, dropped, hsplit, rfl, by omega, fun a ha => ?_⟩
    have := hroom a ha
    omega

/-- A common name for which there is no room is not found. -/
example : extractCnFromSubject (x509NameOne (onelineOf escapeValue)
    (List.replicate 8 ⟨ascii "OU", List.replicate 60 (chr 'x')⟩ ++
      [⟨ascii "CN", ascii "example.org"⟩])) = [] := by
  decide +kernel

end ByeByeVpn
