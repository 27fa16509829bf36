import ByeByeVpn.Lib.Search
import ByeByeVpn.Lib.Strtol
import Mathlib.Data.List.DropRight

/-!
# HTTP/1.1 messages

A reply is a first line, header fields, a blank line, and a body. The fields
say whether the body is sent in chunks: then it is the concatenation of the
chunks, each behind a line with its size.
-/

namespace ByeByeVpn.Http

def crlf : Bytes := [13, 10]

def InLine (s : Bytes) : Prop := (13 : UInt8) ∉ s ∧ (10 : UInt8) ∉ s

instance (s : Bytes) : Decidable (InLine s) := inferInstanceAs (Decidable (_ ∧ _))

def isOws (c : UInt8) : Bool := c == 32 || c == 9

def trimOws (s : Bytes) : Bytes := (s.dropWhile isOws).rdropWhile isOws

/-- A header field; the white space around the value is part of it. -/
structure Field where
  name : Bytes
  value : Bytes

def Field.text (f : Field) : Bytes := f.name ++ chr ':' :: f.value

structure Field.WellFormed (f : Field) : Prop where
  nonempty : f.name ≠ []
  name : ∀ c ∈ f.name, c ≠ chr ':' ∧ isspace c = false
  value : InLine f.value

/-- The last element of a comma-separated list, without white space and in
lower case. -/
def lastElement (value : Bytes) : Option Bytes :=
  (((value.splitOn (chr ',')).map fun e => (trimOws e).map tolower).filter fun e =>
    !e.isEmpty).getLast?

structure Reply where
  line : Bytes
  fields : List Field
  body : Bytes

namespace Reply

variable (m : Reply)

def head : Bytes := m.line ++ m.fields.flatMap fun f => crlf ++ f.text

def text : Bytes := m.head ++ crlf ++ crlf ++ m.body

def Chunked : Prop :=
  ∃ f ∈ m.fields, f.name.map tolower = ascii "transfer-encoding" ∧
    lastElement f.value = some (ascii "chunked")

instance : Decidable m.Chunked := inferInstanceAs (Decidable (∃ f ∈ _, _))

end Reply

-- ---------------------------------------------------------------------------
-- Chunks
-- ---------------------------------------------------------------------------

/-- A chunk extension, with the white space before it. -/
structure Extension (ext : Bytes) : Prop where
  inLine : InLine ext
  first : ∀ c ∈ ext.head?, isOws c = true ∨ c = chr ';'

/-- The bytes that are sent for this data. -/
inductive ChunkedBody : Bytes → Bytes → Prop
  | last {zeros ext : Bytes} {trailer : List Field} (nonempty : zeros ≠ [])
      (zero : ∀ c ∈ zeros, c = chr '0') (ext_ok : Extension ext)
      (trailer_ok : ∀ f ∈ trailer, f.WellFormed) :
      ChunkedBody [] (zeros ++ ext ++ crlf ++ (trailer.flatMap fun f => f.text ++ crlf) ++ crlf)
  | chunk {size ext data more raw : Bytes} (nonempty : data ≠ [])
      (hex : ∀ c ∈ size, isxdigit c = true) (size_eq : ofDigits 16 size = data.length)
      (ext_ok : Extension ext) (rest : ChunkedBody more raw) :
      ChunkedBody (data ++ more) (size ++ ext ++ crlf ++ data ++ crlf ++ raw)

structure Reply.WellFormed (m : Reply) : Prop where
  line : InLine m.line
  fields : ∀ f ∈ m.fields, f.WellFormed
  body : m.Chunked → ∃ data, ChunkedBody data m.body

/-- The payload that a reply carries. -/
def Reply.Carries (m : Reply) (payload : Bytes) : Prop :=
  (m.Chunked → ChunkedBody payload m.body) ∧ (¬m.Chunked → payload = m.body)

theorem ChunkedBody.length_lt {data raw : Bytes} (h : ChunkedBody data raw) :
    data.length < raw.length := by
  induction h with
  | last =>
    simp only [crlf, List.length_append, List.length_cons, List.length_nil]
    omega
  | chunk =>
    simp only [crlf, List.length_append, List.length_cons, List.length_nil]
    omega

-- ---------------------------------------------------------------------------
-- The blank line
-- ---------------------------------------------------------------------------

open Search

theorem Field.text_ne_nil (f : Field) : f.text ≠ [] := by
  simp [Field.text]

theorem Field.not_mem_text {f : Field} (h : f.WellFormed) : (13 : UInt8) ∉ f.text := by
  have hn : (13 : UInt8) ∉ f.name := fun hm => absurd (h.name 13 hm).2 (by decide)
  have hc : (13 : UInt8) ≠ chr ':' := by decide
  simp [Field.text, hn, h.value.1, hc]

theorem not_at_crlf {l : Bytes} (hne : l ≠ []) (hl : (13 : UInt8) ∉ l) (s : Bytes) :
    ¬crlf <+: l ++ s := by
  intro hp
  obtain ⟨c, cs, rfl⟩ := List.exists_cons_of_ne_nil hne
  obtain rfl := (List.cons_prefix_cons.mp hp).1
  exact hl List.mem_cons_self

theorem find_crlf {l : Bytes} (h : ¬crlf <:+: l) (s : Bytes) :
    find crlf (l ++ crlf ++ s) = some l.length := by
  have hend : find crlf (crlf ++ s) = some 0 := find_at_start (List.prefix_append ..)
  rw [List.append_assoc, find_append, hend, Option.map_some, Nat.zero_add]
  intro j hj hp
  rw [List.drop_eq_getElem_cons hj] at hp
  -- a line end that starts in the line ends there, or behind its last byte
  cases hd : l.drop (j + 1) with
  | nil =>
    rw [hd] at hp
    simp [crlf] at hp
  | cons c t =>
    rw [hd] at hp
    obtain ⟨h13, hp⟩ := List.cons_prefix_cons.mp hp
    obtain ⟨h10, -⟩ := List.cons_prefix_cons.mp hp
    have hdrop : crlf <+: l.drop j := by
      rw [List.drop_eq_getElem_cons hj, hd, ← h13, ← h10]
      exact List.prefix_append [13, 10] t
    exact h (hdrop.isInfix.trans (List.drop_suffix j l).isInfix)

theorem find_crlf_cut {l p : Bytes} (h : ¬crlf <:+: l) (hp : p <+: l ++ [13]) :
    find crlf p = none := by
  rw [find_eq_none_iff]
  intro hin
  obtain ⟨a, b, hab⟩ := hin.trans hp.isInfix
  cases b using List.reverseRecOn with
  | nil =>
    have hlast := congrArg List.getLast? hab
    simp [crlf] at hlast
  | append_singleton b c =>
    rw [← List.append_assoc] at hab
    exact h ⟨a, b, (List.append_inj' hab rfl).1⟩

/-- A line that is not followed by an empty one is skipped by the search for
the blank line. -/
theorem find_line {l s : Bytes} (hl : (13 : UInt8) ∉ l) (hs : ¬crlf <+: s) :
    find (crlf ++ crlf) (l ++ crlf ++ s) = (find (crlf ++ crlf) s).map (· + (l.length + 2)) := by
  have h₁ : ¬crlf ++ crlf <+: 13 :: 10 :: s := by
    simpa [crlf] using hs
  have h₂ : ¬crlf ++ crlf <+: 10 :: s := by
    simp [crlf]
  have hc : crlf ++ crlf = 13 :: (10 :: crlf) := rfl
  rw [List.append_assoc, hc, find_skip hl, ← hc]
  rw [show crlf ++ s = 13 :: 10 :: s from rfl, find_cons h₁, find_cons h₂, Option.map_map,
    Option.map_map]
  congr 1
  funext n
  simp
  omega

theorem find_blankLine_from {lines : List Bytes} (h : ∀ l ∈ lines, l ≠ [] ∧ (13 : UInt8) ∉ l)
    {line : Bytes} (hline : (13 : UInt8) ∉ line) (body : Bytes) :
    find (crlf ++ crlf) (line ++ lines.flatMap (crlf ++ ·) ++ crlf ++ crlf ++ body) =
      some (line ++ lines.flatMap (crlf ++ ·)).length := by
  induction lines generalizing line with
  | nil =>
    have hp : find (crlf ++ crlf) (crlf ++ crlf ++ body) = some 0 :=
      find_at_start (List.prefix_append ..)
    rw [List.flatMap_nil, List.append_nil, List.append_assoc line, List.append_assoc line,
      show crlf ++ crlf = 13 :: (10 :: crlf) from rfl, find_skip hline]
    rw [show (13 : UInt8) :: 10 :: crlf = crlf ++ crlf from rfl, hp]
    simp
  | cons l lines ih =>
    obtain ⟨⟨hne, hl⟩, hlines⟩ := List.forall_mem_cons.mp h
    have hs := find_line hline (not_at_crlf hne hl
      (lines.flatMap (crlf ++ ·) ++ crlf ++ crlf ++ body))
    have := ih hlines hl
    simp only [List.append_assoc] at hs this ⊢
    rw [List.flatMap_cons]
    simp only [List.append_assoc]
    rw [hs, this]
    simp [crlf]
    omega

/-- The first blank line is the one behind the fields. -/
theorem find_blankLine {m : Reply} (h : m.WellFormed) :
    find (crlf ++ crlf) m.text = some m.head.length := by
  have hf : ∀ l ∈ m.fields.map Field.text, l ≠ [] ∧ (13 : UInt8) ∉ l := by
    intro l hl
    obtain ⟨f, hf, rfl⟩ := List.mem_map.mp hl
    exact ⟨f.text_ne_nil, Field.not_mem_text (h.fields f hf)⟩
  have := find_blankLine_from hf h.line.1 m.body
  rwa [List.flatMap_map] at this

end ByeByeVpn.Http
