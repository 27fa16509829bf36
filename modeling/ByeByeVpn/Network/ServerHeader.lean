import ByeByeVpn.Network.PlantedHeaders
import ByeByeVpn.Network.ServiceProbes

/-!
# The Server field of a reply

`https_probe` and `fp_http_plain` look for the field in two ways: the one knows
two spellings of the name at the start of a line, the other takes what stands
behind the word, wherever that is.
-/

namespace ByeByeVpn

open Search Lines
open Http (Field InLine)

-- ---------------------------------------------------------------------------
-- Replies
-- ---------------------------------------------------------------------------

def lineText (content : Bytes) (cr : Bool) : Bytes := if cr then content ++ [chr '\r'] else content

def joinLines (lines : List Bytes) : Bytes := lines.flatMap (· ++ [chr '\n'])

/-- A reply whose lines end with CR LF or with LF alone, as `cr` says of each. -/
structure LineReply where
  line : Bytes × Bool
  fields : List (Field × Bool)
  blank : Bool
  page : Bytes

namespace LineReply

variable (m : LineReply)

def fieldLines : List Bytes :=
  m.fields.map (fun f => lineText f.1.text f.2) ++ [lineText [] m.blank]

def headLines : List Bytes := lineText m.line.1 m.line.2 :: m.fieldLines

def text : Bytes := joinLines m.headLines ++ m.page

structure WellFormed : Prop where
  line : InLine m.line.1
  fields : ∀ f ∈ m.fields, f.1.WellFormed

def serverField : Option Field :=
  (m.fields.map Prod.fst).find? fun f => tolowerS f.name == ascii "server"

end LineReply

-- ---------------------------------------------------------------------------
-- Where a probe looks
-- ---------------------------------------------------------------------------

def Mentions (s : Bytes) : Prop := ascii "server:" <:+: tolowerS s

namespace LineReply

variable (m : LineReply)

def FirstNamed (name : Bytes) (f : Field) : Prop :=
  ∃ pre cr post, m.fields = pre ++ (f, cr) :: post ∧ f.name = name ∧ ∀ f' ∈ pre, f'.1.name ≠ name

def NoField (name : Bytes) : Prop := ∀ f ∈ m.fields, f.1.name ≠ name

/-- The first line of the page that starts with the name and a colon goes on
with the text. -/
def PageShows (name v : Bytes) : Prop :=
  ∃ before rest after, textLines m.page = before ++ (name ++ chr ':' :: rest) :: after ∧
    (∀ l ∈ before, ¬name ++ [chr ':'] <+: l) ∧ trim rest = v

def NoLine (name : Bytes) : Prop := ∀ l ∈ textLines m.page, ¬name ++ [chr ':'] <+: l

/-- The value of the field is read over TLS: the field is spelled in the usual
way, or in small letters with nothing in the usual way; or another place is
read, where the same text stands. -/
inductive HttpsClear (f : Field) : Prop
  | usual (name : f.name = ascii "Server")
  | small (name : f.name = ascii "server") (noField : m.NoField (ascii "Server"))
      (noLine : m.NoLine (ascii "Server"))
  | fieldBelow {g : Field} (other : f.name ≠ ascii "Server")
      (first : m.FirstNamed (ascii "Server") g) (same : trim g.value = trim f.value)
  | page (noField : m.NoField (ascii "Server")) (same : m.PageShows (ascii "Server") (trim f.value))
  | smallBelow {g : Field} (other : f.name ≠ ascii "server")
      (noField : m.NoField (ascii "Server")) (noLine : m.NoLine (ascii "Server"))
      (first : m.FirstNamed (ascii "server") g) (same : trim g.value = trim f.value)
  | smallPage (noField : m.NoField (ascii "Server")) (noLine : m.NoLine (ascii "Server"))
      (noSmall : m.NoField (ascii "server")) (same : m.PageShows (ascii "server") (trim f.value))

/-- Without a field the page shows nothing either. -/
inductive HttpsBlank : Prop
  | noLine (usual : m.NoLine (ascii "Server")) (small : m.NoLine (ascii "server"))
  | page (blank : m.PageShows (ascii "Server") [])
  | smallPage (noLine : m.NoLine (ascii "Server")) (blank : m.PageShows (ascii "server") [])

end LineReply

/-- The value ends with its line: that has a carriage return, or none follows
it, or only white space comes before the next one. -/
def EndsRight (cr : Bool) (rest : Bytes) : Prop :=
  cr = true ∨ chr '\r' ∉ rest ∨
    ∃ blanks more, rest = blanks ++ chr '\r' :: more ∧ chr '\r' ∉ blanks ∧
      ∀ c ∈ blanks, isspace c = true

/-- The piece ends at the first carriage return, or at the first newline where
there is none. -/
def EndsBefore (piece rest : Bytes) : Prop :=
  chr '\r' ∉ piece ∧
    (rest.head? = some (chr '\r') ∨
      chr '\r' ∉ rest ∧ chr '\n' ∉ piece ∧ Lines.EndsLine (chr '\n') rest)

/-- Behind the first `server:` in any case stands `v`. -/
def ShowsServer (s v : Bytes) : Prop :=
  ∃ before word piece rest, s = before ++ (word ++ (piece ++ rest)) ∧
    tolowerS word = ascii "server:" ∧ ¬Mentions before ∧ EndsBefore piece rest ∧ trim piece = v

namespace LineReply

variable (m : LineReply)

def behind (post : List (Field × Bool)) : Bytes :=
  joinLines ((post.map fun f => lineText f.1.text f.2) ++ [lineText [] m.blank]) ++ m.page

/-- The value of the field, on a line that ends so and is followed by `post`, is
read in the clear: nothing mentions the name before, and the value ends with its
line; or the first mention before shows the same text. -/
inductive PlainClear (pre : List (Field × Bool)) (f : Field) (cr : Bool)
    (post : List (Field × Bool)) : Prop
  | first (line : ¬Mentions m.line.1) (before : ∀ f' ∈ pre, ¬Mentions f'.1.text)
      (ends : EndsRight cr (m.behind post))
  | earlier (mentioned : Mentions m.line.1 ∨ ∃ f' ∈ pre, Mentions f'.1.text)
      (same : ShowsServer m.text (trim f.value))

/-- The Server field of the reply is clear: each probe finds its value. Without
a field each probe finds nothing. -/
inductive ServerClear : Prop
  | present {pre post : List (Field × Bool)} {f : Field} {cr : Bool}
      (fields : m.fields = pre ++ (f, cr) :: post) (name : tolowerS f.name = ascii "server")
      (first : ∀ f' ∈ pre, tolowerS f'.1.name ≠ ascii "server") (nonblank : trim f.value ≠ [])
      (https : m.HttpsClear f) (plain : m.PlainClear pre f cr post)
      (line : ascii "server:" <+: tolowerS m.line.1 → trim (m.line.1.drop 7) = trim f.value)
  | absent (none : ∀ f ∈ m.fields, tolowerS f.1.name ≠ ascii "server") (https : m.HttpsBlank)
      (plain : ¬Mentions m.text ∨ ShowsServer m.text [])

end LineReply

-- ---------------------------------------------------------------------------
-- What the plain probe takes
-- ---------------------------------------------------------------------------

def mention (s : Bytes) : Option Nat := find (ascii "server:") (tolowerS s)

/-- The text up to the next carriage return, or newline where none follows. -/
def untilEnd (rest : Bytes) : Bytes :=
  rest.take (((find [chr '\r'] rest).or (find [chr '\n'] rest)).getD rest.length)

theorem exists_mention {s : Bytes} {k : Nat} (h : mention s = some k) :
    ∃ before word rest, s = before ++ (word ++ rest) ∧ before.length = k ∧
      tolowerS word = ascii "server:" := by
  have hstart := prefix_of_find h
  rw [tolowerS, ← List.map_drop] at hstart
  obtain ⟨t, ht⟩ := hstart
  obtain ⟨word, rest, hdrop, hword, -⟩ := List.map_eq_append_iff.mp ht.symm
  have hle := length_of_find h
  rw [tolowerS, List.length_map] at hle
  refine ⟨s.take k, word, rest, by rw [← hdrop, List.take_append_drop], ?_, hword⟩
  rw [List.length_take]
  omega

theorem word_length {word : Bytes} (h : tolowerS word = ascii "server:") : word.length = 7 := by
  rw [← List.length_map tolower]
  exact congrArg List.length h

theorem not_mem_word {word : Bytes} (h : tolowerS word = ascii "server:") {c : UInt8}
    (hc : tolower c ∉ ascii "server:") : c ∉ word :=
  fun hm => hc (h ▸ List.mem_map_of_mem hm)

theorem plainServer_eq_of_mention (s : Bytes) :
    plainServer s = ((mention s).map fun k => trim (untilEnd (s.drop (k + 7)))).getD [] := by
  rw [plainServer, ← mention]
  cases hm : mention s with
  | none => rfl
  | some k =>
    obtain ⟨before, word, rest, rfl, rfl, hword⟩ := exists_mention hm
    have hend (c : UInt8) (hc : tolower c ∉ ascii "server:") :
        findFrom [c] (before ++ (word ++ rest)) before.length =
          (find [c] rest).map (· + (before.length + 7)) := by
      rw [findFrom, List.drop_left, find_skip (not_mem_word hword hc), Option.map_map,
        word_length hword]
      congr 1
      funext n
      simp only [Function.comp_apply]
      omega
    have hdrop : (before ++ (word ++ rest)).drop (before.length + 7) = rest := by
      rw [← word_length hword, List.drop_length_add_append, List.drop_left]
    have hlen : (before ++ (word ++ rest)).length = rest.length + (before.length + 7) := by
      rw [List.length_append, List.length_append, word_length hword]
      omega
    have hcount (o : Option Nat) :
        (o.map (· + (before.length + 7))).getD (rest.length + (before.length + 7)) -
          (before.length + 7) = o.getD rest.length := by
      cases o <;> simp
    simp only [hend (chr '\r') (by decide), hend (chr '\n') (by decide), hdrop, hlen, untilEnd,
      ← Option.map_or, hcount, Option.map_some, Option.getD_some]

theorem mention_line (l s : Bytes) :
    mention (l ++ chr '\n' :: s) = (mention l).or ((mention s).map (· + (l.length + 1))) := by
  have hlower : tolowerS (l ++ chr '\n' :: s) = tolowerS l ++ chr '\n' :: tolowerS s :=
    List.map_append
  rw [mention, hlower, find_around (by decide), tolowerS, List.length_map]
  rfl

theorem mention_eq_none_iff {s : Bytes} : mention s = none ↔ ¬Mentions s := find_eq_none_iff

theorem untilEnd_eq {piece rest : Bytes} (h : EndsBefore piece rest) :
    untilEnd (piece ++ rest) = piece := by
  obtain ⟨hcr, hend | ⟨hrest, hnl, hend⟩⟩ := h
  · obtain ⟨rest, rfl⟩ := List.head?_eq_some_iff.mp hend
    rw [untilEnd, find_letter hcr, Option.some_or, Option.getD_some, List.take_left]
  · rw [untilEnd, find_eq_none (List.not_mem_append hcr hrest), Option.none_or]
    cases rest with
    | nil => rw [List.append_nil, find_eq_none hnl, Option.getD_none, List.take_length]
    | cons c rest =>
      obtain rfl := hend c rfl
      rw [find_letter hnl, Option.getD_some, List.take_left]

theorem exists_endsBefore (s : Bytes) :
    ∃ piece rest, s = piece ++ rest ∧ EndsBefore piece rest := by
  by_cases hcr : chr '\r' ∈ s
  · obtain ⟨piece, rest, rfl, hpiece⟩ := List.eq_append_cons_of_mem hcr
    exact ⟨piece, _, rfl, hpiece, .inl rfl⟩
  by_cases hnl : chr '\n' ∈ s
  · obtain ⟨piece, rest, rfl, hpiece⟩ := List.eq_append_cons_of_mem hnl
    refine ⟨piece, _, rfl, fun h => hcr (List.mem_append_left _ h), .inr ⟨?_, hpiece, ?_⟩⟩
    · exact fun h => hcr (List.mem_append_right _ h)
    · simp [Lines.EndsLine]
  · refine ⟨s, [], (List.append_nil s).symm, hcr, .inr ⟨List.not_mem_nil, hnl, ?_⟩⟩
    simp [Lines.EndsLine]

theorem showsServer_iff {s v : Bytes} :
    ShowsServer s v ↔ ∃ k, mention s = some k ∧ trim (untilEnd (s.drop (k + 7))) = v := by
  constructor
  · rintro ⟨before, word, piece, rest, rfl, hword, hbefore, hend, rfl⟩
    refine ⟨before.length, ?_, ?_⟩
    · have hlower : tolowerS (before ++ (word ++ (piece ++ rest))) =
          tolowerS before ++ (ascii "server:" ++ tolowerS (piece ++ rest)) := by
        rw [← hword]
        simp only [tolowerS, List.map_append]
      have hfirst : find (ascii "server:") (tolowerS before ++ (ascii "server:" ++ _)) = some _ :=
        find_first (by decide) hbefore (tolowerS (piece ++ rest))
      rw [mention, hlower, hfirst, tolowerS, List.length_map]
    · rw [← word_length hword, List.drop_length_add_append, List.drop_left, untilEnd_eq hend]
  · rintro ⟨k, hk, rfl⟩
    obtain ⟨before, word, rest, rfl, rfl, hword⟩ := exists_mention hk
    obtain ⟨piece, rest, rfl, hend⟩ := exists_endsBefore rest
    refine ⟨before, word, piece, rest, rfl, hword, ?_, hend, ?_⟩
    · have hfirst := not_infix_take_of_find (by decide) hk
      rwa [tolowerS, ← List.map_take, List.take_left] at hfirst
    · rw [← word_length hword, List.drop_length_add_append, List.drop_left, untilEnd_eq hend]

theorem plainServer_eq_iff {s v : Bytes} (hv : v ≠ []) : plainServer s = v ↔ ShowsServer s v := by
  rw [plainServer_eq_of_mention, showsServer_iff]
  cases mention s with
  | none => simp [hv.symm]
  | some k => simp

theorem plainServer_eq_nil_iff {s : Bytes} :
    plainServer s = [] ↔ ¬Mentions s ∨ ShowsServer s [] := by
  rw [plainServer_eq_of_mention, showsServer_iff, ← mention_eq_none_iff]
  cases mention s with
  | none => simp
  | some k => simp

theorem mention_joinLines {lines : List Bytes} (h : ∀ l ∈ lines, ¬Mentions l) (s : Bytes) :
    mention (joinLines lines ++ s) = (mention s).map (· + (joinLines lines).length) := by
  induction lines with
  | nil => simp [joinLines]
  | cons l lines ih =>
    obtain ⟨hl, hlines⟩ := List.forall_mem_cons.mp h
    have hjoin : joinLines (l :: lines) = l ++ chr '\n' :: joinLines lines := by simp [joinLines]
    rw [hjoin, List.append_assoc, List.cons_append, mention_line, mention_eq_none_iff.mpr hl,
      Option.none_or, ih hlines, Option.map_map, List.length_append, List.length_cons]
    congr 1
    funext k
    simp only [Function.comp_apply]
    omega

theorem mentions_lineText {content : Bytes} (cr : Bool) :
    Mentions (lineText content cr) ↔ Mentions content := by
  cases cr with
  | false => rfl
  | true =>
    have hlower : tolowerS (content ++ [chr '\r']) = tolowerS content ++ chr '\r' :: [] :=
      List.map_append
    rw [← not_iff_not, ← mention_eq_none_iff, ← mention_eq_none_iff, lineText, if_pos rfl, mention,
      hlower, find_around (by decide), mention, show find (ascii "server:") [] = none from rfl,
      Option.map_none, Option.or_none]

theorem trim_append_eq_iff {v : Bytes} (hv : trim v ≠ []) (rest : Bytes) :
    trim (v ++ rest) = trim v ↔ ∀ c ∈ rest, isspace c = true := by
  have hdrop : ¬(v.dropWhile isspace).isEmpty = true := by
    intro hnil
    rw [trim, List.isEmpty_iff.mp hnil] at hv
    exact hv rfl
  constructor
  · intro h
    by_contra hall
    obtain ⟨c, hc⟩ := not_forall.mp hall
    obtain ⟨hc, hsp⟩ := Classical.not_imp.mp hc
    have hrest : rest.rdropWhile isspace ≠ [] := by
      rw [ne_eq, List.rdropWhile_eq_nil_iff]
      exact fun hall => hsp (hall c hc)
    rw [trim, List.dropWhile_append, if_neg hdrop,
      rdropWhile_append ⟨c, hc, Bool.eq_false_iff.mpr hsp⟩] at h
    have hlen := congrArg List.length h
    have hle := (List.rdropWhile_prefix isspace (v.dropWhile isspace)).length_le
    have hpos := List.length_pos_of_ne_nil hrest
    rw [List.length_append, trim] at hlen
    omega
  · intro h
    simpa using trim_around (List.forall_mem_nil (isspace · = true)) h v

/-- The value of a field is cut at the end of its line, or where only white
space comes in between. -/
theorem trim_untilEnd_iff {v : Bytes} (hv : Http.InLine v) (hne : trim v ≠ []) (cr : Bool)
    (rest : Bytes) :
    trim (untilEnd (lineText v cr ++ chr '\n' :: rest)) = trim v ↔ EndsRight cr rest := by
  have hspace : isspace (chr '\n') = true := by decide
  have hcrnl : chr '\r' ≠ chr '\n' := by decide
  cases cr with
  | true =>
    have hpiece : EndsBefore v (chr '\r' :: chr '\n' :: rest) := ⟨hv.1, .inl rfl⟩
    have hcut := untilEnd_eq hpiece
    rw [lineText, if_pos rfl, List.append_assoc, List.singleton_append, hcut]
    exact iff_of_true rfl (.inl rfl)
  | false =>
    rw [lineText, if_neg Bool.false_ne_true, EndsRight]
    by_cases hcr : chr '\r' ∈ rest
    · obtain ⟨blanks, more, rfl, hblanks⟩ := List.eq_append_cons_of_mem hcr
      have hpiece : EndsBefore (v ++ chr '\n' :: blanks) (chr '\r' :: more) :=
        ⟨List.not_mem_append hv.1 (by simp [hcrnl, hblanks]), .inl rfl⟩
      have hcut := untilEnd_eq hpiece
      rw [List.append_assoc, List.cons_append] at hcut
      rw [hcut, trim_append_eq_iff hne, List.forall_mem_cons, and_iff_right hspace]
      constructor
      · exact fun h => .inr (.inr ⟨blanks, more, rfl, hblanks, h⟩)
      · rintro (h | h | ⟨blanks', more', hsplit, hblanks', h⟩)
        · cases h
        · exact absurd hcr h
        · rwa [(split_unique hblanks hblanks' hsplit).1]
    · have hpiece : EndsBefore v (chr '\n' :: rest) :=
        ⟨hv.1, .inr ⟨by simp [hcrnl, hcr], hv.2, by simp [Lines.EndsLine]⟩⟩
      rw [untilEnd_eq hpiece]
      exact iff_of_true rfl (.inr (.inl hcr))

-- ---------------------------------------------------------------------------
-- What the HTTPS probe takes
-- ---------------------------------------------------------------------------

namespace LineReply

variable (m : LineReply)

def named (name : Bytes) : Option Bytes :=
  ((m.fields.map Prod.fst).find? fun f => f.name == name).map Field.value

def pageNamed (name : Bytes) : Option Bytes :=
  (lineWith (name ++ ascii ":") (textLines m.page)).map (·.drop 7)

/-- The usual spelling in the section and on the page, then in small letters. -/
def spelled : Option Bytes :=
  (m.named (ascii "Server")).or
    ((m.pageNamed (ascii "Server")).or
      ((m.named (ascii "server")).or (m.pageNamed (ascii "server"))))

end LineReply

theorem textLines_joinLines {lines : List Bytes} (h : ∀ l ∈ lines, chr '\n' ∉ l) (s : Bytes) :
    textLines (joinLines lines ++ s) = lines ++ textLines s := by
  induction lines with
  | nil => rfl
  | cons l lines ih =>
    obtain ⟨hl, hlines⟩ := List.forall_mem_cons.mp h
    have hjoin : joinLines (l :: lines) ++ s = l ++ chr '\n' :: (joinLines lines ++ s) := by
      simp [joinLines]
    rw [hjoin, textLines, List.splitOn_append_cons_self_of_not_mem hl, ← textLines, ih hlines]
    rfl

theorem not_mem_lineText {content : Bytes} (h : chr '\n' ∉ content) (cr : Bool) :
    chr '\n' ∉ lineText content cr := by
  have hcr : chr '\n' ≠ chr '\r' := by decide
  cases cr <;> simp [lineText, h, hcr]

theorem not_mem_field {f : Field} (h : f.WellFormed) : chr '\n' ∉ f.text := by
  have hname : chr '\n' ∉ f.name := fun hm => absurd (h.name _ hm).2 (by decide)
  have hvalue : chr '\n' ∉ f.value := h.value.2
  have hcolon : chr '\n' ≠ chr ':' := by decide
  simp [Field.text, hname, hvalue, hcolon]

theorem name_prefix_iff {name n t : Bytes} (hname : chr ':' ∉ name) (hn : chr ':' ∉ n) :
    name ++ [chr ':'] <+: n ++ chr ':' :: t ↔ n = name := by
  refine ⟨fun h => ?_, by rintro rfl; exact ⟨t, by simp⟩⟩
  induction name generalizing n with
  | nil =>
    cases n with
    | nil => rfl
    | cons d n => exact absurd (by simp [(List.cons_prefix_cons.mp h).1]) hn
  | cons c name ih =>
    cases n with
    | nil => exact absurd (by simp [(List.cons_prefix_cons.mp h).1]) hname
    | cons d n =>
      obtain ⟨rfl, htail⟩ := List.cons_prefix_cons.mp h
      rw [ih (fun hm => hname (List.mem_cons_of_mem _ hm))
        (fun hm => hn (List.mem_cons_of_mem _ hm)) htail]

theorem lineText_field (f : Field) (cr : Bool) :
    lineText f.text cr = f.name ++ chr ':' :: lineText f.value cr := by
  cases cr <;> simp [lineText, Field.text]

theorem trim_lineText (content : Bytes) (cr : Bool) :
    trim (lineText content cr) = trim content := by
  cases cr with
  | false => rfl
  | true => exact trim_append_space (by decide) content

/-- The line that starts with the name is that of the first field so named, each
letter of it taken through `g`. -/
theorem find_fieldLine {g : UInt8 → UInt8} (hg : ∀ x, g x = chr ':' ↔ x = chr ':') (name : Bytes)
    (hname : chr ':' ∉ name) (hlen : name.length = 6) {fields : List (Field × Bool)}
    (h : ∀ f ∈ fields, f.1.WellFormed) :
    ((fields.map fun f => lineText f.1.text f.2).find? (begins g (name ++ ascii ":"))).map
        (fieldText (ascii "Server")) =
      ((fields.map Prod.fst).find? fun f => f.name.map g == name).map fun f => trim f.value := by
  induction fields with
  | nil => rfl
  | cons f fields ih =>
    obtain ⟨hf, hfields⟩ := List.forall_mem_cons.mp h
    have hcolon : chr ':' ∉ f.1.name.map g := not_mem_map hg fun hm => (hf.name _ hm).1 rfl
    have hbegins : begins g (name ++ ascii ":") (lineText f.1.text f.2) = true ↔
        f.1.name.map g = name := by
      rw [begins_iff, lineText_field, List.map_append, List.map_cons, (hg _).mpr rfl]
      exact name_prefix_iff hname hcolon
    rw [List.map_cons, List.map_cons]
    by_cases hn : f.1.name.map g = name
    · have hdrop : (ascii "Server").length + 1 = f.1.name.length + 1 := by
        have hmap : (f.1.name.map g).length = f.1.name.length := List.length_map g
        rw [← hmap, hn, hlen]
        rfl
      rw [List.find?_cons_of_pos (hbegins.mpr hn), List.find?_cons_of_pos (by simpa using hn),
        Option.map_some, Option.map_some, lineText_field, fieldText, hdrop,
        List.drop_length_add_append, List.drop_succ_cons, List.drop_zero, trim_lineText]
    · rw [List.find?_cons_of_neg (hbegins.not.mpr hn),
        List.find?_cons_of_neg (by simpa using hn), ih hfields]

namespace LineReply

variable {m : LineReply}

theorem not_mem_headLines (h : m.WellFormed) : ∀ l ∈ m.headLines, chr '\n' ∉ l := by
  intro l hl
  simp only [headLines, fieldLines, List.mem_cons, List.mem_append, List.mem_map,
    List.not_mem_nil, or_false] at hl
  rcases hl with rfl | ⟨f, hf, rfl⟩ | rfl
  · exact not_mem_lineText h.line.2 _
  · exact not_mem_lineText (not_mem_field (h.fields f hf)) _
  · exact not_mem_lineText List.not_mem_nil _

theorem textLines_text (h : m.WellFormed) :
    textLines m.text = m.headLines ++ textLines m.page :=
  textLines_joinLines (not_mem_headLines h) m.page

theorem lineWith_fieldLines (h : m.WellFormed) (name : Bytes) (hname : chr ':' ∉ name)
    (hlen : name.length = 6) :
    (lineWith (name ++ ascii ":") m.fieldLines).map (fieldText (ascii "Server")) =
      (m.named name).map trim := by
  have hblank : ¬begins id (name ++ ascii ":") (lineText [] m.blank) = true := by
    rw [begins_iff, List.map_id]
    intro hp
    have hle := hp.length_le
    rw [List.length_append, hlen] at hle
    generalize m.blank = cr at hle
    cases cr <;> simp [lineText, ascii] at hle
  rw [lineWith, fieldLines, List.find?_append, List.find?_cons_of_neg hblank, List.find?_nil,
    Option.or_none, find_fieldLine (g := id) (fun _ => Iff.rfl) name hname hlen h.fields, named,
    Option.map_map]
  simp only [List.map_id]
  rfl

theorem serverHdr_eq (h : m.WellFormed) {turn : Nat → ReadTurn}
    (hread : (readProbe turn 6 []).1 = m.text) :
    (httpsProbe turn).serverHdr = (m.spelled.map trim).getD [] := by
  have hne : m.text ≠ [] := by simp [text, headLines, joinLines]
  have hserver := (server_analyzeReply (readProbe turn 6 []).2 hne).1
  have hpage (name : Bytes) :
      (lineWith (name ++ ascii ":") (textLines m.page)).map (fieldText (ascii "Server")) =
        (m.pageNamed name).map trim := by
    rw [pageNamed, Option.map_map]
    rfl
  have hupper := lineWith_fieldLines h (ascii "Server") (by decide) (by decide)
  have hlower := lineWith_fieldLines h (ascii "server") (by decide) (by decide)
  rw [httpsProbe_analyzeReply hread, hserver, textLines_text h, headLines, List.cons_append,
    List.tail_cons, serverLine_append, pageServer, spelled]
  simp only [Option.map_or, ← hupper, ← hlower, ← hpage]
  rfl

theorem map_or_eq_some_iff {a b : Option Bytes} {f : Bytes → Bytes} {v : Bytes} :
    (a.or b).map f = some v ↔ a.map f = some v ∨ a = none ∧ b.map f = some v := by
  cases a <;> simp

theorem named_eq_some_iff {name v : Bytes} :
    (m.named name).map trim = some v ↔ ∃ f, m.FirstNamed name f ∧ trim f.value = v := by
  simp only [named, Option.map_map, Option.map_eq_some_iff, List.find?_eq_some_iff_append,
    beq_iff_eq, FirstNamed]
  constructor
  · rintro ⟨f, ⟨hname, pre, post, hsplit, hpre⟩, hv⟩
    obtain ⟨pre', rest, hfields, rfl, hrest⟩ := List.map_eq_append_iff.mp hsplit
    obtain ⟨⟨f', cr⟩, post', rfl, rfl, -⟩ := List.map_eq_cons_iff.mp hrest
    refine ⟨f', ⟨pre', cr, post', hfields, hname, fun g hg => ?_⟩, hv⟩
    simpa using hpre g.1 (List.mem_map_of_mem hg)
  · rintro ⟨f, ⟨pre, cr, post, hfields, hname, hpre⟩, hv⟩
    refine ⟨f, ⟨hname, pre.map Prod.fst, post.map Prod.fst, ?_, ?_⟩, hv⟩
    · rw [hfields, List.map_append, List.map_cons]
    · exact List.forall_mem_map.mpr fun g hg => by simpa using hpre g hg

theorem named_eq_none_iff {name : Bytes} : m.named name = none ↔ m.NoField name := by
  simp [named, NoField]

theorem pageNamed_eq_some_iff {name v : Bytes} (hlen : name.length = 6) :
    (m.pageNamed name).map trim = some v ↔ m.PageShows name v := by
  simp only [pageNamed, lineWith, Option.map_map, Option.map_eq_some_iff,
    List.find?_eq_some_iff_append, Bool.not_eq_true', Bool.eq_false_iff, ne_eq, begins_iff,
    List.map_id, PageShows]
  constructor
  · rintro ⟨l, ⟨⟨rest, rfl⟩, before, after, hsplit, hbefore⟩, hv⟩
    refine ⟨before, rest, after, by simpa [ascii] using hsplit, hbefore, ?_⟩
    rw [← hv, Function.comp_apply, List.drop_left' (by simp [hlen, ascii])]
  · rintro ⟨before, rest, after, hsplit, hbefore, hv⟩
    refine ⟨_, ⟨⟨rest, rfl⟩, before, after, by simpa [ascii] using hsplit, hbefore⟩, ?_⟩
    rw [← hv, Function.comp_apply, List.drop_left' (by simp [hlen, ascii])]

theorem pageNamed_eq_none_iff {name : Bytes} : m.pageNamed name = none ↔ m.NoLine name := by
  simp only [pageNamed, lineWith, Option.map_eq_none_iff, List.find?_eq_none, begins_iff,
    List.map_id, NoLine]
  rfl

theorem spelled_eq_some_iff {v : Bytes} :
    m.spelled.map trim = some v ↔
      (∃ f, m.FirstNamed (ascii "Server") f ∧ trim f.value = v) ∨
        m.NoField (ascii "Server") ∧ (m.PageShows (ascii "Server") v ∨
          m.NoLine (ascii "Server") ∧
            ((∃ f, m.FirstNamed (ascii "server") f ∧ trim f.value = v) ∨
              m.NoField (ascii "server") ∧ m.PageShows (ascii "server") v)) := by
  rw [spelled, map_or_eq_some_iff, map_or_eq_some_iff, map_or_eq_some_iff, named_eq_some_iff,
    named_eq_some_iff, named_eq_none_iff, named_eq_none_iff, pageNamed_eq_none_iff,
    pageNamed_eq_some_iff (by decide), pageNamed_eq_some_iff (by decide)]

section
variable {pre post : List (Field × Bool)} {f : Field} {cr : Bool}

theorem firstNamed_of_first {name : Bytes} (hfields : m.fields = pre ++ (f, cr) :: post)
    (hpre : ∀ f' ∈ pre, tolowerS f'.1.name ≠ ascii "server") (hname : f.name = name)
    (hlower : tolowerS name = ascii "server") : m.FirstNamed name f :=
  ⟨pre, cr, post, hfields, hname, fun f' hf' heq => hpre f' hf' (heq ▸ hlower)⟩

theorem serverHdr_iff (h : m.WellFormed) {turn : Nat → ReadTurn}
    (hread : (readProbe turn 6 []).1 = m.text) (hfields : m.fields = pre ++ (f, cr) :: post)
    (hpre : ∀ f' ∈ pre, tolowerS f'.1.name ≠ ascii "server") (hne : trim f.value ≠ []) :
    (httpsProbe turn).serverHdr = trim f.value ↔ m.HttpsClear f := by
  have hsome : (m.spelled.map trim).getD [] = trim f.value ↔
      m.spelled.map trim = some (trim f.value) := by
    cases m.spelled with
    | none => simp [hne.symm]
    | some v => simp
  rw [serverHdr_eq h hread, hsome, spelled_eq_some_iff]
  constructor
  · rintro (⟨g, hg, hv⟩ | ⟨hnoField, hpage | ⟨hnoLine, ⟨g, hg, hv⟩ | ⟨hnoSmall, hpage⟩⟩⟩)
    · by_cases hname : f.name = ascii "Server"
      · exact .usual hname
      · exact .fieldBelow hname hg hv
    · exact .page hnoField hpage
    · by_cases hname : f.name = ascii "server"
      · exact .small hname hnoField hnoLine
      · exact .smallBelow hname hnoField hnoLine hg hv
    · exact .smallPage hnoField hnoLine hnoSmall hpage
  · intro hclear
    cases hclear with
    | usual hname =>
      exact .inl ⟨f, firstNamed_of_first hfields hpre hname (by decide), rfl⟩
    | small hname hnoField hnoLine =>
      have hfirst := firstNamed_of_first hfields hpre hname (by decide)
      exact .inr ⟨hnoField, .inr ⟨hnoLine, .inl ⟨f, hfirst, rfl⟩⟩⟩
    | fieldBelow _ hg hv => exact .inl ⟨_, hg, hv⟩
    | page hnoField hpage => exact .inr ⟨hnoField, .inl hpage⟩
    | smallBelow _ hnoField hnoLine hg hv =>
      exact .inr ⟨hnoField, .inr ⟨hnoLine, .inl ⟨_, hg, hv⟩⟩⟩
    | smallPage hnoField hnoLine hnoSmall hpage =>
      exact .inr ⟨hnoField, .inr ⟨hnoLine, .inr ⟨hnoSmall, hpage⟩⟩⟩

theorem serverHdr_nil_iff (h : m.WellFormed) {turn : Nat → ReadTurn}
    (hread : (readProbe turn 6 []).1 = m.text)
    (hnone : ∀ f ∈ m.fields, tolowerS f.1.name ≠ ascii "server") :
    (httpsProbe turn).serverHdr = [] ↔ m.HttpsBlank := by
  have hnoName (name : Bytes) (hlower : tolowerS name = ascii "server") : m.NoField name :=
    fun f hf heq => hnone f hf (heq ▸ hlower)
  have hfirst (name : Bytes) {v : Bytes} (hlower : tolowerS name = ascii "server") :
      ¬∃ f, m.FirstNamed name f ∧ trim f.value = v := by
    rintro ⟨f, ⟨pre, cr, post, hfields, hname, -⟩, -⟩
    exact hnoName name hlower (f, cr) (by simp [hfields]) hname
  have husual := hnoName (ascii "Server") (by decide)
  have hsmall := hnoName (ascii "server") (by decide)
  have hnil : (m.spelled.map trim).getD [] = [] ↔
      m.spelled = none ∨ m.spelled.map trim = some [] := by
    cases m.spelled <;> simp
  rw [serverHdr_eq h hread, hnil, spelled_eq_some_iff]
  simp only [spelled, Option.or_eq_none_iff, named_eq_none_iff, pageNamed_eq_none_iff, husual,
    hsmall, true_and, hfirst (ascii "Server") (by decide),
    hfirst (ascii "server") (by decide), false_or]
  constructor
  · rintro (⟨hpage, hpage'⟩ | hpage | ⟨hnoLine, hpage⟩)
    · exact .noLine hpage hpage'
    · exact .page hpage
    · exact .smallPage hnoLine hpage
  · intro hblank
    cases hblank with
    | noLine hpage hpage' => exact .inl ⟨hpage, hpage'⟩
    | page hpage => exact .inr (.inl hpage)
    | smallPage hnoLine hpage => exact .inr (.inr ⟨hnoLine, hpage⟩)

-- ---------------------------------------------------------------------------
-- One value
-- ---------------------------------------------------------------------------

theorem text_eq (hfields : m.fields = pre ++ (f, cr) :: post) :
    m.text = joinLines (lineText m.line.1 m.line.2 :: pre.map fun f => lineText f.1.text f.2) ++
      (lineText f.text cr ++ chr '\n' :: m.behind post) := by
  simp [text, headLines, fieldLines, behind, joinLines, hfields]

theorem plain_iff (h : m.WellFormed) (hfields : m.fields = pre ++ (f, cr) :: post)
    (hname : tolowerS f.name = ascii "server") (hne : trim f.value ≠ []) :
    plainServer m.text = trim f.value ↔ m.PlainClear pre f cr post := by
  have hf : f.WellFormed := h.fields (f, cr) (by simp [hfields])
  by_cases hearlier : Mentions m.line.1 ∨ ∃ f' ∈ pre, Mentions f'.1.text
  · rw [plainServer_eq_iff hne]
    refine ⟨.earlier hearlier, fun hclear => ?_⟩
    cases hclear with
    | first hline hpre =>
      rcases hearlier with hm | ⟨f', hf', hm⟩
      · exact absurd hm hline
      · exact absurd hm (hpre f' hf')
    | earlier _ hsame => exact hsame
  · obtain ⟨hline, hpre⟩ := not_or.mp hearlier
    have hpre : ∀ f' ∈ pre, ¬Mentions f'.1.text := fun f' hf' hm => hpre ⟨f', hf', hm⟩
    have hlines : ∀ l ∈ lineText m.line.1 m.line.2 :: pre.map fun f => lineText f.1.text f.2,
        ¬Mentions l := by
      rw [List.forall_mem_cons, List.forall_mem_map, mentions_lineText]
      exact ⟨hline, fun f' hf' => (mentions_lineText _).not.mpr (hpre f' hf')⟩
    have hmention : mention (lineText f.text cr ++ chr '\n' :: m.behind post) = some 0 := by
      have hlower : tolowerS (lineText f.text cr ++ chr '\n' :: m.behind post) =
          ascii "server" ++
            chr ':' :: tolowerS (lineText f.value cr ++ chr '\n' :: m.behind post) := by
        rw [lineText_field, List.append_assoc, List.cons_append, ← hname]
        exact List.map_append
      rw [mention, hlower]
      exact find_at_start (List.prefix_append (ascii "server:") _)
    have hdrop : (lineText f.text cr ++ chr '\n' :: m.behind post).drop 7 =
        lineText f.value cr ++ chr '\n' :: m.behind post := by
      have hlen : f.name.length = 6 := by
        rw [← List.length_map tolower]
        exact congrArg List.length hname
      rw [lineText_field, List.append_assoc, List.cons_append,
        show f.name ++ chr ':' :: (lineText f.value cr ++ chr '\n' :: m.behind post) =
          (f.name ++ [chr ':']) ++ (lineText f.value cr ++ chr '\n' :: m.behind post) by simp,
        List.drop_left' (by simp [hlen])]
    have hplain : plainServer m.text =
        trim (untilEnd (lineText f.value cr ++ chr '\n' :: m.behind post)) := by
      rw [plainServer_eq_of_mention, text_eq hfields, mention_joinLines hlines, hmention]
      simp only [Option.map_some, Option.getD_some, Nat.zero_add, List.drop_length_add_append,
        hdrop]
    rw [hplain, trim_untilEnd_iff hf.value hne]
    refine ⟨.first hline hpre, fun hclear => ?_⟩
    cases hclear with
    | first _ _ hends => exact hends
    | earlier hm => exact absurd hm hearlier

/-- `get_header` finds the field, unless the first line passes for it. -/
theorem getHeader_eq_iff (h : m.WellFormed) (hfields : m.fields = pre ++ (f, cr) :: post)
    (hname : tolowerS f.name = ascii "server")
    (hpre : ∀ f' ∈ pre, tolowerS f'.1.name ≠ ascii "server") :
    getHeader m.text (tolowerS m.text) (ascii "Server") = trim f.value ↔
      (ascii "server:" <+: tolowerS m.line.1 → trim (m.line.1.drop 7) = trim f.value) := by
  have hvalue : (m.fields.map Prod.fst).find? (fun f => f.name.map tolower == ascii "server") =
      some f := by
    have hskip :
        (pre.map Prod.fst).find? (fun f => f.name.map tolower == ascii "server") = none := by
      simpa [tolowerS] using hpre
    rw [hfields, List.map_append, List.find?_append, hskip, Option.none_or]
    exact List.find?_cons_of_pos (beq_iff_eq.mpr hname)
  have hfind := find_fieldLine tolower_colon (ascii "server") (by decide) (by decide) h.fields
  rw [hvalue, Option.map_some] at hfind
  have hline : begins tolower (ascii "server" ++ ascii ":") (lineText m.line.1 m.line.2) = true ↔
      ascii "server:" <+: tolowerS m.line.1 := by
    rw [begins_iff, lineText]
    split
    · rw [List.map_append]
      exact prefix_append_sep (by decide)
    · rfl
  rw [getHeader_eq (by decide) (by decide), textLines_text h, fieldIn_append, fieldIn, headLines,
    show tolowerS (ascii "Server") = ascii "server" by decide]
  by_cases hfirst : ascii "server:" <+: tolowerS m.line.1
  · have hlen : 7 ≤ m.line.1.length := by
      rw [← List.length_map tolower]
      exact hfirst.length_le
    have hdrop : (lineText m.line.1 m.line.2).drop 7 = lineText (m.line.1.drop 7) m.line.2 := by
      unfold lineText
      split
      · exact List.drop_append_of_le_length hlen
      · rfl
    rw [List.find?_cons_of_pos (hline.mpr hfirst), Option.map_some, Option.some_or,
      Option.getD_some, fieldText, show (ascii "Server").length + 1 = 7 from rfl, hdrop,
      trim_lineText]
    exact ⟨fun h _ => h, fun h => h hfirst⟩
  · rw [List.find?_cons_of_neg (hline.not.mpr hfirst), fieldLines, List.find?_append,
      Option.map_or, hfind]
    exact iff_of_true rfl fun hm => absurd hm hfirst

theorem serverField_eq_some_iff : m.serverField = some f ↔
    ∃ pre cr post, m.fields = pre ++ (f, cr) :: post ∧ tolowerS f.name = ascii "server" ∧
      ∀ f' ∈ pre, tolowerS f'.1.name ≠ ascii "server" := by
  simp only [serverField, List.find?_eq_some_iff_append, beq_iff_eq]
  constructor
  · rintro ⟨hname, pre, post, hsplit, hpre⟩
    obtain ⟨pre', rest, hfields, rfl, hrest⟩ := List.map_eq_append_iff.mp hsplit
    obtain ⟨⟨f', cr⟩, post', rfl, rfl, -⟩ := List.map_eq_cons_iff.mp hrest
    refine ⟨pre', cr, post', hfields, hname, fun g hg => ?_⟩
    simpa using hpre g.1 (List.mem_map_of_mem hg)
  · rintro ⟨pre, cr, post, hfields, hname, hpre⟩
    refine ⟨hname, pre.map Prod.fst, post.map Prod.fst, ?_, ?_⟩
    · rw [hfields, List.map_append, List.map_cons]
    · exact List.forall_mem_map.mpr fun g hg => by simpa using hpre g hg

theorem serverField_eq_none_iff :
    m.serverField = none ↔ ∀ f ∈ m.fields, tolowerS f.1.name ≠ ascii "server" := by
  simp [serverField]

end

/-- Both probes have the value of the field, which `get_header` finds too, and
nothing exactly where there is no field. -/
structure OneServer (m : LineReply) (serverHdr plain header : Bytes) : Prop where
  field : ∀ f, m.serverField = some f →
    serverHdr = trim f.value ∧ plain = trim f.value ∧ header = trim f.value
  https_nil : serverHdr = [] ↔ m.serverField = none
  plain_nil : plain = [] ↔ m.serverField = none

theorem oneServer_of_none {serverHdr plain header : Bytes} (hnone : m.serverField = none) :
    m.OneServer serverHdr plain header ↔ serverHdr = [] ∧ plain = [] := by
  constructor
  · exact fun h => ⟨h.https_nil.mpr hnone, h.plain_nil.mpr hnone⟩
  · rintro ⟨rfl, rfl⟩
    exact ⟨fun f hf => (by cases hnone.symm.trans hf), iff_of_true rfl hnone, iff_of_true rfl hnone⟩

theorem oneServer_of_some {serverHdr plain header : Bytes} {f : Field}
    (hsome : m.serverField = some f) :
    m.OneServer serverHdr plain header ↔ trim f.value ≠ [] ∧ serverHdr = trim f.value ∧
      plain = trim f.value ∧ header = trim f.value := by
  have hne : m.serverField ≠ none := by simp [hsome]
  constructor
  · intro h
    obtain ⟨rfl, hplain, hheader⟩ := h.field f hsome
    exact ⟨fun hnil => hne (h.https_nil.mp hnil), rfl, hplain, hheader⟩
  · rintro ⟨hvalue, rfl, rfl, rfl⟩
    refine ⟨fun f' hf' => ?_, iff_of_false hvalue hne, iff_of_false hvalue hne⟩
    obtain rfl := Option.some.inj (hsome.symm.trans hf')
    exact ⟨rfl, rfl, rfl⟩

/-- The probes agree on the Server field of a reply, and with `get_header`,
exactly where it is clear. -/
theorem oneServer_iff_serverClear (m : LineReply) (h : m.WellFormed) (turn : Nat → ReadTurn)
    (hread : (readProbe turn 6 []).1 = m.text) :
    m.OneServer (httpsProbe turn).serverHdr (plainServer m.text)
        (getHeader m.text (tolowerS m.text) (ascii "Server")) ↔
      m.ServerClear := by
  cases hfield : m.serverField with
  | none =>
    have hnone := serverField_eq_none_iff.mp hfield
    rw [oneServer_of_none hfield, serverHdr_nil_iff h hread hnone, plainServer_eq_nil_iff]
    refine ⟨fun ⟨hhttps, hplain⟩ => .absent hnone hhttps hplain, fun hclear => ?_⟩
    cases hclear with
    | @present pre post f cr hfields hname =>
      exact absurd hname (hnone (f, cr) (hfields ▸ List.mem_append_right _ List.mem_cons_self))
    | absent _ hhttps hplain => exact ⟨hhttps, hplain⟩
  | some f =>
    rw [oneServer_of_some hfield]
    constructor
    · rintro ⟨hne, hhttps, hplain, hheader⟩
      obtain ⟨pre, cr, post, hfields, hname, hpre⟩ := serverField_eq_some_iff.mp hfield
      exact .present hfields hname hpre hne ((serverHdr_iff h hread hfields hpre hne).mp hhttps)
        ((plain_iff h hfields hname hne).mp hplain)
        ((getHeader_eq_iff h hfields hname hpre).mp hheader)
    · intro hclear
      cases hclear with
      | present hfields hname hpre hne hhttps hplain hline =>
        obtain rfl := Option.some.inj (hfield.symm.trans
          (serverField_eq_some_iff.mpr ⟨_, _, _, hfields, hname, hpre⟩))
        exact ⟨hne, (serverHdr_iff h hread hfields hpre hne).mpr hhttps,
          (plain_iff h hfields hname hne).mpr hplain,
          (getHeader_eq_iff h hfields hname hpre).mpr hline⟩
      | absent hnone =>
        cases hfield.symm.trans (serverField_eq_none_iff.mpr hnone)

def okReply : LineReply where
  line := (ascii "HTTP/1.1 200 OK", true)
  fields := [(⟨ascii "Date", ascii " today"⟩, true), (⟨ascii "Server", ascii " nginx"⟩, true),
    (⟨ascii "X-Server", ascii " a"⟩, true)]
  blank := true
  page := ascii "<html>"

theorem wellFormed_okReply : okReply.WellFormed := by
  refine ⟨by decide, ?_⟩
  simp only [okReply, List.forall_mem_cons]
  exact ⟨⟨by decide, List.all_iff_forall_prop.mp (by decide), by decide⟩,
    ⟨by decide, List.all_iff_forall_prop.mp (by decide), by decide⟩,
    ⟨by decide, List.all_iff_forall_prop.mp (by decide), by decide⟩, List.forall_mem_nil _⟩

theorem oneServer_okReply :
    okReply.OneServer (httpsProbe (readOnce okReply.text)).serverHdr (plainServer okReply.text)
      (getHeader okReply.text (tolowerS okReply.text) (ascii "Server")) := by
  refine (oneServer_iff_serverClear okReply wellFormed_okReply _ (by decide)).mpr ?_
  have hfields : okReply.fields = [(⟨ascii "Date", ascii " today"⟩, true)] ++
      (⟨ascii "Server", ascii " nginx"⟩, true) :: [(⟨ascii "X-Server", ascii " a"⟩, true)] := rfl
  refine .present hfields (by decide) ?_ (by decide) (.usual rfl) (.first ?_ ?_ (.inl rfl))
    fun hm => absurd hm (by decide)
  · simp only [List.forall_mem_singleton]
    decide
  · exact mention_eq_none_iff.mp (by decide)
  · simp only [List.forall_mem_singleton]
    exact mention_eq_none_iff.mp (by decide)

def xServerReply : LineReply where
  line := (ascii "HTTP/1.1 200 OK", true)
  fields := [(⟨ascii "X-Server", ascii " a"⟩, true), (⟨ascii "Server", ascii " b"⟩, true)]
  blank := true
  page := []

/-- Two names with the word in them: the plain probe takes the first. -/
theorem not_oneServer_xServer :
    xServerReply.WellFormed ∧
      (readProbe (readOnce xServerReply.text) 6 []).1 = xServerReply.text ∧
      ¬ xServerReply.OneServer (httpsProbe (readOnce xServerReply.text)).serverHdr
        (plainServer xServerReply.text)
        (getHeader xServerReply.text (tolowerS xServerReply.text) (ascii "Server")) := by
  refine ⟨⟨by decide, ?_⟩, by decide, fun h => ?_⟩
  · simp only [xServerReply, List.forall_mem_cons]
    exact ⟨⟨by decide, List.all_iff_forall_prop.mp (by decide), by decide⟩,
      ⟨by decide, List.all_iff_forall_prop.mp (by decide), by decide⟩, List.forall_mem_nil _⟩
  · obtain ⟨-, hplain, -⟩ := h.field ⟨ascii "Server", ascii " b"⟩ rfl
    exact absurd hplain (by decide)

end LineReply

end ByeByeVpn
