import ByeByeVpn.Network.HttpsProbe

/-!
# Status lines

Three functions read the status of a reply. `http_get` looks for two spaces in
the whole header block, `https_probe` for two spaces in the trimmed first line,
and `fp_http_connect` takes the end of the trimmed line for the second one.
-/

namespace ByeByeVpn

open Search
open Http (crlf)

/-- `HTTP/d.d`, a space, three digits, and then nothing or a space and a
reason. -/
structure StatusLine where
  major : UInt8
  minor : UInt8
  code : Bytes
  reason : Option Bytes
  major_digit : isdigit major = true
  minor_digit : isdigit minor = true
  code_digits : ∀ c ∈ code, isdigit c = true
  code_length : code.length = 3

namespace StatusLine

variable (s : StatusLine)

def version : Bytes := ascii "HTTP/" ++ [s.major, chr '.', s.minor]

def text : Bytes :=
  s.version ++ chr ' ' :: (s.code ++ (s.reason.map (chr ' ' :: ·)).getD [])

def status : Int := ofDigits 10 s.code

def HasReason : Prop := ∃ reason ∈ s.reason, ∃ c ∈ reason, isspace c = false

end StatusLine

/-- A reply as the three functions have it: `http_get` all of it, the others
as many bytes as they have read, and these include the first line. -/
structure HeldReply where
  line : Bytes
  lines : List Bytes
  body : Bytes
  probed : Nat
  connected : Nat
  line_ok : Http.InLine line
  lines_ok : ∀ l ∈ lines, l ≠ [] ∧ Http.InLine l
  probed_ok : line.length ≤ probed
  connected_ok : line.length ≤ connected

namespace HeldReply

variable (r : HeldReply)

def head : Bytes := r.line ++ r.lines.flatMap (crlf ++ ·)

def text : Bytes := r.head ++ crlf ++ crlf ++ r.body

def httpGet : Int := (parseResponse r.text).status

def httpsProbe : Int := (analyzeReply (r.text.take r.probed) []).statusCode

def httpConnect : Int := connectStatus (firstLine (r.text.take r.connected))

end HeldReply

-- ---------------------------------------------------------------------------
-- What is read
-- ---------------------------------------------------------------------------

section
variable {a code : Bytes}

theorem ofDigits_lt {ds : Bytes} (h : ∀ c ∈ ds, isdigit c = true) :
    ofDigits 10 ds < 10 ^ ds.length := by
  unfold ofDigits
  induction ds using List.reverseRecOn with
  | nil => simp
  | append_singleton ds c ih =>
    have hc := isDigitOf_of_isdigit (h c (by simp))
    have := ih fun d hd => h d (by simp [hd])
    simp only [isDigitOf, decide_eq_true_eq] at hc
    rw [List.foldl_append, List.length_append, List.length_singleton, Nat.pow_succ]
    simp only [List.foldl_cons, List.foldl_nil]
    omega

theorem strtol_code (hd : ∀ c ∈ code, isdigit c = true) (hl : code.length = 3) :
    strtol 10 code = ⟨ofDigits 10 code, [], true, true⟩ := by
  have hlt := ofDigits_lt hd
  rw [hl] at hlt
  have hne : code ≠ [] := by
    rintro rfl
    cases hl
  have hdigits : strtol 10 (code ++ []) = ⟨ofDigits 10 code, [], true, true⟩ :=
    strtol_digits (by decide) hne (fun c hc => isDigitOf_of_isdigit (hd c hc)) (by simp)
      (by simp only [longMax]; omega)
  rwa [List.append_nil] at hdigits

theorem atoi_code (hd : ∀ c ∈ code, isdigit c = true) (hl : code.length = 3) :
    atoi code = ofDigits 10 code := by
  have hlt := ofDigits_lt hd
  rw [hl] at hlt
  rw [atoi, strtol_code hd hl]
  dsimp only
  exact Int.bmod_eq_of_le (by omega) (by omega)

theorem find_spaces (ha : chr ' ' ∉ a) (b : Bytes) :
    find [chr ' '] (a ++ chr ' ' :: b) = some a.length ∧
      findFrom [chr ' '] (a ++ chr ' ' :: b) (a.length + 1) =
        (find [chr ' '] b).map (· + (a.length + 1)) ∧
      (a ++ chr ' ' :: b).drop (a.length + 1) = b := by
  have hdrop : (a ++ chr ' ' :: b).drop (a.length + 1) = b := by
    rw [List.drop_length_add_append]
    rfl
  exact ⟨find_letter ha b, by rw [findFrom, hdrop], hdrop⟩

/-- The text up to the next space is the code when a space follows. -/
theorem find_code (hc : chr ' ' ∉ code) (b : Bytes) :
    find [chr ' '] (code ++ chr ' ' :: b) = some code.length ∧
      (code ++ chr ' ' :: b).take code.length = code :=
  ⟨find_letter hc b, List.take_left⟩

end

theorem space_not_mem {code : Bytes} (h : ∀ c ∈ code, isdigit c = true) : chr ' ' ∉ code :=
  fun hm => absurd (h _ hm) (by decide)

/-- The part of the header block that `http_get` takes for the status. -/
structure CodeAt (head a code b : Bytes) : Prop where
  eq : head = a ++ chr ' ' :: (code ++ chr ' ' :: b)
  first : chr ' ' ∉ a
  digits : ∀ c ∈ code, isdigit c = true
  length : code.length = 3

variable {head a code b : Bytes}

theorem httpStatus_eq (ha : chr ' ' ∉ a) (hc : chr ' ' ∉ code) (b : Bytes) :
    httpStatus (a ++ chr ' ' :: (code ++ chr ' ' :: b)) =
      if code.length == 3 && code.all isdigit then
        if (strtol 10 code).converted && (strtol 10 code).rest.headD 0 == 0 then
          (strtol 10 code).value
        else 0
      else 0 := by
  obtain ⟨h₁, h₂, h₃⟩ := find_spaces ha (code ++ chr ' ' :: b)
  obtain ⟨h₄, h₅⟩ := find_code hc b
  have hlen : code.length + (a.length + 1) - a.length - 1 = code.length := by omega
  unfold httpStatus
  rw [h₁]
  dsimp only
  rw [h₂, h₄, Option.map_some]
  dsimp only
  rw [h₃, hlen, h₅]

theorem httpStatus_of_codeAt (h : CodeAt head a code b) : httpStatus head = ofDigits 10 code := by
  have hall : (code.length == 3 && code.all isdigit) = true := by
    rw [h.length, List.all_eq_true.mpr h.digits]
    rfl
  rw [h.eq, httpStatus_eq h.first (space_not_mem h.digits), if_pos hall,
    strtol_code h.digits h.length]
  rfl

theorem exists_codeAt (h : httpStatus head ≠ 0) : ∃ a code b, CodeAt head a code b := by
  by_cases hhead : chr ' ' ∈ head
  · obtain ⟨a, t, rfl, ha⟩ := List.eq_append_cons_of_mem hhead
    by_cases ht : chr ' ' ∈ t
    · obtain ⟨code, b, rfl, hc⟩ := List.eq_append_cons_of_mem ht
      rw [httpStatus_eq ha hc] at h
      split_ifs at h with hall
      · rw [Bool.and_eq_true, beq_iff_eq, List.all_eq_true] at hall
        exact ⟨a, code, b, rfl, ha, hall.2, hall.1⟩
      · exact absurd rfl h
      · exact absurd rfl h
    · -- no second space
      obtain ⟨h₁, h₂, -⟩ := find_spaces ha t
      rw [find_eq_none ht, Option.map_none] at h₂
      unfold httpStatus at h
      rw [h₁] at h
      dsimp only at h
      rw [h₂] at h
      exact absurd rfl h
  · unfold httpStatus at h
    rw [find_eq_none hhead] at h
    exact absurd rfl h

theorem space_unique {a a' t t' : Bytes} (ha : chr ' ' ∉ a) (ha' : chr ' ' ∉ a')
    (h : a ++ chr ' ' :: t = a' ++ chr ' ' :: t') : a = a' ∧ t = t' := by
  have hlen : a.length = a'.length := by
    have h₁ := find_letter ha t
    rw [h, find_letter ha' t'] at h₁
    exact (Option.some.inj h₁).symm
  obtain ⟨rfl, ht⟩ := List.append_inj h hlen
  exact ⟨rfl, (List.cons.inj ht).2⟩

-- ---------------------------------------------------------------------------
-- First lines
-- ---------------------------------------------------------------------------

namespace HeldReply

variable (r : HeldReply)

theorem httpGet_eq : r.httpGet = httpStatus r.head := by
  have hlines : ∀ l ∈ r.lines, l ≠ [] ∧ (13 : UInt8) ∉ l :=
    fun l hl => ⟨(r.lines_ok l hl).1, (r.lines_ok l hl).2.1⟩
  have hfind : find (crlf ++ crlf) r.text = some r.head.length :=
    Http.find_blankLine_from hlines r.line_ok.1 r.body
  have htake : r.text.take r.head.length = r.head := by
    rw [text, List.append_assoc, List.append_assoc, List.take_left]
  unfold httpGet parseResponse
  rw [hfind]
  dsimp only
  rw [htake]

theorem text_eq : ∃ t, r.text = r.line ++ 13 :: chr '\n' :: t := by
  have hcrlf : crlf = [13, chr '\n'] := rfl
  unfold text head
  rw [hcrlf]
  cases r.lines with
  | nil => exact ⟨13 :: chr '\n' :: r.body, by simp⟩
  | cons l lines =>
    refine ⟨l ++ lines.flatMap ([13, chr '\n'] ++ ·) ++ [13, chr '\n', 13, chr '\n'] ++ r.body, ?_⟩
    simp

theorem firstLine_take {n : Nat} (h : r.line.length ≤ n) :
    firstLine (r.text.take n) = trim r.line := by
  have hnl : chr '\n' ∉ r.line ++ [13] := by
    intro hm
    rcases List.mem_append.mp hm with hm | hm
    · exact r.line_ok.2 hm
    · exact absurd hm (by decide)
  have hcr : ∀ rest, Lines.EndsLine (chr '\n') rest →
      firstLine (r.line ++ 13 :: rest) = trim r.line := by
    intro rest hrest
    rw [← trim_append_space (by decide : isspace 13 = true), ← firstLine_eq hnl hrest,
      List.append_assoc]
    rfl
  obtain ⟨t, ht⟩ := r.text_eq
  obtain ⟨m, rfl⟩ := Nat.exists_eq_add_of_le h
  rw [ht, List.take_length_add_append]
  match m with
  | 0 => exact firstLine_eq r.line_ok.2 (by simp [Lines.EndsLine])
  | 1 => exact hcr [] (by simp [Lines.EndsLine])
  | m + 2 => exact hcr (chr '\n' :: t.take m) (by simp [Lines.EndsLine])

end HeldReply

namespace StatusLine

variable (s : StatusLine)

theorem version_no_space : chr ' ' ∉ s.version := by
  have hmajor : chr ' ' ≠ s.major := by
    intro h
    exact absurd (h ▸ s.major_digit) (by decide)
  have hminor : chr ' ' ≠ s.minor := by
    intro h
    exact absurd (h ▸ s.minor_digit) (by decide)
  have hdot : chr ' ' ≠ chr '.' := by decide
  have hhttp : chr ' ' ∉ ascii "HTTP/" := by decide
  simp [version, hhttp, hmajor, hminor, hdot]

theorem code_no_space : chr ' ' ∉ s.code := space_not_mem s.code_digits

theorem startsWith_http (t : Bytes) : startsWith (s.version ++ t) (ascii "HTTP/") = true := by
  rw [startsWith_iff, version, List.append_assoc]
  exact List.prefix_append ..

theorem trim_version (t : Bytes) :
    trim (s.version ++ chr ' ' :: (s.code ++ t)) =
      s.version ++ chr ' ' :: (s.code ++ t).rdropWhile isspace := by
  have hspace : ∃ c ∈ s.code ++ t, isspace c = false := by
    obtain ⟨x, y, z, hxyz⟩ := List.length_eq_three.mp s.code_length
    exact ⟨x, by simp [hxyz], isspace_of_isdigit (s.code_digits x (by simp [hxyz]))⟩
  have hdrop : (s.version ++ chr ' ' :: (s.code ++ t)).dropWhile isspace =
      s.version ++ chr ' ' :: (s.code ++ t) := rfl
  rw [trim, hdrop, List.append_cons, rdropWhile_append hspace, ← List.append_cons]

theorem trim_text_of_hasReason (h : s.HasReason) :
    ∃ b, trim s.text = s.version ++ chr ' ' :: (s.code ++ chr ' ' :: b) := by
  obtain ⟨reason, hr, hspace⟩ := h
  refine ⟨reason.rdropWhile isspace, ?_⟩
  rw [text, hr, trim_version, Option.map_some, Option.getD_some, List.append_cons s.code,
    rdropWhile_append hspace, ← List.append_cons]

theorem trim_text_of_not_hasReason (h : ¬s.HasReason) :
    trim s.text = s.version ++ chr ' ' :: s.code := by
  have hspaces : ∀ c ∈ (s.reason.map (chr ' ' :: ·)).getD [], isspace c = true := by
    cases hr : s.reason with
    | none => simp
    | some reason =>
      rw [Option.map_some, Option.getD_some, List.forall_mem_cons]
      refine ⟨by decide, fun c hc => ?_⟩
      rw [← Bool.not_eq_false]
      exact fun hf => h ⟨reason, hr, c, hc, hf⟩
  have hcode : s.code.rdropWhile isspace = s.code := by
    rw [List.rdropWhile_eq_self_iff]
    intro hne
    rw [isspace_of_isdigit (s.code_digits _ (List.getLast_mem hne))]
    exact Bool.false_ne_true
  rw [text, trim_version, rdropWhile_append_of_forall hspaces, hcode]

theorem probeStatus_reason (b : Bytes) :
    probeStatus (s.version ++ chr ' ' :: (s.code ++ chr ' ' :: b)) = s.status := by
  obtain ⟨h₁, h₂, h₃⟩ := find_spaces s.version_no_space (s.code ++ chr ' ' :: b)
  obtain ⟨h₄, h₅⟩ := find_code s.code_no_space b
  have hlen : s.code.length + (s.version.length + 1) - s.version.length - 1 = s.code.length := by
    omega
  unfold probeStatus
  rw [if_pos (s.startsWith_http _), h₁]
  dsimp only
  rw [h₂, h₄, Option.map_some]
  dsimp only
  rw [h₃, hlen, h₅, atoi_code s.code_digits s.code_length]
  rfl

theorem probeStatus_bare : probeStatus (s.version ++ chr ' ' :: s.code) = 0 := by
  obtain ⟨h₁, h₂, -⟩ := find_spaces s.version_no_space s.code
  unfold probeStatus
  rw [if_pos (s.startsWith_http _), h₁]
  dsimp only
  rw [h₂, find_eq_none s.code_no_space]
  rfl

theorem connectStatus_eq (t : Bytes) (ht : ∀ c ∈ t.head?, c = chr ' ') :
    connectStatus (s.version ++ chr ' ' :: (s.code ++ t)) = s.status := by
  obtain ⟨h₁, h₂, h₃⟩ := find_spaces s.version_no_space (s.code ++ t)
  have hcode : ((findFrom [chr ' '] (s.version ++ chr ' ' :: (s.code ++ t))
      (s.version.length + 1)).getD (s.version ++ chr ' ' :: (s.code ++ t)).length) -
      (s.version.length + 1) = s.code.length := by
    rw [h₂]
    cases t with
    | nil =>
      rw [List.append_nil, find_eq_none s.code_no_space, Option.map_none, Option.getD_none,
        List.length_append, List.length_cons]
      omega
    | cons c t =>
      obtain rfl := ht c rfl
      rw [find_letter s.code_no_space, Option.map_some, Option.getD_some]
      omega
  have hlt : s.version.length + 1 < (s.version ++ chr ' ' :: (s.code ++ t)).length := by
    rw [List.length_append, List.length_cons, List.length_append, s.code_length]
    omega
  have hall : (s.code.length == 3 && s.code.all isdigit) = true := by
    rw [s.code_length, List.all_eq_true.mpr s.code_digits]
    rfl
  unfold connectStatus
  rw [h₁]
  dsimp only
  rw [if_pos hlt, hcode, h₃, List.take_left, if_pos hall, atoi_code s.code_digits s.code_length]
  rfl

end StatusLine

-- ---------------------------------------------------------------------------
-- The three readers
-- ---------------------------------------------------------------------------

/-- The status comes from the first line alone. -/
structure StatusLineRead (r : HeldReply) : Prop where
  shaped : ∀ s : StatusLine, s.text = r.line →
    r.httpGet = s.status ∧ r.httpsProbe = s.status ∧ r.httpConnect = s.status
  other : (∀ s : StatusLine, s.text ≠ r.line) → r.httpGet = 0

/-- A status line has a reason, or its status is zero; and behind a line of
another shape, the header block has no digits where the status is looked for. -/
structure PlainStatus (r : HeldReply) : Prop where
  shaped : ∀ s : StatusLine, s.text = r.line → s.HasReason ∨ s.status = 0
  other : (∀ s : StatusLine, s.text ≠ r.line) →
    ∀ a code b, CodeAt r.head a code b → ofDigits 10 code = 0

namespace HeldReply

variable {r : HeldReply} {s : StatusLine}

theorem httpsProbe_eq (r : HeldReply) : r.httpsProbe = probeStatus (trim r.line) := by
  rw [httpsProbe, ← r.firstLine_take r.probed_ok]
  generalize r.text.take r.probed = body
  unfold analyzeReply
  split_ifs with he
  · rw [List.isEmpty_iff.mp he]
    rfl
  · rfl

theorem httpConnect_eq (r : HeldReply) : r.httpConnect = connectStatus (trim r.line) := by
  rw [httpConnect, r.firstLine_take r.connected_ok]

theorem httpsProbe_shaped (h : s.text = r.line) :
    r.httpsProbe = s.status ↔ s.HasReason ∨ s.status = 0 := by
  rw [httpsProbe_eq, ← h]
  by_cases hr : s.HasReason
  · obtain ⟨b, hb⟩ := s.trim_text_of_hasReason hr
    rw [hb, s.probeStatus_reason]
    simp [hr]
  · rw [s.trim_text_of_not_hasReason hr, s.probeStatus_bare]
    simp [hr, eq_comm]

theorem httpConnect_shaped (h : s.text = r.line) : r.httpConnect = s.status := by
  rw [httpConnect_eq, ← h]
  by_cases hr : s.HasReason
  · obtain ⟨b, hb⟩ := s.trim_text_of_hasReason hr
    rw [hb, s.connectStatus_eq _ (by simp)]
  · have := s.connectStatus_eq [] (by simp)
    rwa [List.append_nil, ← s.trim_text_of_not_hasReason hr] at this

/-- Without a reason the second space is not on the line, and the text up to it
is too long. -/
theorem httpGet_shaped (h : s.text = r.line) :
    r.httpGet = if s.reason.isSome then s.status else 0 := by
  have hhead : r.head = s.version ++ chr ' ' :: (s.code ++ ((s.reason.map (chr ' ' :: ·)).getD [] ++
      r.lines.flatMap (crlf ++ ·))) := by
    rw [head, ← h, StatusLine.text]
    simp
  rw [httpGet_eq]
  cases hr : s.reason with
  | some reason =>
    rw [hr] at hhead
    exact httpStatus_of_codeAt ⟨hhead, s.version_no_space, s.code_digits, s.code_length⟩
  | none =>
    rw [hr] at hhead
    by_contra hne
    obtain ⟨a, code, b, hcode⟩ := exists_codeAt hne
    obtain ⟨-, htail⟩ := space_unique hcode.first s.version_no_space (hcode.eq.symm.trans hhead)
    have hlen : code.length = s.code.length := by rw [hcode.length, s.code_length]
    obtain ⟨-, hlines⟩ := List.append_inj htail hlen
    cases hl : r.lines with
    | nil => simp [hl] at hlines
    | cons l lines =>
      rw [hl] at hlines
      exact absurd (List.cons.inj hlines).1 (by decide)

end HeldReply

theorem statusLineRead_iff (r : HeldReply) : StatusLineRead r ↔ PlainStatus r := by
  have hother : r.httpGet = 0 ↔ ∀ a code b, CodeAt r.head a code b → ofDigits 10 code = 0 := by
    rw [HeldReply.httpGet_eq]
    constructor
    · intro h a code b hcode
      rw [httpStatus_of_codeAt hcode] at h
      exact_mod_cast h
    · intro h
      by_contra hne
      obtain ⟨a, code, b, hcode⟩ := exists_codeAt hne
      rw [httpStatus_of_codeAt hcode, h a code b hcode] at hne
      exact hne rfl
  constructor
  · intro h
    exact ⟨fun s hs => (HeldReply.httpsProbe_shaped hs).mp (h.shaped s hs).2.1,
      fun hs => hother.mp (h.other hs)⟩
  · intro h
    refine ⟨fun s hs => ⟨?_, (HeldReply.httpsProbe_shaped hs).mpr (h.shaped s hs),
      HeldReply.httpConnect_shaped hs⟩, fun hs => hother.mpr (h.other hs)⟩
    rw [HeldReply.httpGet_shaped hs]
    rcases h.shaped s hs with ⟨reason, hr, -⟩ | hzero
    · rw [hr]
      rfl
    · simp [hzero]

/-- Two replies with one first line are read alike, and as it says, when it
has a reason or stands for no status. -/
theorem statusLines_iff (r r' : HeldReply) (h : r.line = r'.line) :
    (StatusLineRead r ∧ StatusLineRead r' ∧ r.httpGet = r'.httpGet ∧
        r.httpsProbe = r'.httpsProbe ∧ r.httpConnect = r'.httpConnect) ↔
      PlainStatus r ∧ PlainStatus r' := by
  rw [statusLineRead_iff, statusLineRead_iff]
  refine ⟨fun hr => ⟨hr.1, hr.2.1⟩, fun ⟨hr, hr'⟩ => ⟨hr, hr', ?_, ?_, ?_⟩⟩
  · obtain ⟨hs, ho⟩ := (statusLineRead_iff r).mpr hr
    obtain ⟨hs', ho'⟩ := (statusLineRead_iff r').mpr hr'
    by_cases hshape : ∃ s : StatusLine, s.text = r.line
    · obtain ⟨s, htext⟩ := hshape
      rw [(hs s htext).1, (hs' s (htext.trans h)).1]
    · have hnone : ∀ s : StatusLine, s.text ≠ r.line := not_exists.mp hshape
      rw [ho hnone, ho' (h ▸ hnone)]
  · rw [r.httpsProbe_eq, r'.httpsProbe_eq, h]
  · rw [r.httpConnect_eq, r'.httpConnect_eq, h]

def status200 (reason : Option Bytes) : StatusLine where
  major := chr '1'
  minor := chr '1'
  code := ascii "200"
  reason := reason
  major_digit := by decide
  minor_digit := by decide
  code_digits := List.all_eq_true.mp (by decide)
  code_length := by decide

def replyOf (s : StatusLine) (h : Http.InLine s.text) : HeldReply where
  line := s.text
  lines := []
  body := []
  probed := s.text.length
  connected := s.text.length
  line_ok := h
  lines_ok := by simp
  probed_ok := Nat.le_refl _
  connected_ok := Nat.le_refl _

theorem plainStatus_ok {r : HeldReply} (h : r.line = (status200 (some (ascii "OK"))).text) :
    PlainStatus r := by
  refine ⟨fun s hs => .inl ?_, fun hs => absurd h.symm (hs _)⟩
  by_contra hr
  have hlen := congrArg List.length (s.trim_text_of_not_hasReason hr)
  have h15 : (trim s.text).length = 15 := by
    rw [hs, h]
    decide
  have h5 : (ascii "HTTP/").length = 5 := by decide
  simp [StatusLine.version, s.code_length, h15, h5] at hlen

/-- A page, of which `https_probe` has read a part of the fields. -/
def pageReply : HeldReply :=
  { replyOf (status200 (some (ascii "OK"))) (by decide) with
    lines := ["Server: nginx", "Content-Type: text/html"].map ascii
    body := ascii "<html>"
    probed := 40
    lines_ok := by decide
    probed_ok := by decide }

/-- Another reply with the first line of the page. -/
def tunnelReply : HeldReply :=
  { replyOf (status200 (some (ascii "OK"))) (by decide) with
    lines := [ascii "Via: 1.1 proxy"]
    connected := 64
    lines_ok := by decide
    connected_ok := by decide }

theorem statusLines_ok :
    StatusLineRead pageReply ∧ StatusLineRead tunnelReply ∧
      pageReply.httpGet = tunnelReply.httpGet ∧ pageReply.httpsProbe = tunnelReply.httpsProbe ∧
      pageReply.httpConnect = tunnelReply.httpConnect :=
  (statusLines_iff pageReply tunnelReply rfl).mpr ⟨plainStatus_ok rfl, plainStatus_ok rfl⟩

/-- A status line that ends behind the digits is not read by `http_get`. -/
theorem status_not_read :
    ¬∀ r r' : HeldReply, r.line = r'.line →
      StatusLineRead r ∧ StatusLineRead r' ∧ r.httpGet = r'.httpGet ∧
        r.httpsProbe = r'.httpsProbe ∧ r.httpConnect = r'.httpConnect := by
  intro h
  have hread := (h (replyOf (status200 none) (by decide)) _ rfl).1
  have hstatus := (hread.shaped (status200 none) rfl).1
  rw [HeldReply.httpGet_shaped (s := status200 none) rfl] at hstatus
  exact absurd hstatus (by decide)

end ByeByeVpn
