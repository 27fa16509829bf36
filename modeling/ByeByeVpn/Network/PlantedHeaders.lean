import ByeByeVpn.Lib.Lines
import ByeByeVpn.Network.HttpsProbe

/-!
# Headers on the page

`https_probe` looks for header fields in all that it read. A field that the
header section lacks is found on the page when one of its lines starts with the
name.
-/

namespace ByeByeVpn

open Search Lines
open Http (crlf)

-- ---------------------------------------------------------------------------
-- Fields by lines
-- ---------------------------------------------------------------------------

def textLines (s : Bytes) : List Bytes := s.splitOn (chr '\n')

/-- The value in a line that starts with the name and a colon. -/
def fieldText (key l : Bytes) : Bytes := trim (l.drop (key.length + 1))

/-- The value in the first line that starts with the name, in any case, and a
colon. -/
def fieldIn (key : Bytes) (lines : List Bytes) : Option Bytes :=
  (lines.find? (begins tolower (tolowerS key ++ ascii ":"))).map (fieldText key)

theorem tolower_newline (x : UInt8) : tolower x = chr '\n' ↔ x = chr '\n' :=
  tolower_eq_iff (by decide) (by decide) x

theorem tolower_colon (x : UInt8) : tolower x = chr ':' ↔ x = chr ':' :=
  tolower_eq_iff (by decide) (by decide) x

variable {key l rest : Bytes}

theorem exists_name (hkey : chr ':' ∉ key) (h : tolowerS key ++ ascii ":" <+: tolowerS l) :
    ∃ k v, l = k ++ chr ':' :: v ∧ chr ':' ∉ k ∧ k.length = key.length := by
  obtain ⟨t, ht⟩ := h
  rw [List.append_assoc] at ht
  obtain ⟨k, r, rfl, hk, hr⟩ := List.map_eq_append_iff.mp ht.symm
  obtain ⟨c, v, rfl, hc, -⟩ := List.map_eq_cons_iff.mp hr
  obtain rfl := (tolower_colon c).mp hc
  refine ⟨k, v, rfl, fun hm => ?_, ?_⟩
  · have hmem : tolower (chr ':') ∈ tolowerS key := hk ▸ List.mem_map_of_mem hm
    exact not_mem_map tolower_colon hkey hmem
  · simpa [tolowerS] using congrArg List.length hk

theorem headerText_eq (before sep : Bytes) (hkey : chr ':' ∉ key) (hsep : chr ':' ∉ sep)
    (hl : chr '\n' ∉ l) (hrest : EndsLine (chr '\n') rest)
    (hbegins : tolowerS key ++ ascii ":" <+: tolowerS l) :
    headerText (before ++ sep ++ (l ++ rest)) before.length = fieldText key l := by
  obtain ⟨k, v, rfl, hk, hklen⟩ := exists_name hkey hbegins
  have hcolon : findFrom [chr ':'] (before ++ sep ++ (k ++ chr ':' :: v ++ rest)) before.length =
      some ((before ++ sep).length + key.length) := by
    have hsk : chr ':' ∉ sep ++ k := by simp [hsep, hk]
    rw [findFrom, List.append_assoc before, List.drop_left]
    have : sep ++ (k ++ chr ':' :: v ++ rest) = (sep ++ k) ++ chr ':' :: (v ++ rest) := by simp
    rw [this, find_letter hsk]
    simp [hklen]
    omega
  have hend := endOfLine (j := key.length + 1) hl hrest (by simp [hklen]) (before ++ sep)
  have htext : ((before ++ sep ++ (k ++ chr ':' :: v ++ rest)).drop
      ((before ++ sep).length + key.length + 1)).take
        ((k ++ chr ':' :: v).length - key.length - 1) =
      (k ++ chr ':' :: v).drop (key.length + 1) := by
    rw [Nat.add_assoc, List.drop_length_add_append, List.drop_append_of_le_length (by simp [hklen]),
      List.take_left' (by simp; omega)]
  have hlt : ¬(before ++ sep).length + (k ++ chr ':' :: v).length ≤
      (before ++ sep).length + key.length := by
    simp [hklen]
  unfold headerText
  rw [hcolon]
  dsimp only
  rw [Nat.add_assoc _ key.length, hend, if_neg hlt, ← Nat.add_assoc, Nat.add_sub_add_left, htext]
  rfl

/-- `get_header` goes by lines. -/
theorem getHeader_eq (hkey : chr ':' ∉ key) (hnl : chr '\n' ∉ key) (s : Bytes) :
    getHeader s (tolowerS s) key = (fieldIn key (textLines s)).getD [] := by
  have hpat : chr '\n' ∉ tolowerS key ++ ascii ":" := by
    intro h
    rcases List.mem_append.mp h with h | h
    · exact not_mem_map tolower_newline hnl h
    · exact absurd h (by decide)
  obtain ⟨l, ls, rest, hls, hs, hl, hrest⟩ := exists_firstLine (chr '\n') s
  have hrest' : EndsLine (chr '\n') (tolowerS rest) := hrest.map ((tolower_newline _).mpr rfl)
  have hstart : startsWith (tolowerS s) (tolowerS key ++ ascii ":") = true ↔
      tolowerS key ++ ascii ":" <+: tolowerS l := by
    have happ : tolowerS (l ++ rest) = tolowerS l ++ tolowerS rest := List.map_append
    rw [startsWith_iff, hs, happ]
    exact prefix_append_rest hpat hrest'
  unfold getHeader fieldIn
  rw [textLines, hls]
  by_cases hb : tolowerS key ++ ascii ":" <+: tolowerS l
  · -- the line at the start
    have hfind : findHeader (tolowerS s) key = some 0 := if_pos (hstart.mpr hb)
    have htext := headerText_eq [] [] hkey (by simp) hl hrest hb
    rw [List.append_nil, List.nil_append, ← hs] at htext
    rw [List.find?_cons_of_pos (begins_iff.mpr hb), hfind, Option.map_some, Option.map_some]
    exact htext
  · -- a line behind a newline, or none
    have hfind : findHeader (tolowerS s) key =
        find (chr '\n' :: (tolowerS key ++ ascii ":")) (s.map tolower) := if_neg (hstart.not.mpr hb)
    rw [List.find?_cons_of_neg (begins_iff.not.mpr hb), hfind]
    rcases find_line tolower_newline hpat s with
      ⟨hnone, hlines⟩ | ⟨before, l', rest', hs', hl', hrest', hb', hsome, hlines⟩
    · rw [hls, List.tail_cons] at hlines
      rw [hnone, hlines]
      rfl
    · have htext := headerText_eq before [chr '\n'] hkey (by decide) hl' hrest' hb'
      rw [List.append_assoc, List.singleton_append, ← hs'] at htext
      rw [hls, List.tail_cons] at hlines
      rw [hsome, hlines, Option.map_some, Option.map_some, htext]

/-- The first line that starts with the text. -/
def lineWith (pat : Bytes) (lines : List Bytes) : Option Bytes := lines.find? (begins id pat)

theorem serverText_eq (before : Bytes) {pat : Bytes} (hlen : pat.length = 7) (hl : chr '\n' ∉ l)
    (hrest : EndsLine (chr '\n') rest) (hpat : pat <+: l) :
    serverText (before ++ chr '\n' :: (l ++ rest)) before.length =
      fieldText (ascii "Server") l := by
  have h7 : 7 ≤ l.length := hlen ▸ hpat.length_le
  have hs : before ++ chr '\n' :: (l ++ rest) = (before ++ [chr '\n']) ++ (l ++ rest) := by simp
  have hend := endOfLine hl hrest (Nat.zero_le _) (before ++ [chr '\n'])
  have hlenb : (before ++ [chr '\n']).length = before.length + 1 := by simp
  rw [Nat.add_zero, ← hs, hlenb] at hend
  have hdrop : (before ++ chr '\n' :: (l ++ rest)).drop (before.length + 8) = l.drop 7 ++ rest := by
    rw [hs, show before.length + 8 = (before ++ [chr '\n']).length + 7 by simp,
      List.drop_length_add_append, List.drop_append_of_le_length h7]
  have htake : before.length + 1 + l.length - (before.length + 8) = (l.drop 7).length := by
    rw [List.length_drop]
    omega
  unfold serverText
  dsimp only
  rw [hend, hdrop, htake, List.take_left]
  rfl

theorem find_eq_lineWith {pat : Bytes} (hpat : chr '\n' ∉ pat) (hlen : pat.length = 7) (s : Bytes) :
    (find (chr '\n' :: pat) s).map (serverText s) =
      (lineWith pat (textLines s).tail).map (fieldText (ascii "Server")) := by
  have hfind := find_line (f := id) (fun x => Iff.rfl) hpat s
  rw [List.map_id] at hfind
  unfold lineWith textLines
  rcases hfind with ⟨hnone, hlines⟩ | ⟨before, l, rest, hs, hl, hrest, hp, hsome, hlines⟩
  · rw [hnone, hlines]
    rfl
  · rw [List.map_id] at hp
    rw [hsome, hlines, Option.map_some, Option.map_some, hs, serverText_eq before hlen hl hrest hp]

/-- The line that is taken for the Server field: the usual spelling first. -/
def serverLine (lines : List Bytes) : Option Bytes :=
  (lineWith (ascii "Server:") lines).or (lineWith (ascii "server:") lines)

theorem findServer_eq (s : Bytes) :
    (findServer s).map (serverText s) =
      (serverLine (textLines s).tail).map (fieldText (ascii "Server")) := by
  have hor : findServer s = (find (ascii "\nServer:") s).or (find (ascii "\nserver:") s) := by
    unfold findServer
    split
    · next h => rw [h, Option.some_or]
    · next h => rw [h, Option.none_or]
  have hupper := find_eq_lineWith (by decide : chr '\n' ∉ ascii "Server:") (by decide) s
  have hlower := find_eq_lineWith (by decide : chr '\n' ∉ ascii "server:") (by decide) s
  rw [hor, serverLine, Option.map_or, Option.map_or, ← hupper, ← hlower]
  rfl

-- ---------------------------------------------------------------------------
-- Two replies
-- ---------------------------------------------------------------------------

def headerFields : List (Bytes × (HttpsReport → Bytes)) :=
  [(ascii "Via", (·.viaHdr)),
   (ascii "Forwarded", (·.forwardedHdr)),
   (ascii "X-Forwarded-For", (·.xffHdr)),
   (ascii "X-Real-IP", (·.xrealIpHdr)),
   (ascii "X-Forwarded-Proto", (·.xForwardedProto)),
   (ascii "X-Forwarded-Host", (·.xForwardedHost)),
   (ascii "CF-Ray", (·.cfRayHdr)),
   (ascii "CF-Cache-Status", (·.cfCacheStatus)),
   (ascii "X-Amz-Cf-Id", (·.xAmzCfId)),
   (ascii "X-Amz-Cf-Pop", (·.xAmzCfPop)),
   (ascii "X-Azure-Ref", (·.xAzureRef)),
   (ascii "X-Azure-ClientIP", (·.xAzureClientip)),
   (ascii "X-Cache", (·.xCache)),
   (ascii "X-Served-By", (·.xServedBy)),
   (ascii "Alt-Svc", (·.altSvc))]

structure SameHeaders (r₁ r₂ : HttpsReport) : Prop where
  fields : ∀ f ∈ headerFields, f.2 r₁ = f.2 r₂
  serverHdr : r₁.serverHdr = r₂.serverHdr
  noServerHdr : r₁.noServerHdr = r₂.noServerHdr
  hasProxyLeak : r₁.hasProxyLeak = r₂.hasProxyLeak
  hasCdnHdr : r₁.hasCdnHdr = r₂.hasCdnHdr

/-- The line that becomes the Server field when the header section has no line
with the usual spelling. -/
def pageServer (head page : List Bytes) : Option Bytes :=
  (lineWith (ascii "Server:") page).or
    ((lineWith (ascii "server:") head).or (lineWith (ascii "server:") page))

/-- What the two pages have in common for each name that the header section
lacks. -/
structure NothingPlanted (status : Int) (head page₁ page₂ : List Bytes) : Prop where
  fields : ∀ f ∈ headerFields,
    (fieldIn f.1 head).isSome ∨ (fieldIn f.1 page₁).getD [] = (fieldIn f.1 page₂).getD []
  server : (lineWith (ascii "Server:") head.tail).isSome ∨
    ((pageServer head.tail page₁).map (fieldText (ascii "Server"))).getD [] =
      ((pageServer head.tail page₂).map (fieldText (ascii "Server"))).getD [] ∧
    (0 < status → (pageServer head.tail page₁).isSome = (pageServer head.tail page₂).isSome)

theorem fieldIn_append (key : Bytes) (a b : List Bytes) :
    fieldIn key (a ++ b) = (fieldIn key a).or (fieldIn key b) := by
  rw [fieldIn, List.find?_append, Option.map_or]
  rfl

theorem serverLine_append (head page : List Bytes) :
    serverLine (head ++ page) = (lineWith (ascii "Server:") head).or (pageServer head page) := by
  unfold serverLine pageServer lineWith
  rw [List.find?_append, List.find?_append, Option.or_assoc]

/-- The header section ends with a blank line, so no line is partly on the
page. -/
theorem textLines_page (head page : Bytes) :
    textLines (head ++ ascii "\r\n\r\n" ++ page) =
      textLines (head ++ ascii "\r\n\r") ++ textLines page := by
  have h : head ++ ascii "\r\n\r\n" ++ page = (head ++ ascii "\r\n\r") ++ chr '\n' :: page := by
    simp [ascii]
  rw [h]
  exact List.splitOn_append_cons_self _ _

theorem firstLine_page (head page : Bytes) :
    firstLine (head ++ ascii "\r\n\r\n" ++ page) = firstLine (head ++ ascii "\r\n\r\n") := by
  obtain ⟨l, -, rest, -, hs, hl, hrest⟩ := exists_firstLine (chr '\n') (head ++ ascii "\r\n\r")
  have hends : ∀ page, EndsLine (chr '\n') (rest ++ chr '\n' :: page) := by
    intro page
    cases rest with
    | nil => rintro d ⟨⟩; rfl
    | cons d rest => simpa [EndsLine] using hrest
  have hcut : ∀ page, firstLine (head ++ ascii "\r\n\r" ++ chr '\n' :: page) = trim l := by
    intro page
    rw [hs, List.append_assoc]
    exact firstLine_eq hl (hends page)
  have hpage := hcut page
  have hnil := hcut []
  simp only [ascii, List.append_assoc] at hpage hnil ⊢
  exact hpage.trans hnil.symm

variable {s : Bytes}

theorem field_analyzeReply (err : Bytes) (hs : s ≠ []) {f : Bytes × (HttpsReport → Bytes)}
    (hf : f ∈ headerFields) :
    f.2 (analyzeReply s err) = (fieldIn f.1 (textLines s)).getD [] := by
  have hne : ¬s.isEmpty = true := by simpa using hs
  have hkeys : (headerFields.map Prod.fst).all
      (fun key => !key.contains (chr ':') && !key.contains (chr '\n')) = true := by decide
  have hkey := List.all_eq_true.mp hkeys f.1 (List.mem_map_of_mem hf)
  simp only [Bool.and_eq_true, Bool.not_eq_true', List.contains_eq_mem, decide_eq_false_iff_not]
    at hkey
  rw [← getHeader_eq hkey.1 hkey.2]
  have hall : ∀ f ∈ headerFields, f.2 (analyzeReply s err) = getHeader s (tolowerS s) f.1 := by
    unfold analyzeReply
    rw [if_neg hne]
    simp [headerFields]
  exact hall f hf

theorem server_analyzeReply (err : Bytes) (hs : s ≠ []) :
    (analyzeReply s err).serverHdr =
        ((serverLine (textLines s).tail).map (fieldText (ascii "Server"))).getD [] ∧
      (analyzeReply s err).noServerHdr =
        ((serverLine (textLines s).tail).isNone && 0 < probeStatus (firstLine s)) := by
  have hne : ¬s.isEmpty = true := by simpa using hs
  have hfind := findServer_eq s
  unfold analyzeReply
  rw [if_neg hne]
  refine ⟨by rw [← hfind], ?_⟩
  have := congrArg Option.isNone hfind
  rw [Option.isNone_map, Option.isNone_map] at this
  rw [← this]

theorem flags_analyzeReply (s err : Bytes) :
    (analyzeReply s err).hasProxyLeak =
        (!(analyzeReply s err).viaHdr.isEmpty || !(analyzeReply s err).forwardedHdr.isEmpty ||
          !(analyzeReply s err).xffHdr.isEmpty || !(analyzeReply s err).xrealIpHdr.isEmpty) ∧
      (analyzeReply s err).hasCdnHdr =
        (!(analyzeReply s err).cfRayHdr.isEmpty || !(analyzeReply s err).xAmzCfId.isEmpty ||
          !(analyzeReply s err).xAzureRef.isEmpty || !(analyzeReply s err).xServedBy.isEmpty) := by
  unfold analyzeReply
  split_ifs <;> exact ⟨rfl, rfl⟩

/-- The first of two is decisive when it is there. -/
theorem getD_or_eq_iff (a b₁ b₂ : Option Bytes) :
    (a.or b₁).getD [] = (a.or b₂).getD [] ↔ a.isSome ∨ b₁.getD [] = b₂.getD [] := by
  cases a <;> simp

theorem server_eq_iff (text : Bytes → Bytes) (a b₁ b₂ : Option Bytes) (status : Int) :
    ((a.or b₁).map text).getD [] = ((a.or b₂).map text).getD [] ∧
        ((a.or b₁).isNone && decide (0 < status)) = ((a.or b₂).isNone && decide (0 < status)) ↔
      a.isSome ∨ (b₁.map text).getD [] = (b₂.map text).getD [] ∧
        (0 < status → b₁.isSome = b₂.isSome) := by
  cases a with
  | some => simp
  | none => cases b₁ <;> cases b₂ <;> simp

variable {head page : Bytes} {turn turn₁ turn₂ : Nat → ReadTurn}

theorem httpsProbe_analyzeReply (h : (readProbe turn 6 []).1 = s) :
    httpsProbe turn = analyzeReply s (readProbe turn 6 []).2 := by
  rw [← h]
  rfl

theorem reply_ne_nil (head page : Bytes) : head ++ ascii "\r\n\r\n" ++ page ≠ [] := by
  simp [ascii]

theorem field_reply (h : (readProbe turn 6 []).1 = head ++ ascii "\r\n\r\n" ++ page)
    {f : Bytes × (HttpsReport → Bytes)} (hf : f ∈ headerFields) :
    f.2 (httpsProbe turn) =
      ((fieldIn f.1 (textLines (head ++ ascii "\r\n\r"))).or
        (fieldIn f.1 (textLines page))).getD [] := by
  rw [httpsProbe_analyzeReply h, field_analyzeReply _ (reply_ne_nil _ _) hf, textLines_page,
    fieldIn_append]

theorem server_reply (h : (readProbe turn 6 []).1 = head ++ ascii "\r\n\r\n" ++ page) :
    let lines := (textLines (head ++ ascii "\r\n\r")).tail
    let line := (lineWith (ascii "Server:") lines).or (pageServer lines (textLines page))
    (httpsProbe turn).serverHdr = (line.map (fieldText (ascii "Server"))).getD [] ∧
      (httpsProbe turn).noServerHdr =
        (line.isNone && 0 < probeStatus (firstLine (head ++ ascii "\r\n\r\n"))) := by
  have htail : (textLines (head ++ ascii "\r\n\r\n" ++ page)).tail =
      (textLines (head ++ ascii "\r\n\r")).tail ++ textLines page := by
    rw [textLines_page]
    exact List.tail_append_of_ne_nil (List.splitOn_ne_nil _ _)
  have hserver := server_analyzeReply (readProbe turn 6 []).2 (reply_ne_nil head page)
  rw [htail, serverLine_append, firstLine_page, ← httpsProbe_analyzeReply h] at hserver
  exact hserver

theorem SameHeaders.of_fields
    (hf : ∀ f ∈ headerFields, f.2 (httpsProbe turn₁) = f.2 (httpsProbe turn₂))
    (hserver : (httpsProbe turn₁).serverHdr = (httpsProbe turn₂).serverHdr)
    (hno : (httpsProbe turn₁).noServerHdr = (httpsProbe turn₂).noServerHdr) :
    SameHeaders (httpsProbe turn₁) (httpsProbe turn₂) := by
  obtain ⟨hproxy₁, hcdn₁⟩ := flags_analyzeReply (readProbe turn₁ 6 []).1 (readProbe turn₁ 6 []).2
  obtain ⟨hproxy₂, hcdn₂⟩ := flags_analyzeReply (readProbe turn₂ 6 []).1 (readProbe turn₂ 6 []).2
  rw [← httpsProbe_analyzeReply rfl] at hproxy₁ hcdn₁ hproxy₂ hcdn₂
  refine ⟨hf, hserver, hno, ?_, ?_⟩
  · simp only [headerFields, List.forall_mem_cons] at hf
    obtain ⟨hvia, hforwarded, hxff, hreal, -⟩ := hf
    rw [hproxy₁, hproxy₂, hvia, hforwarded, hxff, hreal]
  · simp only [headerFields, List.forall_mem_cons] at hf
    obtain ⟨-, -, -, -, -, -, hray, -, hid, -, href, -, -, hby, -⟩ := hf
    rw [hcdn₁, hcdn₂, hray, hid, href, hby]

/-- The page decides a field exactly when the header section lacks it and the
lines of the two pages differ there. -/
theorem sameHeaders_iff (head page₁ page₂ : Bytes) (turn₁ turn₂ : Nat → ReadTurn)
    (h₁ : (readProbe turn₁ 6 []).1 = head ++ ascii "\r\n\r\n" ++ page₁)
    (h₂ : (readProbe turn₂ 6 []).1 = head ++ ascii "\r\n\r\n" ++ page₂) :
    SameHeaders (httpsProbe turn₁) (httpsProbe turn₂) ↔
      NothingPlanted (probeStatus (firstLine (head ++ ascii "\r\n\r\n")))
        (textLines (head ++ ascii "\r\n\r")) (textLines page₁) (textLines page₂) := by
  have hfields : ∀ f ∈ headerFields, f.2 (httpsProbe turn₁) = f.2 (httpsProbe turn₂) ↔
      (fieldIn f.1 (textLines (head ++ ascii "\r\n\r"))).isSome ∨
        (fieldIn f.1 (textLines page₁)).getD [] = (fieldIn f.1 (textLines page₂)).getD [] := by
    intro f hf
    rw [field_reply h₁ hf, field_reply h₂ hf, getD_or_eq_iff]
  obtain ⟨hs₁, hn₁⟩ := server_reply h₁
  obtain ⟨hs₂, hn₂⟩ := server_reply h₂
  have hserver := server_eq_iff (fieldText (ascii "Server"))
    (lineWith (ascii "Server:") (textLines (head ++ ascii "\r\n\r")).tail)
    (pageServer (textLines (head ++ ascii "\r\n\r")).tail (textLines page₁))
    (pageServer (textLines (head ++ ascii "\r\n\r")).tail (textLines page₂))
    (probeStatus (firstLine (head ++ ascii "\r\n\r\n")))
  rw [← hs₁, ← hs₂, ← hn₁, ← hn₂] at hserver
  constructor
  · intro h
    exact ⟨fun f hf => (hfields f hf).mp (h.fields f hf), hserver.mp ⟨h.serverHdr, h.noServerHdr⟩⟩
  · intro h
    obtain ⟨hs, hn⟩ := hserver.mpr h.server
    exact .of_fields (fun f hf => (hfields f hf).mpr (h.fields f hf)) hs hn

def readOnce (text : Bytes) : Nat → ReadTurn
  | 0 => .data text
  | _ => .closed

def okHead : Bytes := ascii "HTTP/1.1 200 OK\r\nServer: nginx"

theorem sameHeaders_okHead :
    SameHeaders (httpsProbe (readOnce (okHead ++ ascii "\r\n\r\n" ++ ascii "")))
      (httpsProbe (readOnce (okHead ++ ascii "\r\n\r\n" ++ ascii "<html>\nfrom via: x"))) := by
  refine (sameHeaders_iff okHead (ascii "") (ascii "<html>\nfrom via: x") _ _ (by decide)
    (by decide)).mpr ⟨?_, .inl (by decide)⟩
  have hnames : (headerFields.map Prod.fst).all (fun key =>
      (fieldIn key (textLines (ascii ""))).getD [] ==
        (fieldIn key (textLines (ascii "<html>\nfrom via: x"))).getD []) = true := by decide
  intro f hf
  exact .inr (beq_iff_eq.mp (List.all_eq_true.mp hnames f.1 (List.mem_map_of_mem hf)))

/-- A line of the page passes for a header field. -/
theorem page_plants_via :
    ¬∀ (head page₁ page₂ : Bytes) (turn₁ turn₂ : Nat → ReadTurn),
      (readProbe turn₁ 6 []).1 = head ++ ascii "\r\n\r\n" ++ page₁ →
      (readProbe turn₂ 6 []).1 = head ++ ascii "\r\n\r\n" ++ page₂ →
      SameHeaders (httpsProbe turn₁) (httpsProbe turn₂) := by
  intro h
  have hsame := h okHead (ascii "") (ascii "Via: x\n")
    (readOnce (okHead ++ ascii "\r\n\r\n" ++ ascii ""))
    (readOnce (okHead ++ ascii "\r\n\r\n" ++ ascii "Via: x\n")) (by decide) (by decide)
  exact absurd hsame.hasProxyLeak (by decide)

end ByeByeVpn
