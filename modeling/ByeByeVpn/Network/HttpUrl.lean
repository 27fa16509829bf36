import ByeByeVpn.Core.Utils
import ByeByeVpn.Lib.Search
import ByeByeVpn.Lib.Strtol

/-!
# The URL of a request (`http_get`)

`http_get` takes its URL apart before it connects: at the first slash or
question mark, at the first number sign, and then at the brackets and colons
of what comes before.
-/

namespace ByeByeVpn

open Search

structure HttpTarget where
  host : Bytes
  port : Int
  path : Bytes
  deriving DecidableEq

def parseHttpPort (text : Bytes) : Option Int :=
  if text.isEmpty then none
  else if !text.all isdigit then none
  else
    let v := strtol 10 text
    if !v.inRange || !v.converted || v.rest.headD 0 ≠ 0 || v.value < 1 || 65535 < v.value then none
    else some v.value

/-- Where the host ends, unless it is at the number sign or the end. -/
def splitPos (u : Bytes) : Option Nat :=
  let slashPos := find [chr '/'] u
  let fragPos := find [chr '#'] u
  -- a question mark behind the number sign is none
  let queryPos := (find [chr '?'] u).filter fun query => fragPos.all fun frag => query ≤ frag
  (queryPos.filter fun query => slashPos.all fun slash => query < slash).or slashPos

/-- The path and the query from there on, without the fragment. -/
def pathFrom (u : Bytes) (split : Nat) : Bytes :=
  let path :=
    match (find [chr '#'] u).filter fun frag => split < frag with
    | some frag => (u.drop split).take (frag - split)
    | none => u.drop split
  if path.headD 0 ≠ chr '/' then chr '/' :: path else path

def splitPath (u : Bytes) : Bytes × Bytes :=
  match splitPos u with
  | some split => (u.take split, pathFrom u split)
  | none =>
    match find [chr '#'] u with
    | some frag => (u.take frag, ascii "/")
    | none => (u, ascii "/")

def splitPort (host : Bytes) (port : Int) : Except Bytes (Bytes × Int) :=
  if startsWith host (ascii "[") then
    match find [chr ']'] host with
    | none => .error (ascii "bad host")
    | some close =>
      if close + 1 < host.length then
        if host.getD (close + 1) 0 ≠ chr ':' then .error (ascii "bad host")
        else
          match parseHttpPort (host.drop (close + 2)) with
          | none => .error (ascii "bad port")
          | some port => .ok ((host.drop 1).take (close - 1), port)
      else .ok ((host.drop 1).take (close - 1), port)
  else
    match find [chr ':'] host with
    | none => .ok (host, port)
    | some firstCol =>
      if rfind (chr ':') host = some firstCol then
        let ps := host.drop (firstCol + 1)
        if !ps.isEmpty && ps.all isdigit then
          match parseHttpPort ps with
          | none => .error (ascii "bad port")
          | some port => .ok (host.take firstCol, port)
        else .ok (host, port)
      else .ok (host, port)

def splitUrl (u : Bytes) (port : Int) : Except Bytes HttpTarget :=
  let (host, path) := splitPath u
  if host.isEmpty then .error (ascii "bad host")
  else
    match splitPort host port with
    | .error err => .error err
    | .ok (host, port) =>
      if host.isEmpty then .error (ascii "bad host") else .ok { host, port, path }

def parseUrl (url : Bytes) : Except Bytes HttpTarget :=
  if startsWith url (ascii "https://") then splitUrl (url.drop 8) 443
  else if startsWith url (ascii "http://") then splitUrl (url.drop 7) 80
  else .error (ascii "bad url scheme")

def HttpTarget.request (t : HttpTarget) : Bytes :=
  ascii "GET " ++ t.path ++ ascii " HTTP/1.1\r\n" ++ (ascii "Host: " ++ t.host ++
    ascii "\r\nConnection: close\r\nUser-Agent: byebyevpn/3\r\nAccept: */*\r\n\r\n")

-- ---------------------------------------------------------------------------
-- URLs
-- ---------------------------------------------------------------------------

def endsAuthority (c : UInt8) : Bool := c == chr '/' || c == chr '?' || c == chr '#'

/-- A decimal port, perhaps with leading zeros. -/
structure UrlPort where
  digits : Bytes
  digit : ∀ c ∈ digits, isdigit c = true
  pos : 1 ≤ ofDigits 10 digits
  le : ofDigits 10 digits ≤ 65535

structure UrlHost where
  text : Bytes
  bracketed : Bool
  nonempty : text ≠ []
  inAuthority : ∀ c ∈ text, endsAuthority c = false
  no_bracket : if bracketed then chr ']' ∉ text else text.head? ≠ some (chr '[')
  no_colon : bracketed = false → chr ':' ∉ text

structure HttpUrl where
  https : Bool
  host : UrlHost
  port : Option UrlPort
  path : Option Bytes
  query : Option Bytes
  fragment : Option Bytes
  path_ok : ∀ p ∈ path, chr '?' ∉ p ∧ chr '#' ∉ p
  query_ok : ∀ q ∈ query, chr '#' ∉ q

namespace HttpUrl

def part (c : Char) (p : Option Bytes) : Bytes := (p.map (chr c :: ·)).getD []

variable (url : HttpUrl)

def hostText : Bytes :=
  if url.host.bracketed then chr '[' :: (url.host.text ++ [chr ']']) else url.host.text

def authority : Bytes := url.hostText ++ part ':' (url.port.map UrlPort.digits)

def rest : Bytes := part '/' url.path ++ part '?' url.query ++ part '#' url.fragment

def text : Bytes :=
  (if url.https then ascii "https://" else ascii "http://") ++ (url.authority ++ url.rest)

def portNumber : Int :=
  match url.port with
  | some p => ofDigits 10 p.digits
  | none => if url.https then 443 else 80

def target : Bytes := chr '/' :: url.path.getD [] ++ part '?' url.query

/-- The target is that of the URL, and the request asks for its path and query. -/
structure Reaches (t : HttpTarget) : Prop where
  host : t.host = url.host.text
  port : t.port = url.portNumber
  request : ∃ headers, t.request = ascii "GET " ++ url.target ++ ascii " HTTP/1.1\r\n" ++ headers

end HttpUrl

-- ---------------------------------------------------------------------------
-- The authority
-- ---------------------------------------------------------------------------

theorem parseHttpPort_eq (p : UrlPort) :
    parseHttpPort p.digits = some (ofDigits 10 p.digits : Int) := by
  have hne : p.digits ≠ [] := by
    intro h
    have hpos := p.pos
    rw [h] at hpos
    exact absurd hpos (by decide)
  have hle := p.le
  have hpos := p.pos
  have hnum : strtol 10 (p.digits ++ []) = ⟨ofDigits 10 p.digits, [], true, true⟩ :=
    strtol_digits (by decide) hne (fun c hc => isDigitOf_of_isdigit (p.digit c hc)) (by simp)
      (by simp only [longMax]; omega)
  rw [List.append_nil] at hnum
  have hall : p.digits.all isdigit = true := List.all_eq_true.mpr p.digit
  have hlo : ¬(ofDigits 10 p.digits : Int) < 1 := by omega
  have hhi : ¬65535 < (ofDigits 10 p.digits : Int) := by omega
  simp [parseHttpPort, hne, hall, hnum, hlo, hhi]

theorem parseHttpPort_none {text : Bytes} {c : UInt8} (h : c ∈ text) (hc : isdigit c = false) :
    parseHttpPort text = none := by
  have hall : text.all isdigit = false := by
    rw [← Bool.not_eq_true, List.all_eq_true]
    intro hd
    rw [hd c h] at hc
    cases hc
  unfold parseHttpPort
  rw [hall]
  split <;> rfl

theorem startsWith_bracket {s : Bytes} :
    startsWith s (ascii "[") = true ↔ s.head? = some (chr '[') := by
  cases s with
  | nil => simp [startsWith, ascii]
  | cons c s => simpa [startsWith, ascii] using eq_comm

theorem splitPort_bracketed {t : Bytes} (h : chr ']' ∉ t) (r : Bytes) (port : Int) :
    splitPort (chr '[' :: (t ++ chr ']' :: r)) port =
      match r with
      | [] => .ok (t, port)
      | c :: ps =>
        if c ≠ chr ':' then .error (ascii "bad host")
        else
          match parseHttpPort ps with
          | none => .error (ascii "bad port")
          | some port => .ok (t, port) := by
  have hclose : find [chr ']'] (chr '[' :: (t ++ chr ']' :: r)) = some (t.length + 1) := by
    have hmem : chr ']' ∉ chr '[' :: t := by
      intro hm
      rcases List.mem_cons.mp hm with hm | hm
      · exact absurd hm (by decide)
      · exact h hm
    exact find_letter hmem r
  have htake : ((chr '[' :: (t ++ chr ']' :: r)).drop 1).take (t.length + 1 - 1) = t := by
    simp
  unfold splitPort
  rw [if_pos (startsWith_bracket.mpr rfl), hclose]
  dsimp only
  rw [htake]
  cases r with
  | nil => rw [if_neg (by simp)]
  | cons c ps =>
    have hget : (chr '[' :: (t ++ chr ']' :: c :: ps)).getD (t.length + 1 + 1) 0 = c := by
      simp [List.getD_eq_getElem?_getD]
    have hdrop : (chr '[' :: (t ++ chr ']' :: c :: ps)).drop (t.length + 1 + 2) = ps := by
      rw [← List.cons_append, show t.length + 1 + 2 = (chr '[' :: t).length + 2 from rfl,
        List.drop_length_add_append]
      rfl
    rw [if_pos (by simp), hget, hdrop]

theorem splitPort_noColon {t : Bytes} (h : t.head? ≠ some (chr '[')) (ht : chr ':' ∉ t)
    (port : Int) : splitPort t port = .ok (t, port) := by
  unfold splitPort
  rw [if_neg (startsWith_bracket.not.mpr h), find_eq_none ht]

theorem splitPort_colon {t : Bytes} (h : (t ++ [chr ':']).head? ≠ some (chr '['))
    (ht : chr ':' ∉ t) (ps : Bytes) (port : Int) :
    splitPort (t ++ chr ':' :: ps) port =
      if rfind (chr ':') (t ++ chr ':' :: ps) = some t.length then
        if !ps.isEmpty && ps.all isdigit then
          match parseHttpPort ps with
          | none => .error (ascii "bad port")
          | some port => .ok (t, port)
        else .ok (t ++ chr ':' :: ps, port)
      else .ok (t ++ chr ':' :: ps, port) := by
  have hhead : (t ++ chr ':' :: ps).head? ≠ some (chr '[') := by
    cases t with
    | nil => exact h
    | cons c t => exact h
  have hdrop : (t ++ chr ':' :: ps).drop (t.length + 1) = ps := by
    rw [List.drop_length_add_append]
    rfl
  unfold splitPort
  rw [if_neg (startsWith_bracket.not.mpr hhead), find_letter ht]
  dsimp only
  rw [hdrop, List.take_left]

theorem splitPort_cut {host t : Bytes} {port port' : Int} (h : host.head? ≠ some (chr '['))
    (hs : splitPort host port = .ok (t, port')) :
    t = host ∨ ∃ ps, (∀ c ∈ ps, isdigit c = true) ∧ host = t ++ chr ':' :: ps := by
  by_cases hcol : chr ':' ∈ host
  · obtain ⟨a, ps, rfl, ha⟩ := List.eq_append_cons_of_mem hcol
    have hhead : (a ++ [chr ':']).head? ≠ some (chr '[') := by
      cases a with
      | nil => exact h
      | cons c a => exact h
    rw [splitPort_colon hhead ha] at hs
    split_ifs at hs with hlast hdigits
    · rw [Bool.and_eq_true, List.all_eq_true] at hdigits
      split at hs <;> cases hs
      exact .inr ⟨ps, hdigits.2, rfl⟩
    · cases hs
      exact .inl rfl
    · cases hs
      exact .inl rfl
  · rw [splitPort_noColon h hcol] at hs
    cases hs
    exact .inl rfl

theorem HttpUrl.head_ne (url : HttpUrl) (hb : url.host.bracketed = false) (s : Bytes) :
    (url.host.text ++ s).head? ≠ some (chr '[') := by
  have hno := url.host.no_bracket
  rw [hb] at hno
  cases ht : url.host.text with
  | nil => exact absurd ht url.host.nonempty
  | cons c t =>
    rw [ht] at hno
    exact hno

theorem digits_mem {p : UrlPort} {c : UInt8} (hc : isdigit c = false) : c ∉ p.digits := by
  intro hm
  rw [p.digit c hm] at hc
  cases hc

theorem splitPort_authority (url : HttpUrl) :
    splitPort url.authority (if url.https then 443 else 80) =
      .ok (url.host.text, url.portNumber) := by
  unfold HttpUrl.authority HttpUrl.hostText HttpUrl.portNumber
  cases hb : url.host.bracketed with
  | true =>
    have hno := url.host.no_bracket
    rw [hb] at hno
    rw [if_pos rfl, List.cons_append, List.append_assoc, List.singleton_append,
      splitPort_bracketed hno]
    cases url.port with
    | none => rfl
    | some p =>
      show (if chr ':' ≠ chr ':' then _ else _) = _
      rw [if_neg (fun h => h rfl), parseHttpPort_eq]
  | false =>
    have hcol := url.host.no_colon hb
    rw [if_neg Bool.false_ne_true]
    cases url.port with
    | none =>
      have hhead := url.head_ne hb []
      rw [List.append_nil] at hhead
      rw [Option.map_none, HttpUrl.part, Option.map_none, Option.getD_none, List.append_nil,
        splitPort_noColon hhead hcol]
    | some p =>
      have hne : p.digits.isEmpty = false := by
        rw [List.isEmpty_eq_false_iff]
        intro h
        have hpos := p.pos
        rw [h] at hpos
        exact absurd hpos (by decide)
      rw [Option.map_some, HttpUrl.part, Option.map_some, Option.getD_some,
        splitPort_colon (url.head_ne hb _) hcol, if_pos (rfind_letter _ (digits_mem (by decide))),
        hne, List.all_eq_true.mpr p.digit, if_pos (show (!false && true) = true from rfl),
        parseHttpPort_eq]

/-- A number sign behind the authority is taken for a part of the host. -/
theorem splitPort_fragment (url : HttpUrl) (a : Bytes) (port port' : Int) :
    splitPort (url.authority ++ chr '#' :: a) port ≠ .ok (url.host.text, port') := by
  intro hs
  unfold HttpUrl.authority HttpUrl.hostText at hs
  cases hb : url.host.bracketed with
  | true =>
    have hno := url.host.no_bracket
    rw [hb] at hno
    rw [hb, if_pos rfl, List.cons_append, List.cons_append, List.append_assoc, List.append_assoc,
      List.singleton_append, splitPort_bracketed hno] at hs
    cases hport : url.port with
    | none =>
      rw [hport] at hs
      simp only [HttpUrl.part, Option.map_none, Option.getD_none, List.nil_append] at hs
      rw [if_pos (by decide : chr '#' ≠ chr ':')] at hs
      cases hs
    | some p =>
      rw [hport] at hs
      have hbad : parseHttpPort (p.digits ++ chr '#' :: a) = none :=
        parseHttpPort_none (List.mem_append_right _ List.mem_cons_self) (by decide)
      simp only [HttpUrl.part, Option.map_some, Option.getD_some, List.cons_append, hbad] at hs
      rw [if_neg (fun h => h rfl)] at hs
      cases hs
  | false =>
    rw [hb, if_neg Bool.false_ne_true, List.append_assoc] at hs
    rcases splitPort_cut (url.head_ne hb _) hs with h | ⟨ps, hps, h⟩
    · have hlen := congrArg List.length h
      simp at hlen
    · have htail := List.append_cancel_left h
      have hmem : chr '#' ∈ chr ':' :: ps := by
        rw [← htail]
        exact List.mem_append_right _ List.mem_cons_self
      rcases List.mem_cons.mp hmem with hm | hm
      · exact absurd hm (by decide)
      · exact absurd (hps _ hm) (by decide)

-- ---------------------------------------------------------------------------
-- The path
-- ---------------------------------------------------------------------------

theorem HttpUrl.authority_plain (url : HttpUrl) {c : UInt8} (hc : endsAuthority c = true) :
    c ∉ url.authority := by
  have hne : ∀ x : UInt8, endsAuthority x = false → c ≠ x := by
    rintro x hx rfl
    rw [hx] at hc
    cases hc
  have hhost : c ∉ url.host.text := fun hm => hne c (url.host.inAuthority c hm) rfl
  have hdigit : isdigit c = false := by
    simp only [endsAuthority, Bool.or_eq_true, beq_iff_eq, or_assoc] at hc
    rcases hc with rfl | rfl | rfl <;> decide
  have hopen := hne (chr '[') (by decide)
  have hclose := hne (chr ']') (by decide)
  have hcol := hne (chr ':') (by decide)
  unfold HttpUrl.authority HttpUrl.hostText HttpUrl.part
  intro hm
  rcases List.mem_append.mp hm with hm | hm
  · split at hm
    · simp [hopen, hclose, hhost] at hm
    · exact hhost hm
  · cases hp : url.port with
    | none => simp [hp] at hm
    | some p => simp [hp, hcol, digits_mem hdigit] at hm

abbrev Fragment (f : Bytes) : Prop := ∀ c ∈ f.head?, c = chr '#'

section
variable {auth p f : Bytes} {c d : UInt8}

theorem find_behind (ha : c ∉ auth) (hcd : c ≠ d) (r : Bytes) :
    find [c] (auth ++ d :: r) = (find [c] r).map (· + (auth.length + 1)) := by
  have hmem : c ∉ auth ++ [d] := by simp [ha, hcd]
  have hskip := @find_skip _ _ [] _ r _ hmem
  rwa [List.append_assoc, List.singleton_append, List.length_append] at hskip

theorem find_fragment (hp : chr '#' ∉ p) (hf : Fragment f) :
    find [chr '#'] (p ++ f) = if f = [] then none else some p.length := by
  cases f with
  | nil => rw [List.append_nil, find_eq_none hp, if_pos rfl]
  | cons c f =>
    obtain rfl := hf c rfl
    rw [find_letter hp, if_neg (List.cons_ne_nil _ _)]

theorem pathFrom_eq (ha : chr '#' ∉ auth) (hd : d ≠ chr '#') (hp : chr '#' ∉ p)
    (hf : Fragment f) :
    pathFrom (auth ++ d :: (p ++ f)) auth.length =
      if d = chr '/' then d :: p else chr '/' :: d :: p := by
  have hdrop : (auth ++ d :: (p ++ f)).drop auth.length = d :: (p ++ f) := List.drop_left
  unfold pathFrom
  rw [find_behind ha hd.symm, find_fragment hp hf, hdrop]
  by_cases hnil : f = []
  · subst hnil
    simp
  · have hlen : p.length + (auth.length + 1) - auth.length = (d :: p).length := by
      rw [List.length_cons]
      omega
    rw [if_neg hnil, Option.map_some, Option.filter_some_pos (by simp; omega)]
    dsimp only
    rw [hlen, ← List.cons_append, List.take_left]
    simp

theorem splitPath_slash (ha : ∀ c, endsAuthority c = true → c ∉ auth) (hp : chr '#' ∉ p)
    (hf : Fragment f) :
    splitPath (auth ++ chr '/' :: (p ++ f)) = (auth, chr '/' :: p) := by
  have hpos : splitPos (auth ++ chr '/' :: (p ++ f)) = some auth.length := by
    unfold splitPos
    rw [find_letter (ha _ (by decide)), find_behind (ha (chr '?') (by decide)) (by decide)]
    cases find [chr '?'] (p ++ f) with
    | none => rfl
    | some k =>
      have hlt : ¬k + (auth.length + 1) < auth.length := by omega
      dsimp only [Option.map_some]
      rw [Option.filter_filter, Option.filter_some]
      simp [hlt]
  unfold splitPath
  rw [hpos]
  dsimp only
  rw [List.take_left, pathFrom_eq (ha _ (by decide)) (by decide) hp hf, if_pos rfl]

theorem splitPath_query (ha : ∀ c, endsAuthority c = true → c ∉ auth) (hp : chr '#' ∉ p)
    (hf : Fragment f) :
    splitPath (auth ++ chr '?' :: (p ++ f)) = (auth, chr '/' :: chr '?' :: p) := by
  have hpos : splitPos (auth ++ chr '?' :: (p ++ f)) = some auth.length := by
    unfold splitPos
    rw [find_letter (ha (chr '?') (by decide)), find_behind (ha (chr '/') (by decide)) (by decide),
      find_behind (ha (chr '#') (by decide)) (by decide)]
    have hlt : ∀ k, auth.length < k + (auth.length + 1) := fun k => by omega
    have hle : ∀ k, auth.length ≤ k + (auth.length + 1) := fun k => (hlt k).le
    cases find [chr '/'] (p ++ f) <;> cases find [chr '#'] (p ++ f) <;>
      simp [Option.filter_some, hlt, hle]
  unfold splitPath
  rw [hpos]
  dsimp only
  rw [List.take_left, pathFrom_eq (ha _ (by decide)) (by decide) hp hf, if_neg (by decide)]

theorem splitPos_fragment (ha : ∀ c, endsAuthority c = true → c ∉ auth) (a : Bytes) :
    splitPos (auth ++ chr '#' :: a) = (find [chr '/'] a).map (· + (auth.length + 1)) := by
  unfold splitPos
  rw [find_letter (ha (chr '#') (by decide)), find_behind (ha (chr '/') (by decide)) (by decide),
    find_behind (ha (chr '?') (by decide)) (by decide)]
  cases find [chr '?'] a with
  | none => rfl
  | some k =>
    have hle : ¬k + (auth.length + 1) ≤ auth.length := by omega
    simp [Option.filter_some, hle]

theorem splitPath_bare (ha : ∀ c, endsAuthority c = true → c ∉ auth) (hf : Fragment f)
    (hslash : chr '/' ∉ f) : splitPath (auth ++ f) = (auth, ascii "/") := by
  cases f with
  | nil =>
    have hpos : splitPos auth = none := by
      unfold splitPos
      rw [find_eq_none (ha (chr '/') (by decide)), find_eq_none (ha (chr '?') (by decide))]
      rfl
    rw [List.append_nil, splitPath, hpos, find_eq_none (ha (chr '#') (by decide))]
  | cons c a =>
    obtain rfl := hf c rfl
    have hslash' : chr '/' ∉ a := fun hm => hslash (List.mem_cons_of_mem _ hm)
    rw [splitPath, splitPos_fragment ha, find_eq_none hslash', Option.map_none,
      find_letter (ha (chr '#') (by decide))]
    dsimp only
    rw [List.take_left]

theorem splitPath_fragment {a : Bytes} (ha : ∀ c, endsAuthority c = true → c ∉ auth)
    (hslash : chr '/' ∉ a) (b : Bytes) :
    (splitPath (auth ++ chr '#' :: (a ++ chr '/' :: b))).1 = auth ++ chr '#' :: a := by
  have htake : auth ++ chr '#' :: (a ++ chr '/' :: b) = (auth ++ chr '#' :: a) ++ chr '/' :: b := by
    simp
  have hlen : a.length + (auth.length + 1) = (auth ++ chr '#' :: a).length := by
    rw [List.length_append, List.length_cons]
    omega
  rw [splitPath, splitPos_fragment ha, find_letter hslash, Option.map_some]
  dsimp only
  rw [htake, hlen, List.take_left]

end

-- ---------------------------------------------------------------------------
-- The whole URL
-- ---------------------------------------------------------------------------

/-- The fragment starts where the host should end, and has a slash. -/
def HttpUrl.SlashInFragment (url : HttpUrl) : Prop :=
  url.path = none ∧ url.query = none ∧ ∃ f ∈ url.fragment, chr '/' ∈ f

theorem parseUrl_text (url : HttpUrl) :
    parseUrl url.text = splitUrl (url.authority ++ url.rest) (if url.https then 443 else 80) := by
  unfold parseUrl HttpUrl.text
  cases url.https with
  | true => rw [if_pos (by simp [startsWith]), if_pos rfl]; rfl
  | false => rfl

theorem HttpUrl.fragment_part (url : HttpUrl) : Fragment (part '#' url.fragment) := by
  cases url.fragment with
  | none => simp [part, Fragment]
  | some f => simp [part, Fragment]

theorem splitPath_text (url : HttpUrl) (h : ¬url.SlashInFragment) :
    splitPath (url.authority ++ url.rest) = (url.authority, url.target) := by
  have ha : ∀ c, endsAuthority c = true → c ∉ url.authority := fun _ => url.authority_plain
  have hf := url.fragment_part
  have hquery : chr '#' ∉ HttpUrl.part '?' url.query := by
    cases hq : url.query with
    | none => simp [HttpUrl.part]
    | some q =>
      have hne : chr '#' ≠ chr '?' := by decide
      simp [HttpUrl.part, url.query_ok q hq, hne]
  unfold HttpUrl.rest HttpUrl.target
  cases hp : url.path with
  | some p =>
    have hpath : chr '#' ∉ p ++ HttpUrl.part '?' url.query := by
      simp [hquery, (url.path_ok p hp).2]
    have := splitPath_slash ha hpath hf
    simpa [HttpUrl.part] using this
  | none =>
    cases hq : url.query with
    | some q =>
      have := splitPath_query ha (url.query_ok q hq) hf
      simpa [HttpUrl.part] using this
    | none =>
      have hslash : chr '/' ∉ HttpUrl.part '#' url.fragment := by
        cases hfrag : url.fragment with
        | none => simp [HttpUrl.part]
        | some f =>
          have hne : chr '/' ≠ chr '#' := by decide
          have hno : chr '/' ∉ f := fun hm => h ⟨hp, hq, f, hfrag, hm⟩
          simp [HttpUrl.part, hne, hno]
      have := splitPath_bare ha hf hslash
      simpa [HttpUrl.part, ascii] using this

theorem HttpUrl.authority_ne_nil (url : HttpUrl) : url.authority ≠ [] := by
  have hne := url.host.nonempty
  unfold authority hostText
  split <;> simp [hne]

theorem splitUrl_host {u : Bytes} {port : Int} {t : HttpTarget} (h : splitUrl u port = .ok t) :
    splitPort (splitPath u).1 port = .ok (t.host, t.port) := by
  unfold splitUrl at h
  dsimp only at h
  split_ifs at h
  · split at h
    · cases h
    · next host port' hs =>
      split_ifs at h
      cases h
      exact hs

/-- URL splitting. A request goes where its URL says, unless nothing stands
between the host and a fragment with a slash. -/
theorem parseUrl_reaches_iff (url : HttpUrl) :
    (∃ t, parseUrl url.text = .ok t ∧ url.Reaches t) ↔ ¬url.SlashInFragment := by
  rw [parseUrl_text]
  constructor
  · rintro ⟨t, ht, hr⟩ ⟨hp, hq, f, hf, hslash⟩
    obtain ⟨a, b, rfl, ha⟩ := List.eq_append_cons_of_mem hslash
    have hrest : url.rest = chr '#' :: (a ++ chr '/' :: b) := by
      simp [HttpUrl.rest, HttpUrl.part, hp, hq, Option.mem_def.mp hf]
    have hhost := splitUrl_host ht
    rw [hrest, splitPath_fragment (fun c => url.authority_plain) ha, hr.host] at hhost
    exact splitPort_fragment url a _ _ hhost
  · intro h
    have hne : ¬url.authority.isEmpty = true := by simpa using url.authority_ne_nil
    have hhost : ¬url.host.text.isEmpty = true := by simpa using url.host.nonempty
    refine ⟨⟨url.host.text, url.portNumber, url.target⟩, ?_, rfl, rfl, _, rfl⟩
    rw [splitUrl, splitPath_text url h]
    dsimp only
    rw [if_neg hne, splitPort_authority]
    dsimp only
    rw [if_neg hhost]

def bareUrl (fragment : Bytes) : HttpUrl where
  https := false
  host :=
    ⟨ascii "example.com", false, by decide, List.all_iff_forall_prop.mp (by decide), by decide,
      by decide⟩
  port := none
  path := none
  query := none
  fragment := some fragment
  path_ok := by simp
  query_ok := by simp

/-- The host is looked up with the number sign, and the fragment is asked for. -/
theorem parseUrl_not_reaches :
    parseUrl (bareUrl (ascii "/top")).text = .ok ⟨ascii "example.com#", 80, ascii "/top"⟩ ∧
      ¬∃ t, parseUrl (bareUrl (ascii "/top")).text = .ok t ∧
        (bareUrl (ascii "/top")).Reaches t := by
  have hok : parseUrl (bareUrl (ascii "/top")).text =
      .ok ⟨ascii "example.com#", 80, ascii "/top"⟩ := by decide
  refine ⟨hok, ?_⟩
  rintro ⟨t, ht, hr⟩
  rw [hok] at ht
  cases ht
  exact absurd hr.host (by decide)

end ByeByeVpn
