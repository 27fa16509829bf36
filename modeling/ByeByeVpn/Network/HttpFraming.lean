import ByeByeVpn.Network.HttpClient

/-!
# The payload of a reply

`http_get` decodes chunks when the header block, in lower case, contains the
text `transfer-encoding: chunked`. A field may say the same in other spellings,
and the text may stand where it says nothing about the body.
-/

namespace ByeByeVpn

open Search
open Http (Reply ChunkedBody Extension Field crlf)

-- ---------------------------------------------------------------------------
-- Reading
-- ---------------------------------------------------------------------------

/-- The bytes that a turn adds. -/
def ReadTurn.bytes : ReadTurn → Bytes
  | .data got => got
  | _ => []

def ReadTurn.GoesOn : ReadTurn → Prop
  | .data _ => True
  | .again => True
  | _ => False

/-- The text arrives in some pieces, and then the connection is closed. -/
def Delivers (turns : List ReadTurn) (text : Bytes) : Prop :=
  ∃ pieces : List ReadTurn, turns = pieces ++ [.closed] ∧ (∀ t ∈ pieces, t.GoesOn) ∧
    pieces.flatMap ReadTurn.bytes = text

theorem readResponse_pieces {pieces : List ReadTurn} (h : ∀ t ∈ pieces, t.GoesOn) {resp : Bytes}
    (hlen : (resp ++ pieces.flatMap ReadTurn.bytes).length ≤ kMaxResponseSize) :
    readResponse resp (pieces ++ [.closed]) =
      some (.ok (resp ++ pieces.flatMap ReadTurn.bytes)) := by
  induction pieces generalizing resp with
  | nil => simp [readResponse]
  | cons t pieces ih =>
    obtain ⟨ht, hp⟩ := List.forall_mem_cons.mp h
    cases t with
    | data got =>
      rw [List.flatMap_cons, ← List.append_assoc] at hlen
      have hfit : ¬kMaxResponseSize < (resp ++ got).length := by
        rw [List.length_append] at hlen
        simp only [ReadTurn.bytes] at hlen
        omega
      simp only [ReadTurn.bytes] at hlen
      rw [List.cons_append, readResponse, if_neg hfit, ih hp hlen]
      simp [ReadTurn.bytes]
    | again =>
      rw [List.cons_append, readResponse, ih hp (by simpa [ReadTurn.bytes] using hlen)]
      simp [ReadTurn.bytes]
    | closed => cases ht
    | failed err => cases ht

/-- However the text is cut into pieces, it is parsed as a whole. -/
theorem httpGet_of_delivers {turns : List ReadTurn} {text : Bytes} (h : Delivers turns text)
    (hlen : text.length ≤ kMaxResponseSize) : httpGet turns = some (parseResponse text) := by
  obtain ⟨pieces, rfl, hp, rfl⟩ := h
  have hr : readResponse [] (pieces ++ [.closed]) =
      some (.ok ([] ++ pieces.flatMap ReadTurn.bytes)) :=
    readResponse_pieces hp (by simpa using hlen)
  rw [httpGet, hr]
  rfl

-- ---------------------------------------------------------------------------
-- Decoding
-- ---------------------------------------------------------------------------

theorem isDigitOf_of_isxdigit {c : UInt8} (h : isxdigit c = true) : isDigitOf 16 c = true := by
  have h0 : (chr '0').toNat = 48 := rfl
  have h9 : (chr '9').toNat = 57 := rfl
  have ha : (chr 'a').toNat = 97 := rfl
  have hf : (chr 'f').toNat = 102 := rfl
  have hz : (chr 'z').toNat = 122 := rfl
  have hA : (chr 'A').toNat = 65 := rfl
  have hF : (chr 'F').toNat = 70 := rfl
  have hZ : (chr 'Z').toNat = 90 := rfl
  simp only [isxdigit, isdigit, Bool.or_eq_true, Bool.and_eq_true, decide_eq_true_eq,
    UInt8.le_iff_toNat_le, h0, h9, ha, hf, hA, hF] at h
  simp only [isDigitOf, digitVal, isdigit, Bool.and_eq_true, decide_eq_true_eq,
    UInt8.le_iff_toNat_le, h0, h9, ha, hz, hA, hZ]
  split_ifs <;> omega

theorem ofDigits_zeros {base : Nat} {ds : Bytes} (h : ∀ c ∈ ds, c = chr '0') :
    ofDigits base ds = 0 := by
  have hd : digitVal (chr '0') = 0 := by decide
  unfold ofDigits
  induction ds with
  | nil => rfl
  | cons c ds ih =>
    obtain ⟨rfl, hds⟩ := List.forall_mem_cons.mp h
    rw [List.foldl_cons, hd, Nat.zero_mul]
    exact ih hds

theorem Extension.stops {ext : Bytes} (h : Extension ext) :
    ∀ c ∈ ext.head?, isDigitOf 16 c = false ∧ (tolower c == chr 'x') = false := by
  intro c hc
  rcases h.first c hc with hs | rfl
  · simp only [Http.isOws, Bool.or_eq_true, beq_iff_eq] at hs
    rcases hs with rfl | rfl <;> decide
  · decide

theorem decodeChunks_none {rest : Bytes} (h : find crlf rest = none) (decoded : Bytes) :
    decodeChunks rest decoded = decoded := by
  rw [decodeChunks]
  split
  · rfl
  · next nl hn =>
    rw [h] at hn
    cases hn

/-- What the loop makes of a size line that ends at `nl`. -/
theorem decodeChunks_some {rest : Bytes} (h : find crlf rest = some nl) (decoded : Bytes) :
    decodeChunks rest decoded =
      if !(strtol 16 (rest.take nl)).converted || (strtol 16 (rest.take nl)).value < 0 then decoded
      else if (strtol 16 (rest.take nl)).value = 0 then decoded
      else if (rest.drop (nl + 2)).length < (strtol 16 (rest.take nl)).value.toNat then decoded
      else decodeChunks (rest.drop (nl + 2 + (strtol 16 (rest.take nl)).value.toNat + 2))
        (decoded ++ (rest.drop (nl + 2)).take (strtol 16 (rest.take nl)).value.toNat) := by
  rw [decodeChunks]
  split
  · next hn =>
    rw [h] at hn
    cases hn
  · next nl' hn =>
    obtain rfl := Option.some.inj (h.symm.trans hn)
    rfl

def announced (size : Bytes) : Nat := min (ofDigits 16 size) longMax.toNat

theorem decodeChunks_sizeLine {size ext s : Bytes} (hne : size ≠ [])
    (hex : ∀ c ∈ size, isxdigit c = true) (hline : ¬crlf <:+: size ++ ext)
    (hext : ∀ c ∈ ext.head?, isDigitOf 16 c = false ∧ (tolower c == chr 'x') = false)
    (decoded : Bytes) :
    decodeChunks (size ++ ext ++ crlf ++ s) decoded =
      if announced size = 0 then decoded
      else if s.length < announced size then decoded
      else decodeChunks (s.drop (announced size + 2)) (decoded ++ s.take (announced size)) := by
  have hnum := strtol_digits_min (by decide : 16 ≤ 36) hne
    (fun c hc => isDigitOf_of_isxdigit (hex c hc)) hext
  have hvalue : min (ofDigits 16 size : Int) longMax = (announced size : Nat) := by
    simp only [announced, longMax]
    omega
  have htake : (size ++ ext ++ crlf ++ s).take (size ++ ext).length = size ++ ext := by
    rw [List.append_assoc, List.take_left]
  have hl : (size ++ ext).length + 2 = (size ++ ext ++ crlf).length := by
    have hcrlf : crlf.length = 2 := rfl
    simp only [List.length_append, hcrlf]
  have hdrop : ∀ k, (size ++ ext ++ crlf ++ s).drop ((size ++ ext).length + 2 + k) = s.drop k := by
    intro k
    rw [hl, List.drop_length_add_append]
  have hdrop₀ : (size ++ ext ++ crlf ++ s).drop ((size ++ ext).length + 2) = s := hdrop 0
  have hneg : ¬(!true || decide ((announced size : Int) < 0)) = true := by simp
  rw [decodeChunks_some (Http.find_crlf hline s)]
  simp only [htake, hnum, hvalue, hdrop₀, Nat.add_assoc _ _ 2, hdrop, if_neg hneg,
    Int.toNat_natCast, Int.natCast_eq_zero]

theorem crlf_not_within {l : Bytes} (h : (13 : UInt8) ∉ l) : ¬crlf <:+: l :=
  fun hin => h (hin.subset List.mem_cons_self)

theorem decodeChunks_line {size ext s : Bytes} (hne : size ≠ [])
    (hex : ∀ c ∈ size, isxdigit c = true) (he : Extension ext)
    (hmax : (ofDigits 16 size : Int) ≤ longMax) (decoded : Bytes) :
    decodeChunks (size ++ ext ++ crlf ++ s) decoded =
      if ofDigits 16 size = 0 then decoded
      else if s.length < ofDigits 16 size then decoded
      else decodeChunks (s.drop (ofDigits 16 size + 2)) (decoded ++ s.take (ofDigits 16 size)) := by
  have hcr : (13 : UInt8) ∉ size ++ ext := by
    intro hm
    rcases List.mem_append.mp hm with hm | hm
    · exact absurd (hex 13 hm) (by decide)
    · exact he.inLine.1 hm
  have hn : announced size = ofDigits 16 size := by
    simp only [announced, longMax] at hmax ⊢
    omega
  rw [decodeChunks_sizeLine hne hex (crlf_not_within hcr) (Extension.stops he), hn]

theorem decodeChunks_chunked {data raw : Bytes} (h : ChunkedBody data raw)
    (hmax : (raw.length : Int) ≤ longMax) (decoded : Bytes) :
    decodeChunks raw decoded = decoded ++ data := by
  induction h generalizing decoded with
  | @last zeros ext trailer hne hzero hext _ =>
    have hz : ofDigits 16 zeros = 0 := ofDigits_zeros hzero
    have hx : ∀ c ∈ zeros, isxdigit c = true := by
      intro c hc
      rw [hzero c hc]
      decide
    have hl := decodeChunks_line (s := (trailer.flatMap fun f => f.text ++ crlf) ++ crlf) hne hx
      hext (by rw [hz]; decide) decoded
    rw [← List.append_assoc, hz, if_pos rfl] at hl
    rw [hl, List.append_nil]
  | @chunk size ext data more raw hne hex hsize hext _ ih =>
    have hpos : data.length ≠ 0 := by simpa using hne
    have hsne : size ≠ [] := by
      rintro rfl
      exact hpos hsize.symm
    have hlen : data.length + raw.length ≤ (size ++ ext ++ crlf ++ data ++ crlf ++ raw).length := by
      simp only [List.length_append]
      omega
    have hl := decodeChunks_line (s := data ++ (crlf ++ raw)) hsne hex hext (by omega) decoded
    have hfit : ¬(data ++ (crlf ++ raw)).length < data.length := by
      rw [List.length_append]
      omega
    have hd : (data ++ (crlf ++ raw)).drop (data.length + 2) = raw := by
      rw [List.drop_length_add_append]
      rfl
    rw [hsize, if_neg hpos, if_neg hfit, List.take_left, hd, ih (by omega)] at hl
    simp only [List.append_assoc] at hl ⊢
    exact hl

theorem length_decodeChunks (rest decoded : Bytes) :
    (decodeChunks rest decoded).length ≤ decoded.length + (rest.length - 1) := by
  fun_induction decodeChunks rest decoded with
  | case1 => omega
  | case2 => omega
  | case3 => omega
  | case4 => omega
  | case5 rest decoded nl hnl len _ _ n hfit ih =>
    have := length_of_find hnl
    simp only [crlf, List.length_append, List.length_take, List.length_drop, List.length_cons,
      List.length_nil] at this hfit ih
    omega

theorem decodeChunks_eq_self {body : Bytes} : decodeChunks body [] = body ↔ body = [] := by
  constructor
  · intro h
    have hl := length_decodeChunks body []
    rw [h, List.length_nil] at hl
    exact List.length_eq_zero_iff.mp (by omega)
  · rintro rfl
    rw [decodeChunks]
    rfl

-- ---------------------------------------------------------------------------
-- The choice
-- ---------------------------------------------------------------------------

/-- The text that the source looks for stands in the header block. -/
def Marked (m : Reply) : Prop := contains (tolowerS m.head) transferChunked = true

instance (m : Reply) : Decidable (Marked m) := inferInstanceAs (Decidable (_ = true))

theorem parseResponse_text {m : Reply} (h : m.WellFormed) :
    (parseResponse m.text).body = if Marked m then decodeChunks m.body [] else m.body := by
  have htake : m.text.take m.head.length = m.head := by
    rw [Reply.text, List.append_assoc, List.append_assoc, List.take_left]
  have hdrop : m.text.drop (m.head.length + 4) = m.body := by
    rw [Reply.text, List.append_assoc, List.append_assoc, List.drop_length_add_append]
    rfl
  unfold parseResponse
  rw [Http.find_blankLine h]
  dsimp only
  rw [htake, hdrop]
  rfl

/-- The payload is returned when the text in the header block and the fields
say the same, and when there is nothing to decode. -/
theorem httpGet_payload_iff (m : Reply) (hm : m.WellFormed) (hlen : m.text.length ≤ 1024 * 1024)
    (turns : List ReadTurn) (ht : Delivers turns m.text) :
    (∃ resp, httpGet turns = some resp ∧ m.Carries resp.body) ↔
      (m.Chunked ∧ Marked m) ∨ (¬m.Chunked ∧ (¬Marked m ∨ m.body = [])) := by
  have hbody : (m.body.length : Int) ≤ longMax := by
    rw [Reply.text, List.length_append] at hlen
    simp only [longMax]
    omega
  simp only [httpGet_of_delivers ht hlen, Option.some.injEq, exists_eq_left', parseResponse_text hm,
    Reply.Carries]
  by_cases hc : m.Chunked <;> by_cases hk : Marked m
  · -- the decoded chunks are the data
    obtain ⟨data, hd⟩ := hm.body hc
    have hdec := decodeChunks_chunked hd hbody []
    simpa [hc, hk, hdec] using hd
  · -- the body itself is too long to be the data
    have hlt : ¬ChunkedBody m.body m.body := fun h => Nat.lt_irrefl _ h.length_lt
    simp [hc, hk, hlt]
  · simpa [hc, hk] using decodeChunks_eq_self
  · simp [hc, hk]

def oneChunk (value : String) : Reply where
  line := ascii "HTTP/1.1 200 OK"
  fields := [⟨ascii "Transfer-Encoding", ascii value⟩]
  body := ascii "1\r\na\r\n0\r\n\r\n"

theorem chunkedBody_oneChunk (value : String) : ChunkedBody (ascii "a") (oneChunk value).body := by
  have hext : Extension [] := ⟨by decide, by simp⟩
  have hlast : ChunkedBody []
      (ascii "0" ++ [] ++ crlf ++ ([].flatMap fun f : Field => f.text ++ crlf) ++ crlf) :=
    .last (by decide) (List.forall_mem_singleton.mpr rfl) hext (by simp)
  have hchunk : ChunkedBody (ascii "a" ++ []) (ascii "1" ++ [] ++ crlf ++ ascii "a" ++ crlf ++ _) :=
    .chunk (by decide) (List.all_eq_true.mp (by decide)) (by decide) hext hlast
  exact hchunk

theorem wellFormed_oneChunk {value : String} (h : Http.InLine (ascii value)) :
    (oneChunk value).WellFormed where
  line := by
    show Http.InLine (ascii "HTTP/1.1 200 OK")
    decide
  fields := by
    intro f hf
    obtain rfl := List.mem_singleton.mp hf
    refine ⟨by show ascii _ ≠ []; decide, ?_, h⟩
    have hall : (ascii "Transfer-Encoding").all fun c => c != chr ':' && !isspace c := by decide
    simpa using hall
  body := fun _ => ⟨_, chunkedBody_oneChunk value⟩

theorem delivers_once (text : Bytes) : Delivers [.data text, .closed] text :=
  ⟨[.data text], rfl, by simp [ReadTurn.GoesOn], by simp [ReadTurn.bytes]⟩

theorem httpGet_payload_oneChunk :
    ∃ resp, httpGet [.data (oneChunk " chunked").text, .closed] = some resp ∧
      (oneChunk " chunked").Carries resp.body :=
  (httpGet_payload_iff _ (wellFormed_oneChunk (by decide)) (by decide) _ (delivers_once _)).mpr
    (.inl (by decide))

/-- Without the space behind the colon, the chunks are handed out as they came. -/
theorem payload_not_decoded :
    ¬∀ (m : Reply), m.WellFormed → m.text.length ≤ 1024 * 1024 →
      ∀ turns, Delivers turns m.text → ∃ resp, httpGet turns = some resp ∧ m.Carries resp.body := by
  intro h
  have hm : (oneChunk "chunked").WellFormed := wellFormed_oneChunk (by decide)
  have hlen : (oneChunk "chunked").text.length ≤ 1024 * 1024 := by decide
  obtain ⟨resp, hresp, hchunked, -⟩ := h _ hm hlen _ (delivers_once _)
  rw [httpGet_of_delivers (delivers_once _) hlen] at hresp
  obtain rfl := Option.some.inj hresp
  have hbody := hchunked (by decide)
  rw [parseResponse_text hm, if_neg (by decide)] at hbody
  exact Nat.lt_irrefl _ hbody.length_lt

end ByeByeVpn
