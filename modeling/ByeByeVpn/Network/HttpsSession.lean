import ByeByeVpn.Network.HttpsProbe
import ByeByeVpn.Network.TlsProbe

/-!
# The HTTPS probe as a session (`network/https_probe.cpp`)

`https_probe` from the connection to the report: it asks for the start page
whoever answers, reads at most six times and takes apart what it got.
-/

namespace ByeByeVpn

open TlsClient Session

structure HttpsProbeNet extends TlsSetup where
  setSni : Bool
  connectRc : Int
  connectFailure : SslFailure
  wrote : Int
  writeFailure : SslFailure
  turn : Nat → ReadTurn

def kAlpnHttp11 : Bytes := 8 :: ascii "http/1.1"

def startPageRequest (ip hostHdr : Bytes) : Bytes :=
  ascii "GET / HTTP/1.1\r\nHost: " ++ (if hostHdr.isEmpty then ip else hostHdr) ++
    ascii "\r\nAccept: */*\r\nConnection: close\r\n\r\n"

namespace HttpsProbeNet

variable (net : HttpsProbeNet)

def readTurns : Nat → Bytes → Session Call (Bytes × Bytes)
  | 0, body => return (body, [])
  | left + 1, body => do
    call .read
    match net.turn (5 - left) with
    | .data got =>
      if 4096 ≤ (body ++ got).length then return (body ++ got, [])
      else readTurns left (body ++ got)
    | .again => readTurns left body
    | .closed => return (body, [])
    | .failed err => return (body, err)

def exchange (req : Bytes) : Session Call HttpsReport := do
  call (.write req net.wrote)
  if net.wrote ≤ 0 then
    return { tlsOk := true, err := sslErrorMessage net.writeFailure "ssl_write" }
  else if net.wrote ≠ req.length then
    return { tlsOk := true, err := ascii "ssl_write partial" }
  else do
    let (body, err) ← net.readTurns 6 []
    call .shutdown
    return analyzeReply body err

def handshake (req : Bytes) : Session Call HttpsReport := do
  offerAlpn kAlpnHttp11
  call (.handshake net.connectRc)
  if net.connectRc ≠ 1 then return { err := sslErrorMessage net.connectFailure "ssl_connect" }
  else net.exchange req

def probe (ip hostHdr : Bytes) (toMs : Int) : Session Call HttpsReport :=
  net.withConnection toMs (fun err => { err }) (call (.setTimeouts toMs)) do
    if hostHdr.isEmpty then net.handshake (startPageRequest ip hostHdr)
    else if !net.setSni then return { err := ascii "ssl_set_sni" }
    else do
      call (.setSni (cStr hostHdr))
      net.handshake (startPageRequest ip hostHdr)

end HttpsProbeNet

-- ---------------------------------------------------------------------------
-- The request
-- ---------------------------------------------------------------------------

def startPage (ip hostHdr : Bytes) : Http.Request where
  method := ascii "GET"
  target := ascii "/"
  fields :=
    [⟨ascii "Host", ascii " " ++ if hostHdr.isEmpty then ip else hostHdr⟩,
      ⟨ascii "Accept", ascii " */*"⟩, ⟨ascii "Connection", ascii " close"⟩]

theorem text_startPage (ip hostHdr : Bytes) :
    (startPage ip hostHdr).text = startPageRequest ip hostHdr := by
  have hline : ascii "GET / HTTP/1.1\r\nHost: " =
      ascii "GET" ++ chr ' ' :: (ascii "/" ++ ascii " HTTP/1.1") ++ Http.crlf ++
        (ascii "Host" ++ chr ':' :: ascii " ") := by decide
  have hrest : ascii "\r\nAccept: */*\r\nConnection: close\r\n\r\n" =
      Http.crlf ++ (ascii "Accept" ++ chr ':' :: ascii " */*") ++ Http.crlf ++
        (ascii "Connection" ++ chr ':' :: ascii " close") ++ Http.crlf ++ Http.crlf := by decide
  rw [startPageRequest, hline, hrest]
  simp [startPage, Http.Request.text, Http.Request.line, Http.fieldLines, Http.Field.text]

theorem startPage_only_iff (ip hostHdr : Bytes) :
    (startPage ip hostHdr).Only (startPageRequest ip hostHdr) ↔
      Http.InLine (if hostHdr.isEmpty then ip else hostHdr) := by
  constructor
  · intro h
    have hhost := h.wellFormed.fields ⟨ascii "Host", _⟩ List.mem_cons_self
    exact (Http.inLine_append.mp hhost.value).2
  · intro hhost
    rw [← text_startPage]
    have hword {w : Bytes} (hne : w ≠ []) (hw : w.all fun c => !isspace c) : Http.Word w :=
      ⟨hne, fun c hc => by simpa using List.all_eq_true.mp hw c hc⟩
    refine Http.Request.WellFormed.only
      ⟨hword (w := ascii "GET") (by decide) (by decide),
        hword (w := ascii "/") (by decide) (by decide), ?_⟩
    simp only [startPage, List.forall_mem_cons]
    exact ⟨Http.Field.wellFormed_of_plain (by decide) (by decide)
        (Http.inLine_append.mpr ⟨by decide, hhost⟩),
      Http.Field.wellFormed_of_plain (by decide) (by decide) (by decide),
      Http.Field.wellFormed_of_plain (by decide) (by decide) (by decide), fun _ h => nomatch h⟩

-- ---------------------------------------------------------------------------
-- Reading
-- ---------------------------------------------------------------------------

def probed (turn : Nat → ReadTurn) (start n : Nat) : Bytes :=
  (List.range' start n).flatMap fun i => (turn i).bytes

theorem probed_succ (turn : Nat → ReadTurn) (start n : Nat) :
    probed turn start (n + 1) = (turn start).bytes ++ probed turn (start + 1) n := rfl

section
variable {turn : Nat → ReadTurn} {left : Nat}

theorem readProbe_data {got : Bytes} (h : turn (5 - left) = .data got) (body : Bytes) :
    readProbe turn (left + 1) body =
      if 4096 ≤ (body ++ got).length then (body ++ got, [])
      else readProbe turn left (body ++ got) := by
  rw [readProbe, h]

/-- The loop takes what some of the turns that are left deliver. -/
theorem readProbe_probed (h : left ≤ 6) (body : Bytes) :
    ∃ n ≤ left, (readProbe turn left body).1 = body ++ probed turn (6 - left) n := by
  induction left generalizing body with
  | zero => exact ⟨0, Nat.le_refl 0, by simp [readProbe, probed]⟩
  | succ left ih =>
    have hstart : 6 - (left + 1) = 5 - left := by omega
    have hnext : 5 - left + 1 = 6 - left := by omega
    cases hturn : turn (5 - left) with
    | data got =>
      have hgot : (turn (5 - left)).bytes = got := by rw [hturn]; rfl
      rw [readProbe_data hturn, hstart]
      split_ifs with hfull
      · exact ⟨1, by omega, by rw [probed_succ, hgot]; simp [probed]⟩
      · obtain ⟨n, hn, heq⟩ := ih (by omega) (body ++ got)
        exact ⟨n + 1, by omega, by rw [heq, probed_succ, hgot, hnext, List.append_assoc]⟩
    | again =>
      have hgot : (turn (5 - left)).bytes = [] := by rw [hturn]; rfl
      obtain ⟨n, hn, heq⟩ := ih (by omega) body
      refine ⟨n + 1, by omega, ?_⟩
      rw [readProbe, hturn, heq, hstart, probed_succ, hgot, hnext, List.nil_append]
    | closed => exact ⟨0, Nat.zero_le _, by simp [readProbe, hturn, probed]⟩
    | failed err => exact ⟨0, Nat.zero_le _, by simp [readProbe, hturn, probed]⟩

theorem readProbe_length_le {n : Nat} (hn : ∀ i, (turn i).bytes.length ≤ n) {body : Bytes}
    (h : body.length < 4096) : (readProbe turn left body).1.length ≤ 4095 + n := by
  have hbody : body.length ≤ 4095 + n := by omega
  induction left generalizing body with
  | zero => exact hbody
  | succ left ih =>
    cases hturn : turn (5 - left) with
    | data got =>
      have hgot : got.length ≤ n := by
        have := hn (5 - left)
        rwa [hturn] at this
      rw [readProbe_data hturn]
      have hlen : (body ++ got).length ≤ 4095 + n := by
        rw [List.length_append]
        omega
      split_ifs with hfull
      · exact hlen
      · exact ih (Nat.lt_of_not_le hfull) hlen
    | again =>
      rw [readProbe, hturn]
      exact ih h hbody
    | closed =>
      rw [readProbe, hturn]
      exact hbody
    | failed err =>
      rw [readProbe, hturn]
      exact hbody

end

theorem analyzeReply_facts (body err : Bytes) :
    (analyzeReply body err).tlsOk = true ∧ (analyzeReply body err).err = err ∧
      (analyzeReply body err).bytes = body.length ∧
      ((analyzeReply body err).responded = true ↔ body ≠ []) := by
  unfold analyzeReply
  cases body with
  | nil => simp
  | cons c body => simp

-- ---------------------------------------------------------------------------
-- The protocol
-- ---------------------------------------------------------------------------

def onlyRequest (req : Bytes) : Policy := ⟨req, false, fun _ => true⟩

namespace HttpsProbeNet

/-- What the probe reports: an error, or what the first few reads delivered
after the whole request was taken. -/
structure Told (net : HttpsProbeNet) (req : Bytes) (r : HttpsReport) (said : Option Bytes) :
    Prop where
  failed : r.tlsOk = false → r = { err := r.err } ∧ r.err ≠ []
  responded : r.responded = true ↔ 0 < r.bytes
  sent : r.responded = true → r.tlsOk = true ∧ said = some req ∧
    ∃ m ≤ 6, r = analyzeReply (probed net.turn 0 m) r.err
  bytes : ∀ n, (∀ i, (net.turn i).bytes.length ≤ n) → r.bytes ≤ 4095 + n

variable {net : HttpsProbeNet} {req : Bytes}

theorem told_of_err {err : Bytes} (h : err ≠ []) (said : Option Bytes) :
    net.Told req { err } said :=
  ⟨fun _ => ⟨rfl, h⟩, iff_of_false Bool.false_ne_true (Nat.lt_irrefl 0),
    fun hr => absurd hr Bool.false_ne_true, fun _ _ => Nat.zero_le _⟩

theorem told_of_write_err (err : Bytes) (said : Option Bytes) :
    net.Told req { tlsOk := true, err } said :=
  ⟨fun h => (by cases h), iff_of_false Bool.false_ne_true (Nat.lt_irrefl 0),
    fun hr => absurd hr Bool.false_ne_true, fun _ _ => Nat.zero_le _⟩

theorem told_of_reply :
    net.Told req (analyzeReply (readProbe net.turn 6 []).1 (readProbe net.turn 6 []).2)
      (some req) := by
  obtain ⟨m, hm, hbody⟩ : ∃ m ≤ 6, (readProbe net.turn 6 []).1 = [] ++ probed net.turn 0 m :=
    readProbe_probed (Nat.le_refl 6) []
  obtain ⟨htls, herr, hbytes, hresponded⟩ :=
    analyzeReply_facts (readProbe net.turn 6 []).1 (readProbe net.turn 6 []).2
  refine ⟨fun h => ?_, ?_, fun _ => ⟨htls, rfl, m, hm, ?_⟩, fun n hn => ?_⟩
  · rw [htls] at h
    cases h
  · rw [hresponded, hbytes, List.length_pos_iff]
  · rw [herr, hbody]
    rfl
  · rw [hbytes]
    exact readProbe_length_le hn (by decide)

theorem readTurns_leads {p : Policy} {c : Client} (hread : step p c .read = some c) (left : Nat)
    (body : Bytes) :
    Leads (step p) c (net.readTurns left body) fun r d =>
      d = c ∧ r = readProbe net.turn left body := by
  induction left generalizing body with
  | zero => exact .pure ⟨rfl, rfl⟩
  | succ left ih =>
    refine .seq hread ?_
    cases hturn : net.turn (5 - left) with
    | data got =>
      rw [readProbe_data hturn]
      refine .ite (fun h => .pure ⟨rfl, ?_⟩) fun h => ?_
      · rw [if_pos h]
      · rw [if_neg h]
        exact ih _
    | again =>
      rw [readProbe, hturn]
      exact ih body
    | closed => exact .pure ⟨rfl, by rw [readProbe, hturn]⟩
    | failed err => exact .pure ⟨rfl, by rw [readProbe, hturn]⟩

theorem exchange_leads (hne : req ≠ []) :
    Leads (step (onlyRequest req)) (probing [] true { attached := true, established := true })
      (net.exchange req) fun r d =>
        ∃ said b k, d = probing said b k ∧ net.Told req r (some said) := by
  have hwrite :
      step (onlyRequest req) (probing [] true { attached := true, established := true })
        (.write req net.wrote) =
      some (probing (req.take net.wrote.toNat) true { attached := true, established := true }) := by
    simp [step, onlyRequest, probing, Policy.offers, hne, Client.onConnection, Client.say]
  have hread :
      step (onlyRequest req) (probing req true { attached := true, established := true }) .read =
      some (probing req true { attached := true, established := true }) := by
    simp [step, onlyRequest, probing, Policy.listens, Client.onConnection]
  refine .seq hwrite (.ite (fun _ => .pure ⟨_, _, _, rfl, told_of_write_err _ _⟩) fun _ => ?_)
  refine .ite (fun _ => .pure ⟨_, _, _, rfl, told_of_write_err _ _⟩) fun hwrote => ?_
  rw [of_not_not hwrote, Int.toNat_natCast, List.take_length]
  refine (readTurns_leads hread 6 []).bind ?_
  rintro _ _ ⟨rfl, rfl⟩
  exact .seq rfl (.pure ⟨_, _, _, rfl, told_of_reply⟩)

theorem handshake_leads (hne : req ≠ []) :
    Leads (step (onlyRequest req)) (probing [] true { attached := true }) (net.handshake req)
      fun r d => ∃ said b k, d = probing said b k ∧ net.Told req r (some said) := by
  refine (offerAlpn_leads kAlpnHttp11).bind ?_
  rintro _ _ rfl
  refine .seq (t := probing [] true { attached := true, established := net.connectRc == 1 }) rfl ?_
  refine .ite (fun _ => .pure ⟨_, _, _, rfl, told_of_err ?_ _⟩) fun hrc => ?_
  · rw [sslErrorMessage, List.append_assoc, List.append_assoc]
    exact ascii_append_ne_nil (by decide) _
  · rw [beq_iff_eq.mpr (of_not_not hrc)]
    exact exchange_leads hne

end HttpsProbeNet

end ByeByeVpn
