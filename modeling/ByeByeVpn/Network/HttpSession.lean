import ByeByeVpn.Lib.HttpRequest
import ByeByeVpn.Network.HttpFraming
import ByeByeVpn.Network.HttpUrl
import ByeByeVpn.Network.TcpSend

/-!
# A whole request (`network/http_client.cpp`)

`http_get` from the URL to the result, with the calls that it makes. What the
system, the TLS library and the peer answer is data.
-/

namespace ByeByeVpn

open TlsClient Session

/-- What `SSL_get_error` and the error queue say after a call that failed. -/
structure SslFailure where
  sslErr : Int
  queued : Bytes

structure HttpNet where
  opensslInit : Option Bytes
  tcpConnect : Bytes → Int → Int → TcpConnect
  ctxNew : Bool
  /-- The file can be opened, and its certificates loaded. -/
  bundle : Bytes → Bool
  defaultPaths : Bool
  sslNew : Bool
  attach : Option Bytes
  setSni : Bool
  getParam : Bool
  setIp : Bool
  setHost : Bool
  connectRc : Int
  connectFailure : SslFailure
  verify : Int
  wrote : Int
  writeFailure : SslFailure
  reads : List ReadTurn
  sent : List Int
  sendErrno : Int
  /-- What each `recv` delivers; nothing when it returns zero or fails. -/
  recvs : List Bytes
  ms : Int

-- ---------------------------------------------------------------------------
-- Names
-- ---------------------------------------------------------------------------

/-- `s.c_str()` for a function that takes a C string. -/
def cStr (s : Bytes) : Bytes := s.takeWhile (· != 0)

def isIpv4Literal (s : Bytes) : Bool :=
  s.all (fun c => c == chr '.' || isdigit c) && s.count (chr '.') == 3

def isIpLiteral (host : Bytes) : Bool :=
  if host.isEmpty then false
  else if startsWith host (ascii "[") then false
  else isIpv4Literal host || host.contains (chr ':')

def peerOf (host : Bytes) : Peer := if isIpLiteral host then .ip (cStr host) else .host host

def isHttps (url : Bytes) : Bool := startsWith url (ascii "https://")

-- ---------------------------------------------------------------------------
-- The connection
-- ---------------------------------------------------------------------------

def sslErrorMessage (f : SslFailure) (op : String) : Bytes :=
  ascii op ++ ascii " err=" ++ decimal f.sslErr ++
    if f.queued.isEmpty then [] else ascii " " ++ f.queued

def kCaBundleCandidates : List Bytes :=
  ["/etc/pki/ca-trust/extracted/pem/tls-ca-bundle.pem", "/etc/pki/tls/certs/ca-bundle.crt",
    "/etc/ssl/certs/ca-certificates.crt", "/etc/ssl/ca-bundle.pem", "/etc/ssl/cert.pem"].map ascii

namespace HttpNet

variable (net : HttpNet)

def configureTlsCtx : Session Call Bool := do
  call (.setVerify true)
  let trustLoaded := kCaBundleCandidates.any net.bundle || net.defaultPaths
  call (.loadTrust trustLoaded)
  return trustLoaded

/-- The name to ask for and to check, or the error. -/
def setPeer (host : Bytes) : Session Call (Option Bytes) :=
  if isIpLiteral host then
    if !net.getParam then return some (ascii "ssl_get_param")
    else if !net.setIp then return some (ascii "ssl_set_ip")
    else do
      call (.setPeer (.ip (cStr host)))
      return none
  else if !net.setSni then return some (ascii "ssl_set_sni")
  else do
    call (.setSni (cStr host))
    if !net.getParam then return some (ascii "ssl_get_param")
    else if !net.setHost then return some (ascii "ssl_set_host")
    else do
      call (.setPeer (.host host))
      return none

def handshake (host : Bytes) : Session Call (Option Bytes) :=
  match net.attach with
  | some err => return some (ascii "ssl_set_fd " ++ err)
  | none => do
    call .attach
    match ← net.setPeer host with
    | some err => return some err
    | none => do
      call (.handshake net.connectRc)
      if net.connectRc ≠ 1 then return some (sslErrorMessage net.connectFailure "ssl_connect")
      else do
        call (.verifyResult net.verify)
        if net.verify ≠ 0 then return some (ascii "ssl_verify " ++ decimal net.verify)
        else return none

-- ---------------------------------------------------------------------------
-- The exchange
-- ---------------------------------------------------------------------------

def readLoop (readCall : Call) : Bytes → List ReadTurn → Session Call (Except Bytes Bytes)
  | _, [] => ⟨[], none⟩
  | resp, turn :: turns => do
    call readCall
    match turn with
    | .data got =>
      if kMaxResponseSize < (resp ++ got).length then return .ok (resp ++ got)
      else readLoop readCall (resp ++ got) turns
    | .again => readLoop readCall resp turns
    | .closed => return .ok resp
    | .failed err => return .error err

/-- A plain connection takes every error for the end. -/
def recvTurn (got : Bytes) : ReadTurn := if got.isEmpty then .closed else .data got

def exchangeTls (req : Bytes) : Session Call (Except Bytes Bytes) := do
  call (.write req net.wrote)
  if net.wrote ≤ 0 then return .error (sslErrorMessage net.writeFailure "ssl_write")
  else if net.wrote ≠ req.length then return .error (ascii "ssl_write partial")
  else readLoop .read [] net.reads

def exchangePlain (req : Bytes) : Session Call (Except Bytes Bytes) := do
  let sent ← tcpSendAll net.sent req
  if sent ≠ req.length then return .error (ascii "send " ++ decimal net.sendErrno)
  else readLoop .recv [] (net.recvs.map recvTurn)

def finish : Except Bytes Bytes → HttpResp
  | .ok resp => { parseResponse resp with ms := net.ms }
  | .error err => { err }

def getTls (t : HttpTarget) : Session Call HttpResp :=
  if !net.ctxNew then return { err := ascii "ssl_ctx_new" }
  else within .newContext .freeContext do
    let trusted ← net.configureTlsCtx
    if !trusted then return { err := ascii "ssl_trust_store" }
    else if !net.sslNew then return { err := ascii "ssl_new" }
    else within .newConnection .freeConnection do
      match ← net.handshake t.host with
      | some err => return { err }
      | none =>
        let got ← net.exchangeTls t.request
        return net.finish got

def get (url : Bytes) (timeoutMs : Int) : Session Call HttpResp :=
  match net.opensslInit with
  | some err => return { err := ascii "openssl_init " ++ err }
  | none =>
    match parseUrl url with
    | .error err => return { err }
    | .ok t =>
      let c := net.tcpConnect t.host t.port timeoutMs
      if c.socket = INVALID_SOCKET then return { err := ascii "connect " ++ c.err }
      else within .connect .close do
        call (.setTimeouts timeoutMs)
        if isHttps url then net.getTls t
        else do
          let got ← net.exchangePlain t.request
          return net.finish got

end HttpNet

-- ---------------------------------------------------------------------------
-- The request
-- ---------------------------------------------------------------------------

def HttpTarget.asRequest (t : HttpTarget) : Http.Request where
  method := ascii "GET"
  target := t.path
  fields :=
    [⟨ascii "Host", ascii " " ++ t.host⟩, ⟨ascii "Connection", ascii " close"⟩,
      ⟨ascii "User-Agent", ascii " byebyevpn/3"⟩, ⟨ascii "Accept", ascii " */*"⟩]

theorem HttpTarget.text_asRequest (t : HttpTarget) : t.asRequest.text = t.request := by
  have hget : ascii "GET " = ascii "GET" ++ [chr ' '] := by decide
  have hversion : ascii " HTTP/1.1\r\n" = ascii " HTTP/1.1" ++ Http.crlf := by decide
  have hhost : ascii "Host: " = ascii "Host" ++ chr ':' :: ascii " " := by decide
  have hrest : ascii "\r\nConnection: close\r\nUser-Agent: byebyevpn/3\r\nAccept: */*\r\n\r\n" =
      Http.crlf ++ (ascii "Connection" ++ chr ':' :: ascii " close") ++ Http.crlf ++
        (ascii "User-Agent" ++ chr ':' :: ascii " byebyevpn/3") ++ Http.crlf ++
        (ascii "Accept" ++ chr ':' :: ascii " */*") ++ Http.crlf ++ Http.crlf := by decide
  rw [HttpTarget.request, hget, hversion, hhost, hrest]
  simp [asRequest, Http.Request.text, Http.Request.line, Http.fieldLines, Http.Field.text]

theorem HttpTarget.asRequest_wellFormed_iff (t : HttpTarget) :
    t.asRequest.WellFormed ↔ Http.Word t.path ∧ Http.InLine t.host := by
  constructor
  · intro h
    have hhost := (h.fields ⟨ascii "Host", ascii " " ++ t.host⟩ List.mem_cons_self).value
    exact ⟨h.target, (Http.inLine_append.mp hhost).2⟩
  · rintro ⟨hpath, hhost⟩
    have hget : (ascii "GET").all fun c => !isspace c := by decide
    refine ⟨⟨by simp [asRequest, ascii], fun c hc => ?_⟩, hpath, ?_⟩
    · simpa using List.all_eq_true.mp hget c hc
    · simp only [asRequest, List.forall_mem_cons]
      have hnil : ∀ f ∈ ([] : List Http.Field), f.WellFormed := by simp
      exact ⟨Http.Field.wellFormed_of_plain (by decide) (by decide)
          (Http.inLine_append.mpr ⟨by decide, hhost⟩),
        Http.Field.wellFormed_of_plain (by decide) (by decide) (by decide),
        Http.Field.wellFormed_of_plain (by decide) (by decide) (by decide),
        Http.Field.wellFormed_of_plain (by decide) (by decide) (by decide), hnil⟩

-- ---------------------------------------------------------------------------
-- The protocol
-- ---------------------------------------------------------------------------

/-- What a request for this URL says, over TLS to the verified host only, and
in the clear only if the URL does not ask for TLS. -/
def httpPolicy (url : Bytes) : Policy :=
  match parseUrl url with
  | .ok t => ⟨t.request, !isHttps url, fun c => isHttps url && c.verified (peerOf t.host)⟩
  | .error _ => ⟨[], false, fun _ => false⟩

section
variable {p : Policy} {c : Client} {k : Connection}

def connected (said : Bytes) (trusted : Bool) (k : Connection) : Client where
  socket := some true
  context := some ⟨true, trusted⟩
  connection := some k
  said := some said

theorem readLoop_leads {readCall : Call} (hread : step p c readCall = some c) (resp : Bytes)
    (turns : List ReadTurn) :
    Leads (step p) c (HttpNet.readLoop readCall resp turns) fun r d =>
      d = c ∧ readResponse resp turns = some r := by
  induction turns generalizing resp with
  | nil => exact ⟨c, rfl, fun r hr => by cases hr⟩
  | cons turn turns ih =>
    refine .seq hread ?_
    cases turn with
    | data got =>
      refine .ite (fun h => .pure ⟨rfl, ?_⟩) fun h => (ih _).mono fun r d hr => ⟨hr.1, ?_⟩
      · rw [readResponse, if_pos h]
      · rw [readResponse, if_neg h]
        exact hr.2
    | again => exact (ih resp).mono fun r d hr => ⟨hr.1, hr.2⟩
    | closed => exact .pure ⟨rfl, rfl⟩
    | failed err => exact .pure ⟨rfl, rfl⟩

variable (net : HttpNet)

theorem configureTlsCtx_leads (said : Bytes) :
    Leads (step p) { opened said with context := some {} } net.configureTlsCtx
      fun trusted d => d = { opened said with context := some ⟨true, trusted⟩ } := by
  refine .seq rfl ?_
  exact .seq rfl (.pure rfl)

theorem setPeer_leads (host said : Bytes) (trusted : Bool) (k : Connection)
    (hk : k.established = false) :
    Leads (step p) (connected said trusted k) (net.setPeer host) fun err d =>
      ∃ k', d = connected said trusted k' ∧
        (err = none → k' = { k with peer := some (peerOf host) }) := by
  have hset (peer : Peer) : step p (connected said trusted k) (.setPeer peer) =
      some (connected said trusted { k with peer := some peer }) := by
    simp [step, connected, Client.onConnection, hk]
  have hsni (name : Bytes) : step p (connected said trusted k) (.setSni name) =
      some (connected said trusted k) := by
    simp [step, connected, Client.onConnection, hk]
  have hfail (err : Bytes) : Leads (step p) (connected said trusted k)
      (Pure.pure (some err) : Session Call (Option Bytes)) fun err d =>
        ∃ k', d = connected said trusted k' ∧
          (err = none → k' = { k with peer := some (peerOf host) }) :=
    .pure ⟨k, rfl, fun h => by cases h⟩
  refine .ite (fun hip => ?_) fun hip => ?_
  · have hpeer : peerOf host = .ip (cStr host) := if_pos hip
    refine .ite (fun _ => hfail _) fun _ => .ite (fun _ => hfail _) fun _ => ?_
    exact .seq (hset _) (.pure ⟨_, rfl, fun _ => by rw [hpeer]⟩)
  · have hpeer : peerOf host = .host host := if_neg hip
    refine .ite (fun _ => hfail _) fun _ => .seq (hsni _) ?_
    refine .ite (fun _ => hfail _) fun _ => .ite (fun _ => hfail _) fun _ => ?_
    exact .seq (hset _) (.pure ⟨_, rfl, fun _ => by rw [hpeer]⟩)

theorem handshake_leads (host said : Bytes) :
    Leads (step p) (connected said true {}) (net.handshake host) fun err d =>
      ∃ k, d = connected said true k ∧
        (err = none → k.established = true ∧ d.verified (peerOf host) = true) := by
  have hfail (k : Connection) (err : Bytes) : Leads (step p) (connected said true k)
      (Pure.pure (some err) : Session Call (Option Bytes)) fun err d =>
        ∃ k, d = connected said true k ∧
          (err = none → k.established = true ∧ d.verified (peerOf host) = true) :=
    .pure ⟨k, rfl, fun h => by cases h⟩
  unfold HttpNet.handshake
  cases net.attach with
  | some err => exact hfail _ _
  | none =>
    refine .seq (t := connected said true { attached := true }) rfl ?_
    refine (setPeer_leads net host said true { attached := true } rfl).bind ?_
    rintro (_ | err) d ⟨k', rfl, hk'⟩
    · obtain rfl := hk' rfl
      refine .seq rfl (.ite (fun _ => hfail _ _) fun hrc => .seq (t := connected said true
        { attached := true, peer := some (peerOf host), established := true,
          verified := net.verify == 0 }) ?_ ?_)
      · simp [step, connected, Client.onConnection, of_not_not hrc]
      · refine .ite (fun _ => hfail _ _) fun hv => .pure ⟨_, rfl, fun _ => ⟨rfl, ?_⟩⟩
        simp [Client.verified, connected, of_not_not hv]
    · exact hfail _ _

theorem Sends.exec {said data rest : Bytes} {calls : List Call} (h : Sends data calls rest)
    (hclear : p.clear = true) (hreq : said ++ data = p.request) :
    Runs.exec (step p) (opened said) calls = some (opened (said ++ Taken calls)) := by
  have hstep (said left : Bytes) (hne : left ≠ []) (hreq : said ++ left = p.request)
      (returned : Int) : step p (opened said) (.send left returned) =
        some (opened (said ++ left.take returned.toNat)) := by
    simp [step, opened, hclear, Policy.offers, hne, hreq, Client.say]
  induction h generalizing said with
  | nothing left => simp [Runs.exec, Taken]
  | failed hne h =>
    rw [Runs.exec, hstep said _ hne hreq, Taken, Taken, List.append_nil]
    rfl
  | @part left rest hne returned calls h more ih =>
    rw [Runs.exec, hstep said _ hne hreq, Taken, ← List.append_assoc]
    refine ih ?_
    rw [List.append_assoc, List.take_append_drop, hreq]

theorem tcpSendAll_leads (answers : List Int) (hclear : p.clear = true) :
    Leads (step p) (opened []) (tcpSendAll answers p.request) fun r d =>
      ∃ said, d = opened said ∧ (r = p.request.length → said = p.request) := by
  obtain ⟨rest, hsends, hreturned, -⟩ := sendLoop_sends p.request.length answers p.request
  refine ⟨_, hsends.exec hclear (List.nil_append _), fun r hr => ⟨_, rfl, fun hall => ?_⟩⟩
  have hnil := ((hreturned r hr).all_iff hsends).mp hall
  rw [List.nil_append]
  rw [hnil] at hsends
  simpa using hsends.taken.symm

/-- An answer that is no error, and how it came: all of the request was taken,
and the connection then gave these bytes. -/
def HttpNet.Fetched (url : Bytes) (r : HttpResp) (c : Client) : Prop :=
  ∃ t resp, parseUrl url = .ok t ∧ c.said = some t.request ∧
    r = { parseResponse resp with ms := net.ms } ∧
    readResponse [] (if isHttps url then net.reads else net.recvs.map HttpNet.recvTurn) =
      some (.ok resp)

theorem exchangeTls_leads (hk : k.established = true)
    (hsecure : p.secure (connected [] true k) = true) (hne : p.request ≠ []) :
    Leads (step p) (connected [] true k) (net.exchangeTls p.request) fun r d =>
      ∃ said, d = connected said true k ∧ ∀ resp, r = .ok resp →
        said = p.request ∧ readResponse [] net.reads = some (.ok resp) := by
  have hwrite : step p (connected [] true k) (.write p.request net.wrote) =
      some (connected (p.request.take net.wrote.toNat) true k) := by
    have hsecure' := hsecure
    unfold connected at hsecure'
    simp [step, connected, hsecure', Policy.offers, hne, Client.onConnection, hk, Client.say]
  have hread : step p (connected p.request true k) .read = some (connected p.request true k) := by
    simp [step, connected, Policy.listens, Client.onConnection, hk]
  have hfail (said err : Bytes) : Leads (step p) (connected said true k)
      (Pure.pure (.error err) : Session Call (Except Bytes Bytes)) fun r d =>
        ∃ said, d = connected said true k ∧ ∀ resp, r = .ok resp →
          said = p.request ∧ readResponse [] net.reads = some (.ok resp) :=
    .pure ⟨said, rfl, fun _ h => by cases h⟩
  refine .seq hwrite (.ite (fun _ => hfail _ _) fun _ => .ite (fun _ => hfail _ _) fun hw => ?_)
  rw [of_not_not hw, Int.toNat_natCast, List.take_length]
  refine (readLoop_leads hread [] net.reads).mono fun r d hr => ⟨_, hr.1, ?_⟩
  rintro resp rfl
  exact ⟨rfl, hr.2⟩

theorem exchangePlain_leads (hclear : p.clear = true) :
    Leads (step p) (opened []) (net.exchangePlain p.request) fun r d =>
      ∃ said, d = opened said ∧ ∀ resp, r = .ok resp →
        said = p.request ∧ readResponse [] (net.recvs.map HttpNet.recvTurn) = some (.ok resp) := by
  have hrecv : step p (opened p.request) .recv = some (opened p.request) := by
    simp [step, opened, Policy.listens]
  refine (tcpSendAll_leads net.sent hclear).bind ?_
  rintro sent d ⟨said, rfl, hsaid⟩
  refine .ite (fun _ => .pure ⟨_, rfl, fun _ h => by cases h⟩) fun hall => ?_
  obtain rfl := hsaid (of_not_not hall)
  refine (readLoop_leads hrecv [] _).mono fun r d hr => ⟨_, hr.1, ?_⟩
  rintro resp rfl
  exact ⟨rfl, hr.2⟩

theorem finish_ok {r : Except Bytes Bytes} (h : (net.finish r).ok = true) :
    ∃ resp, r = .ok resp := by
  cases r with
  | error err => exact absurd h Bool.false_ne_true
  | ok resp => exact ⟨resp, rfl⟩

theorem HttpTarget.request_ne_nil (t : HttpTarget) : t.request ≠ [] := by
  simp [HttpTarget.request, ascii]

theorem getTls_leads {url : Bytes} {t : HttpTarget} (ht : parseUrl url = .ok t)
    (hurl : isHttps url = true) :
    Leads (step (httpPolicy url)) (opened []) (net.getTls t) fun r d =>
      ∃ said, d = opened said ∧ (r.ok = true → net.Fetched url r d) := by
  have hreq : (httpPolicy url).request = t.request := by simp only [httpPolicy, ht]
  unfold HttpNet.getTls
  refine .ite (fun _ => .pure ⟨_, rfl, fun h => absurd h Bool.false_ne_true⟩) fun _ => ?_
  refine .within (t := { opened [] with context := some {} }) rfl ?_
  refine (configureTlsCtx_leads net []).bind ?_
  rintro trusted _ rfl
  refine .ite (fun _ => .pure ⟨_, rfl, _, rfl, fun h => absurd h Bool.false_ne_true⟩)
    fun htrusted => ?_
  obtain rfl : trusted = true := by simpa using htrusted
  refine .ite (fun _ => .pure ⟨_, rfl, _, rfl, fun h => absurd h Bool.false_ne_true⟩) fun _ => ?_
  refine .within (t := connected [] true {}) rfl ((handshake_leads net t.host []).bind ?_)
  rintro (_ | err) d ⟨k, rfl, hk⟩
  · obtain ⟨hestablished, hverified⟩ := hk rfl
    have hsecure : (httpPolicy url).secure (connected [] true k) = true := by
      simp [httpPolicy, ht, hurl, hverified]
    rw [← hreq]
    refine (exchangeTls_leads net hestablished hsecure (hreq ▸ t.request_ne_nil)).bind ?_
    rintro r _ ⟨said, rfl, hr⟩
    refine .pure ⟨_, rfl, _, rfl, _, rfl, fun hok => ?_⟩
    obtain ⟨resp, rfl⟩ := finish_ok net hok
    obtain ⟨rfl, hread⟩ := hr resp rfl
    exact ⟨t, resp, ht, congrArg some hreq, rfl, by rw [if_pos hurl]; exact hread⟩
  · exact .pure ⟨_, rfl, _, rfl, _, rfl, fun h => absurd h Bool.false_ne_true⟩

end

theorem readResponse_none_iff {resp : Bytes} (turns : List ReadTurn)
    (h : resp.length ≤ kMaxResponseSize) :
    readResponse resp turns = none ↔ (∀ t ∈ turns, t.GoesOn) ∧
      (resp ++ turns.flatMap ReadTurn.bytes).length ≤ kMaxResponseSize := by
  induction turns generalizing resp with
  | nil => simp [readResponse, h]
  | cons t turns ih =>
    cases t with
    | data got =>
      rw [readResponse, List.flatMap_cons, ReadTurn.bytes]
      by_cases hmax : kMaxResponseSize < (resp ++ got).length
      · rw [if_pos hmax]
        refine iff_of_false (by simp) fun hle => ?_
        simp only [List.length_append] at hmax hle
        omega
      · rw [if_neg hmax, ih (Nat.le_of_not_lt hmax), List.append_assoc]
        simp [ReadTurn.GoesOn]
    | again =>
      rw [readResponse, ih h]
      simp [ReadTurn.GoesOn, ReadTurn.bytes]
    | closed => simp [readResponse, ReadTurn.GoesOn]
    | failed err => simp [readResponse, ReadTurn.GoesOn]

theorem readResponse_ok {resp r : Bytes} {turns : List ReadTurn}
    (h : readResponse resp turns = some (.ok r)) :
    ∃ m, r = resp ++ (turns.take m).flatMap ReadTurn.bytes := by
  induction turns generalizing resp with
  | nil => cases h
  | cons t turns ih =>
    cases t with
    | data got =>
      rw [readResponse] at h
      split_ifs at h
      · obtain rfl : resp ++ got = r := by simpa using h
        exact ⟨1, by simp [ReadTurn.bytes]⟩
      · obtain ⟨m, rfl⟩ := ih h
        exact ⟨m + 1, by simp [ReadTurn.bytes]⟩
    | again =>
      obtain ⟨m, rfl⟩ := ih h
      exact ⟨m + 1, by simp [ReadTurn.bytes]⟩
    | closed =>
      obtain rfl : resp = r := by simpa [readResponse] using h
      exact ⟨0, by simp⟩
    | failed err => simp [readResponse] at h

/-- Only the last turn may go over the limit. -/
theorem readResponse_length_le {resp r : Bytes} {turns : List ReadTurn} {n : Nat}
    (h : readResponse resp turns = some (.ok r)) (hresp : resp.length ≤ kMaxResponseSize)
    (hn : ∀ t ∈ turns, t.bytes.length ≤ n) : r.length ≤ kMaxResponseSize + n := by
  induction turns generalizing resp with
  | nil => cases h
  | cons t turns ih =>
    obtain ⟨ht, hrest⟩ := List.forall_mem_cons.mp hn
    cases t with
    | data got =>
      rw [readResponse] at h
      split_ifs at h with hmax
      · obtain rfl : resp ++ got = r := by simpa using h
        rw [ReadTurn.bytes] at ht
        rw [List.length_append]
        omega
      · exact ih h (Nat.le_of_not_lt hmax) hrest
    | again => exact ih h hresp hrest
    | closed =>
      obtain rfl : resp = r := by simpa [readResponse] using h
      omega
    | failed err => simp [readResponse] at h

end ByeByeVpn
