import ByeByeVpn.Analysis.SniConsistency
import ByeByeVpn.Core.Encoders
import ByeByeVpn.Network.CertSubject
import ByeByeVpn.Network.HttpSession
import ByeByeVpn.Network.TlsHandshake

/-!
# The TLS probe (`network/tls_probe.cpp`)

`tls_probe` shakes hands with a port, whoever answers, and writes down what
the certificate says. The setup of a connection that is not verified is shared
with `https_probe`.
-/

namespace ByeByeVpn

open TlsClient Session

-- ---------------------------------------------------------------------------
-- The connection
-- ---------------------------------------------------------------------------

structure TlsSetup where
  opensslInit : Option Bytes
  /-- What `getaddrinfo` finds. -/
  addresses : Option (List Candidate)
  ctxNew : Bool
  sslNew : Bool
  attach : Option Bytes

/-- `body` on a connection that is attached to a socket, or the result of an
error on the way there. -/
def TlsSetup.withConnection (net : TlsSetup) (toMs : Int) (fail : Bytes → ρ)
    (start : Session Call Unit) (body : Session Call ρ) : Session Call ρ :=
  match net.opensslInit with
  | some err => return fail (ascii "openssl_init " ++ err)
  | none =>
    let c := tcpConnect net.addresses toMs []
    if c.socket = INVALID_SOCKET then return fail c.err
    else within .connect .close do
      start
      if !net.ctxNew then return fail (ascii "ssl_ctx_new")
      else within .newContext .freeContext do
        call (.setVerify false)
        if !net.sslNew then return fail (ascii "ssl_new")
        else within .newConnection .freeConnection do
          match net.attach with
          | some err => return fail (ascii "ssl_set_fd " ++ err)
          | none => do
            call .attach
            body

/-- A client that does not verify, with this connection. -/
def probing (said : Bytes) (blocking : Bool) (k : Connection) : Client where
  socket := some blocking
  context := some {}
  connection := some k
  said := some said

theorem tcpConnect_err_ne_nil {addresses : Option (List Candidate)} {toMs : Int}
    (h : (tcpConnect addresses toMs []).socket = INVALID_SOCKET) :
    (tcpConnect addresses toMs []).err ≠ [] := by
  cases addresses with
  | none => exact (by decide : ascii "dns" ≠ [])
  | some ai =>
    have hnone : ∀ c ∈ tried ai, ¬c.Connects := fun c hc hconnects =>
      (tcpConnect_valid_iff ai toMs []).mpr ⟨c, (mem_tried.mp hc).1, (mem_tried.mp hc).2, hconnects⟩
        h
    have hfailed := tcpConnect_failed toMs [] hnone
    by_cases hrefused : ∃ c ∈ tried ai, c.IsRefused
    · rw [hfailed.refused hrefused]
      decide
    by_cases htimeout : ∃ c ∈ tried ai, c.TimesOut
    · rw [hfailed.timeout hrefused htimeout]
      decide
    · rw [hfailed.other hrefused htimeout]
      decide

theorem ascii_append_ne_nil {text : String} (h : ascii text ≠ []) (rest : Bytes) :
    ascii text ++ rest ≠ [] := fun hnil => h (List.append_eq_nil_iff.mp hnil).1

theorem withConnection_leads {p : Policy} (net : TlsSetup) (toMs : Int) {fail : Bytes → ρ}
    {start : Session Call Unit} {body : Session Call ρ} {post : ρ → Option Bytes → Prop}
    (hfail : ∀ err ≠ [], ∀ said, post (fail err) said)
    (hstart : Leads (step p) (opened []) start fun _ d => d = opened [])
    (hbody : Leads (step p) (probing [] true { attached := true }) body fun x d =>
      ∃ said blocking k, d = probing said blocking k ∧ post x (some said)) :
    Leads (step p) {} (net.withConnection toMs fail start body) fun x d =>
      d = { said := d.said } ∧ post x d.said := by
  unfold TlsSetup.withConnection
  cases net.opensslInit with
  | some err => exact .pure ⟨rfl, hfail _ (ascii_append_ne_nil (by decide) _) _⟩
  | none =>
    refine .ite (fun h => .pure ⟨rfl, hfail _ (tcpConnect_err_ne_nil h) _⟩) fun _ => ?_
    refine .within (t := opened []) rfl (hstart.bind ?_)
    rintro _ _ rfl
    refine .ite (fun _ => .pure ⟨_, rfl, rfl, hfail _ (by decide) _⟩) fun _ => ?_
    refine .within (t := { opened [] with context := some {} }) rfl ?_
    refine .seq (t := { opened [] with context := some {} }) rfl ?_
    refine .ite (fun _ => .pure ⟨_, rfl, _, rfl, rfl, hfail _ (by decide) _⟩) fun _ => ?_
    refine .within (t := probing [] true {}) rfl ?_
    cases net.attach with
    | some err =>
      exact .pure ⟨_, rfl, _, rfl, _, rfl, rfl, hfail _ (ascii_append_ne_nil (by decide) _) _⟩
    | none =>
      refine .seq (t := probing [] true { attached := true }) rfl (hbody.mono ?_)
      rintro x _ ⟨said, blocking, k, rfl, hx⟩
      exact ⟨_, rfl, _, rfl, _, rfl, rfl, hx⟩

-- ---------------------------------------------------------------------------
-- The certificate
-- ---------------------------------------------------------------------------

inductive GeneralName
  /-- `GEN_DNS`, with what `ASN1_STRING_to_UTF8` makes of the name. -/
  | dns (utf8 : Option Bytes)
  | other

structure PeerCertificate where
  /-- What `x509_name_one` returns for the subject, and then for the issuer. -/
  subject : Bytes
  issuer : Bytes
  digest : Bytes
  /-- In seconds; nothing if the field is missing or cannot be read. -/
  notBefore : Option Int
  notAfter : Option Int
  now : Int
  altNames : Option (List GeneralName)

structure TlsReport extends TlsProbeCert where
  certIssuer : Bytes := []
  issuerCn : Bytes := []
  daysLeft : Int := 0
  totalValidityDays : Int := 0
  isLetsencrypt : Bool := false
  isWildcard : Bool := false
  sanCount : Nat := 0
  hasCertificate : Bool := false

namespace TlsReport

variable (r : TlsReport)

def expiringSoon : Bool := r.hasCertificate && 0 ≤ r.daysLeft && r.daysLeft < 7
def expired : Bool := r.daysLeft < 0
def shortValidity : Bool := 0 < r.totalValidityDays && r.totalValidityDays ≤ 90

end TlsReport

def acmeIssuers : List Bytes :=
  ["Let's Encrypt", "R3", "R10", "R11", "E5", "E6", "ZeroSSL", "Buypass",
    "Google Trust Services"].map ascii

def isAcmeIssuer (issuer : Bytes) : Bool := acmeIssuers.any (contains issuer)

/-- What is documented of `ASN1_TIME_diff`, a function of the library that gives
the way from one time to another in days and seconds: less than a day is left
over, with the sign of the days. -/
structure IsTimeDiff (timeDiff : Int → Int → Int × Int) : Prop where
  total : ∀ a b, 86400 * (timeDiff a b).1 + (timeDiff a b).2 = b - a
  rest : ∀ a b, -86400 < (timeDiff a b).2 ∧ (timeDiff a b).2 < 86400
  sign : ∀ a b, 0 ≤ (timeDiff a b).1 ∧ 0 ≤ (timeDiff a b).2 ∨
    (timeDiff a b).1 ≤ 0 ∧ (timeDiff a b).2 ≤ 0

def asn1TimeDiffDaysNow (timeDiff : Int → Int → Int × Int) (now : Int) (time : Option Int)
    (fromTToNow : Bool) : Int :=
  (time.map fun t => (if fromTToNow then timeDiff t now else timeDiff now t).1).getD 0

def GeneralName.dnsName : GeneralName → Option Bytes
  | .dns (some name) => if name.isEmpty then none else some name
  | _ => none

def wildcardMark : Bytes := ascii "*."

def PeerCertificate.report (timeDiff : Int → Int → Int × Int) (cert : PeerCertificate)
    (r : TlsReport) : TlsReport :=
  let san := (cert.altNames.getD []).filterMap GeneralName.dnsName
  let subjectCn := extractCnFromSubject cert.subject
  let sanWildcard := san.any fun name => startsWith name wildcardMark
  { r with
    hasCertificate := true
    certSubject := cert.subject
    certIssuer := cert.issuer
    subjectCn
    issuerCn := extractCnFromSubject cert.issuer
    selfSigned := !cert.subject.isEmpty && cert.subject == cert.issuer
    isLetsencrypt := isAcmeIssuer cert.issuer
    certSha256 := hexS false cert.digest
    ageDays := asn1TimeDiffDaysNow timeDiff cert.now cert.notBefore true
    daysLeft := asn1TimeDiffDaysNow timeDiff cert.now cert.notAfter false
    totalValidityDays :=
      match cert.notBefore, cert.notAfter with
      | some nb, some na => (timeDiff nb na).1
      | _, _ => 0
    san
    sanCount := san.length
    isWildcard :=
      sanWildcard || !sanWildcard && 2 < subjectCn.length && startsWith subjectCn wildcardMark }

-- ---------------------------------------------------------------------------
-- The probe
-- ---------------------------------------------------------------------------

structure TlsProbeNet extends TlsSetup where
  turns : List HandshakeTurn
  failure : SslFailure
  version : Bytes
  cipher : Bytes
  alpn : Bytes
  group : Option Bytes
  certificate : Option PeerCertificate
  timeDiff : Int → Int → Int × Int
  ms : Int

def offerSni (sni : Bytes) : Session Call Unit :=
  if sni.isEmpty then return () else call (.setSni (cStr sni))

def offerAlpn (wire : Bytes) : Session Call Unit :=
  if wire.isEmpty then return () else call (.setAlpn wire)

namespace TlsProbeNet

variable (net : TlsProbeNet)

def established : TlsReport :=
  let r : TlsReport :=
    { ok := true
      version := net.version
      cipher := net.cipher
      alpn := net.alpn
      group := net.group.getD []
      handshakeMs := net.ms }
  match net.certificate with
  | some cert => cert.report net.timeDiff r
  | none => r

def handshakeError : Bytes :=
  (if net.failure.queued.isEmpty then ascii "tls handshake failed" else net.failure.queued) ++
    ascii " (ssl_err=" ++ decimal net.failure.sslErr ++ ascii ")"

def finishHandshake : HandshakeEnd → Session Call TlsReport
  | .established => do
    call .shutdown
    return net.established
  | .timedOut => return { err := ascii "timeout during tls handshake" }
  | .selectFailed text => return { err := ascii "select error: " ++ text }
  | .failed => return { err := net.handshakeError }

end TlsProbeNet

def tlsProbe (net : TlsProbeNet) (sni alpn : Bytes) (toMs : Int) : Session Call TlsReport :=
  net.withConnection toMs (fun err => { err }) (return ()) do
    offerSni sni
    offerAlpn (alpnWire alpn)
    call (.setNonblocking true)
    let handshakeEnd ← handshakeLoop (toMs * 1000000) net.turns
    call (.setNonblocking false)
    net.finishHandshake handshakeEnd

-- ---------------------------------------------------------------------------
-- What the certificate comes to
-- ---------------------------------------------------------------------------

theorem GeneralName.dnsName_eq_some {g : GeneralName} {name : Bytes} :
    g.dnsName = some name ↔ name ≠ [] ∧ g = .dns (some name) := by
  cases g with
  | other => simp [dnsName]
  | dns utf8 =>
    cases utf8 with
    | none => simp [dnsName]
    | some text =>
      cases text with
      | nil => simp [dnsName]
      | cons c text => simp [dnsName]; grind

def PeerCertificate.dnsNames (cert : PeerCertificate) : List Bytes :=
  (cert.altNames.getD []).filterMap fun
    | .dns utf8 => utf8
    | .other => none

section
variable {timeDiff : Int → Int → Int × Int} {cert : PeerCertificate} {r : TlsReport}

theorem mem_report_san {name : Bytes} :
    name ∈ (cert.report timeDiff r).san ↔ name ≠ [] ∧ name ∈ cert.dnsNames := by
  change name ∈ (cert.altNames.getD []).filterMap GeneralName.dnsName ↔ _
  simp only [PeerCertificate.dnsNames, List.mem_filterMap, GeneralName.dnsName_eq_some]
  constructor
  · rintro ⟨_, hmem, hne, rfl⟩
    exact ⟨hne, _, hmem, rfl⟩
  · rintro ⟨hne, g, hmem, hg⟩
    cases g with
    | other => cases hg
    | dns utf8 => exact ⟨_, hmem, hne, by rw [← hg]⟩

theorem report_isWildcard : (cert.report timeDiff r).isWildcard = true ↔
    (∃ name ∈ (cert.report timeDiff r).san, ascii "*." <+: name) ∨
      2 < (cert.report timeDiff r).subjectCn.length ∧
        ascii "*." <+: (cert.report timeDiff r).subjectCn := by
  have habsorb (a b c : Bool) : (a || !a && b && c) = (a || b && c) := by cases a <;> rfl
  simp only [PeerCertificate.report, habsorb, wildcardMark, Bool.or_eq_true, Bool.and_eq_true,
    List.any_eq_true, startsWith_iff, decide_eq_true_iff]

end

namespace IsTimeDiff

variable {timeDiff : Int → Int → Int × Int} (h : IsTimeDiff timeDiff) {a b c : Int}

include h

theorem neg_iff : (timeDiff a b).1 < 0 ↔ b + 86400 ≤ a := by
  have := h.total a b
  have := h.rest a b
  have := h.sign a b
  omega

theorem soon_iff :
    0 ≤ (timeDiff a b).1 ∧ (timeDiff a b).1 < 7 ↔ a < b + 86400 ∧ b < a + 7 * 86400 := by
  have := h.total a b
  have := h.rest a b
  have := h.sign a b
  omega

theorem short_iff :
    0 < (timeDiff a b).1 ∧ (timeDiff a b).1 ≤ 90 ↔ a + 86400 ≤ b ∧ b < a + 91 * 86400 := by
  have := h.total a b
  have := h.rest a b
  have := h.sign a b
  omega

theorem parts (hab : a ≤ b) (hbc : b ≤ c) :
    (timeDiff a b).1 + (timeDiff b c).1 ≤ (timeDiff a c).1 ∧
      (timeDiff a c).1 ≤ (timeDiff a b).1 + (timeDiff b c).1 + 1 := by
  have := h.total a b
  have := h.rest a b
  have := h.sign a b
  have := h.total b c
  have := h.rest b c
  have := h.sign b c
  have := h.total a c
  have := h.rest a c
  have := h.sign a c
  omega

end IsTimeDiff

/-- All names one label below the domain are covered. -/
def CoversBelow (domain subjectCn : Bytes) (san : List Bytes) : Prop :=
  ∀ label ≠ [], chr '.' ∉ label → DnsName.Covers (label ++ chr '.' :: domain) subjectCn san

/-- Only a wildcard covers all names below a domain: other patterns are too
short for some of them. -/
theorem coversBelow_iff {domain cn : Bytes} {san : List Bytes} :
    CoversBelow domain cn san ↔
      ∃ suffix, DnsName.Same domain suffix ∧ ascii "*." ++ suffix ∈ cn :: san := by
  constructor
  · intro h
    obtain ⟨bound, hbound⟩ : ∃ bound, ∀ pat ∈ cn :: san, pat.length ≤ bound :=
      ⟨((cn :: san).map List.length).sum, fun pat hpat =>
        List.single_le_sum (fun _ _ => Nat.zero_le _) _ (List.mem_map_of_mem hpat)⟩
    have hlabel : chr '.' ∉ List.replicate (bound + 1) (chr 'x') := fun hdot =>
      absurd (List.eq_of_mem_replicate hdot) (by decide)
    obtain ⟨pat, hpat, hmatch⟩ := h (List.replicate (bound + 1) (chr 'x')) (by simp) hlabel
    generalize hname : List.replicate (bound + 1) (chr 'x') ++ chr '.' :: domain = name at hmatch
    cases hmatch with
    | same _ hsame =>
      have hlen := hbound pat hpat
      rw [← hsame.length_eq, ← hname, List.length_append, List.length_replicate] at hlen
      omega
    | wildcard _ hdot hsame =>
      obtain ⟨-, rfl⟩ := split_unique hlabel hdot hname
      exact ⟨_, hsame, hpat⟩
  · rintro ⟨suffix, hsame, hmem⟩ label hne hdot
    exact ⟨_, hmem, .wildcard hne hdot hsame⟩

/-- The flag is set if a domain has all its names covered. A common name that
is only the mark does not count, an alternative name does. -/
theorem report_isWildcard_iff {timeDiff : Int → Int → Int × Int} {cert : PeerCertificate}
    {r : TlsReport} : (cert.report timeDiff r).isWildcard = true ↔
      (∃ domain ≠ [], CoversBelow domain (extractCnFromSubject cert.subject) cert.dnsNames) ∨
        ascii "*." ∈ cert.dnsNames := by
  have hmark : ascii "*." ≠ [] := by decide
  rw [report_isWildcard]
  constructor
  · rintro (⟨name, hname, suffix, rfl⟩ | ⟨hlen, suffix, hcn⟩)
    · have hmem := (mem_report_san.mp hname).2
      cases suffix with
      | nil => exact .inr (by simpa using hmem)
      | cons c suffix =>
        refine .inl ⟨c :: suffix, by simp, coversBelow_iff.mpr ⟨_, rfl, ?_⟩⟩
        exact List.mem_cons_of_mem _ hmem
    · change ascii "*." ++ suffix = extractCnFromSubject cert.subject at hcn
      change 2 < (extractCnFromSubject cert.subject).length at hlen
      refine .inl ⟨suffix, ?_, coversBelow_iff.mpr ⟨_, rfl, hcn ▸ List.mem_cons_self⟩⟩
      rintro rfl
      rw [← hcn] at hlen
      exact absurd hlen (by decide)
  · rintro (⟨domain, hne, hcovers⟩ | hbare)
    · obtain ⟨suffix, hsame, hmem⟩ := coversBelow_iff.mp hcovers
      rcases List.mem_cons.mp hmem with hcn | hname
      · refine .inr ⟨?_, suffix, hcn⟩
        change 2 < (extractCnFromSubject cert.subject).length
        have hpos := List.length_pos_of_ne_nil hne
        rw [← hcn, List.length_append, ← hsame.length_eq]
        exact Nat.lt_add_of_pos_right hpos
      · refine .inl ⟨_, mem_report_san.mpr ⟨?_, hname⟩, List.prefix_append _ _⟩
        exact List.append_ne_nil_of_left_ne_nil hmark _
    · exact .inl ⟨_, mem_report_san.mpr ⟨hmark, hbare⟩, List.prefix_rfl⟩

theorem report_certSha256_iff (cert cert' : PeerCertificate) (r r' : TlsReport)
    {timeDiff : Int → Int → Int × Int} :
    (cert.report timeDiff r).certSha256 = (cert'.report timeDiff r').certSha256 ↔
      cert.digest = cert'.digest := by
  change hexS false cert.digest = hexS false cert'.digest ↔ _
  refine ⟨fun h => ?_, fun h => by rw [h]⟩
  have hread := congrArg (fun t => HexText.read (t.filter (· != chr ' '))) h
  rwa [read_hexS, read_hexS, Option.some_inj] at hread

section
variable {timeDiff : Int → Int → Int × Int} {cert : PeerCertificate} {r : TlsReport}

theorem report_expired_iff (hdiff : IsTimeDiff timeDiff) :
    (cert.report timeDiff r).expired = true ↔
      ∃ na, cert.notAfter = some na ∧ na + 86400 ≤ cert.now := by
  change decide ((cert.notAfter.map fun na => (timeDiff cert.now na).1).getD 0 < 0) = true ↔ _
  rw [decide_eq_true_iff]
  cases cert.notAfter with
  | none => simp
  | some na => simp [hdiff.neg_iff]

theorem report_expiringSoon_iff (hdiff : IsTimeDiff timeDiff) :
    (cert.report timeDiff r).expiringSoon = true ↔
      ∀ na ∈ cert.notAfter, cert.now < na + 86400 ∧ na < cert.now + 7 * 86400 := by
  change (true && decide (0 ≤ (cert.notAfter.map fun na => (timeDiff cert.now na).1).getD 0) &&
    decide ((cert.notAfter.map fun na => (timeDiff cert.now na).1).getD 0 < 7)) = true ↔ _
  rw [Bool.true_and, Bool.and_eq_true, decide_eq_true_iff, decide_eq_true_iff]
  cases cert.notAfter with
  | none => simp
  | some na => simp [hdiff.soon_iff]

theorem report_shortValidity_iff (hdiff : IsTimeDiff timeDiff) :
    (cert.report timeDiff r).shortValidity = true ↔
      ∃ nb na, cert.notBefore = some nb ∧ cert.notAfter = some na ∧
        nb + 86400 ≤ na ∧ na < nb + 91 * 86400 := by
  cases cert with
  | mk _ _ _ notBefore notAfter _ _ =>
    cases notBefore <;> cases notAfter <;>
      simp [TlsReport.shortValidity, PeerCertificate.report, hdiff.short_iff]

end

/-- The report says what the certificate says, but for its end: a certificate
is taken for expired a whole day late, and until then, as one without an end
that can be read, for one that expires soon. A validity is short up to the end
of its ninetieth day, and the days before and after now are at most one less
than its days. -/
theorem certificate_report {timeDiff : Int → Int → Int × Int} (hdiff : IsTimeDiff timeDiff)
    (cert cert' : PeerCertificate) (r r' : TlsReport) :
    ((cert.report timeDiff r).certSha256 = (cert'.report timeDiff r').certSha256 ↔
      cert.digest = cert'.digest) ∧
    ((cert.report timeDiff r).isWildcard = true ↔
      (∃ domain ≠ [], CoversBelow domain (extractCnFromSubject cert.subject) cert.dnsNames) ∨
        ascii "*." ∈ cert.dnsNames) ∧
    ((cert.report timeDiff r).expired = true ↔
      ∃ na, cert.notAfter = some na ∧ na + 86400 ≤ cert.now) ∧
    ((cert.report timeDiff r).expiringSoon = true ↔
      ∀ na ∈ cert.notAfter, cert.now < na + 86400 ∧ na < cert.now + 7 * 86400) ∧
    ((cert.report timeDiff r).shortValidity = true ↔
      ∃ nb na, cert.notBefore = some nb ∧ cert.notAfter = some na ∧
        nb + 86400 ≤ na ∧ na < nb + 91 * 86400) ∧
    ∀ nb ∈ cert.notBefore, ∀ na ∈ cert.notAfter, nb ≤ cert.now → cert.now ≤ na →
      (cert.report timeDiff r).ageDays + (cert.report timeDiff r).daysLeft ≤
        (cert.report timeDiff r).totalValidityDays ∧
      (cert.report timeDiff r).totalValidityDays ≤
        (cert.report timeDiff r).ageDays + (cert.report timeDiff r).daysLeft + 1 := by
  refine ⟨report_certSha256_iff .., report_isWildcard_iff, report_expired_iff hdiff,
    report_expiringSoon_iff hdiff, report_shortValidity_iff hdiff,
    fun nb hnb na hna hbegun hlasts => ?_⟩
  cases cert with
  | mk _ _ _ notBefore notAfter _ _ =>
    obtain rfl := Option.mem_def.mp hnb
    obtain rfl := Option.mem_def.mp hna
    exact hdiff.parts hbegun hlasts

def truncatedDiff (a b : Int) : Int × Int :=
  if a ≤ b then ((b - a) / 86400, (b - a) % 86400)
  else (-((a - b) / 86400), -((a - b) % 86400))

theorem isTimeDiff_truncatedDiff : IsTimeDiff truncatedDiff where
  total a b := by
    unfold truncatedDiff
    split_ifs <;> omega
  rest a b := by
    unfold truncatedDiff
    split_ifs <;> omega
  sign a b := by
    unfold truncatedDiff
    split_ifs <;> omega

def endedCertificate : PeerCertificate where
  subject := ascii "/CN=example.org"
  issuer := ascii "/CN=authority"
  digest := [0x5a]
  notBefore := some 0
  notAfter := some (90 * 86400)
  now := 90 * 86400 + 3600
  altNames := some [.dns (some (ascii "example.org")), .other, .dns (some (ascii "*.example.org"))]

theorem certificate_report_ended :
    IsTimeDiff truncatedDiff ∧
    (endedCertificate.report truncatedDiff {}).isWildcard = true ∧
    (endedCertificate.report truncatedDiff {}).expired = false ∧
    (endedCertificate.report truncatedDiff {}).expiringSoon = true ∧
    (endedCertificate.report truncatedDiff {}).shortValidity = true := by
  obtain ⟨-, hwildcard, hexpired, hsoon, hshort, -⟩ :=
    certificate_report isTimeDiff_truncatedDiff endedCertificate endedCertificate {} {}
  refine ⟨isTimeDiff_truncatedDiff, hwildcard.mpr (.inl ⟨ascii "example.org", by decide, ?_⟩),
    ?_, hsoon.mpr ?_, hshort.mpr ?_⟩
  · exact coversBelow_iff.mpr ⟨ascii "example.org", rfl, by decide⟩
  · rw [Bool.eq_false_iff, ne_eq, hexpired]
    rintro ⟨na, hna, hlate⟩
    obtain rfl := Option.some.inj hna
    exact absurd hlate (by decide)
  · rintro na hna
    obtain rfl := Option.some.inj hna
    decide
  · exact ⟨_, _, rfl, rfl, by decide⟩

-- ---------------------------------------------------------------------------
-- The protocol
-- ---------------------------------------------------------------------------

def silent : Policy := ⟨[], false, fun _ => false⟩

theorem handshakeLoop_leads {p : Policy} (deadline : Int) (turns : List HandshakeTurn) :
    Leads (step p) (probing [] false { attached := true }) (handshakeLoop deadline turns)
      fun e d => ∃ k, d = probing [] false k ∧ (e = .established → k.established = true) := by
  induction turns with
  | nil => exact ⟨_, rfl, fun e he => by cases he⟩
  | cons t turns ih =>
    rw [handshakeLoop]
    have hstep : step p (probing [] false { attached := true }) (.handshake t.rc) =
        some (probing [] false { attached := true, established := t.rc == 1 }) := rfl
    refine .seq hstep (.ite (fun hrc => .pure ⟨_, rfl, fun _ => ?_⟩) fun hrc => ?_)
    · exact beq_iff_eq.mpr hrc
    have hopen : probing [] false { attached := true, established := t.rc == 1 } =
        probing [] false { attached := true } := by
      rw [beq_eq_false_iff_ne.mpr hrc]
    rw [hopen]
    have hend (e : HandshakeEnd) (he : e ≠ .established) :
        Leads (step p) (probing [] false { attached := true })
          (Pure.pure e : Session Call HandshakeEnd)
          fun e d => ∃ k, d = probing [] false k ∧ (e = .established → k.established = true) :=
      .pure ⟨_, rfl, fun h => absurd h he⟩
    have htimedOut := hend .timedOut (by simp)
    have hselect := hend (.selectFailed t.strerror) (by simp)
    have hfailed := hend .failed (by simp)
    refine .ite (fun _ => .ite (fun _ => htimedOut) fun _ => .seq rfl ?_) fun _ => hfailed
    exact .ite (fun _ => htimedOut) fun _ => .ite (fun _ => hselect) fun _ => ih

theorem offerSni_leads {p : Policy} {b : Bool} (sni : Bytes) :
    Leads (step p) (probing [] b { attached := true }) (offerSni sni)
      fun _ d => d = probing [] b { attached := true } :=
  .ite (fun _ => .pure rfl) fun _ => .call rfl rfl

theorem offerAlpn_leads {p : Policy} {b : Bool} (wire : Bytes) :
    Leads (step p) (probing [] b { attached := true }) (offerAlpn wire)
      fun _ d => d = probing [] b { attached := true } :=
  .ite (fun _ => .pure rfl) fun _ => .call rfl rfl

namespace TlsProbeNet

/-- What the probe says about a handshake: nothing but the error, or what the
library says about the connection. -/
structure Told (net : TlsProbeNet) (deadline : Int) (r : TlsReport) : Prop where
  ok_iff : r.ok = true ↔ r.err = []
  failed : r.ok = false → r = { err := r.err }
  established : r.ok = true → r = net.established ∧ ∃ before t after,
    net.turns = before ++ t :: after ∧ (∀ b ∈ before, b.GoesOn deadline) ∧ t.rc = 1

variable {net : TlsProbeNet} {deadline : Int}

theorem told_of_err {err : Bytes} (h : err ≠ []) : net.Told deadline { err } :=
  ⟨iff_of_false Bool.false_ne_true h, fun _ => rfl, fun hok => absurd hok Bool.false_ne_true⟩

theorem established_ok (net : TlsProbeNet) :
    net.established.ok = true ∧ net.established.err = [] := by
  unfold established
  cases net.certificate <;> exact ⟨rfl, rfl⟩

theorem finishHandshake_leads {p : Policy} {e : HandshakeEnd} {k : Connection}
    (hk : e = .established → k.established = true)
    (he : (handshakeLoop deadline net.turns).result = some e) :
    Leads (step p) (probing [] true k) (net.finishHandshake e) fun r d =>
      ∃ said b k, d = probing said b k ∧ net.Told deadline r := by
  have hfail (err : Bytes) (h : err ≠ []) : Leads (step p) (probing [] true k)
      (Pure.pure { err } : Session Call TlsReport) fun r d =>
        ∃ said b k, d = probing said b k ∧ net.Told deadline r :=
    .pure ⟨_, _, _, rfl, told_of_err h⟩
  cases e with
  | established =>
    obtain ⟨before, t, after, hsplit, hbefore, hends⟩ := handshakeLoop_some he
    have hshutdown : step p (probing [] true k) .shutdown = some (probing [] true k) := by
      simp [step, probing, Client.onConnection, hk rfl]
    obtain ⟨hok, herr⟩ := established_ok net
    refine .seq hshutdown (.pure ⟨_, _, _, rfl, ?_⟩)
    refine ⟨iff_of_true hok herr, fun h => absurd (hok.symm.trans h) (by decide), fun _ => ?_⟩
    cases hends with
    | established hrc => exact ⟨rfl, before, t, after, hsplit, hbefore, hrc⟩
  | timedOut => exact hfail _ (by decide)
  | selectFailed text => exact hfail _ (ascii_append_ne_nil (by decide) _)
  | failed => exact hfail _ (List.append_ne_nil_of_right_ne_nil _ (by decide))

end TlsProbeNet

end ByeByeVpn
