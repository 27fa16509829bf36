import ByeByeVpn.Analysis.BrandCert
import ByeByeVpn.Analysis.Verdict

/-!
# The full check of a target (`cli/orchestrator.cpp`)

`run_full_target` collects the results of all probes in a report, scores
them, and classifies the target by a list of rules. The probes are
parameters; those of a port also get its position among the open ports.
-/

namespace ByeByeVpn

structure UdpPlan where
  port : Int
  useAwg : Bool

def kUdpPlans : List UdpPlan := [⟨51820, false⟩, ⟨41641, false⟩, ⟨55555, true⟩]

def kTlsPorts : List Int :=
  [443, 4433, 4443, 8443, 9443, 10443, 14443, 20443, 21443, 22443, 50443, 51443, 55443, 2083, 2087,
    2096, 6443, 7443, 2053, 8843, 44443, 46443]

def kHttpPorts : List Int := [80, 81, 8080, 8081, 8088, 8888, 3128, 8000]

def kSocksPorts : List Int := [1080, 1081, 1082, 9050, 10808, 10809, 10810, 7890]

def isTlsPort (port : Int) : Bool := kTlsPorts.contains port

def hasToken (value : Bytes) (needles : List Bytes) : Bool :=
  needles.any (contains (tolowerS value))

def kCdnAsnNeedles : List Bytes :=
  ["cloudflare", "akamai", "fastly", "amazon", "aws", "google", "gcp", "microsoft", "azure",
    "edgecast", "edgio", "cdn77", "cachefly", "ddos-guard", "verizon media", "limelight",
    "stackpath", "bunny", "cloudfront", "netflix"].map ascii

def isKnownCdnAsn (asnOrg : Bytes) : Bool := hasToken asnOrg kCdnAsnNeedles

def kServerNeedles : List Bytes :=
  ["envoy", "cloudflare", "cloudfront", "akamai", "fastly", "varnish", "gws", "awselb", "elb",
    "edge"].map ascii

def looksLikeCdnLb (pf : PortFp) (asnOrgs : List Bytes) : Bool :=
  if asnOrgs.any isKnownCdnAsn then true
  else
    match pf.https with
    | some https => hasToken https.serverHdr kServerNeedles || https.hasCdnHdr
    | none => false

/-- What the network answers, and the options that decide what is asked. -/
structure Probes where
  noGeoip : Bool := false
  noCt : Bool := false
  resolveHost : Bytes → Resolved
  /-- The provider of this number; an exception may carry a text. -/
  geo : Nat → Bytes → Except (Option Bytes) GeoInfo
  buildTcpPorts : List Int
  scanTcp : Bytes → List Int → List TcpOpen × ScanStats
  wireguardProbe : Bytes → Int → UdpResult
  amneziawgProbe : Bytes → Int → UdpResult
  fpSsh : Nat → Bytes → Bytes → Int → FpResult
  tlsProbe : Nat → Bytes → Int → Bytes → TlsProbe
  sniConsistency : Nat → Bytes → Int → Bytes → SniConsistency
  httpGet : Nat → Bytes → Int → HttpResp
  httpsProbe : Nat → Bytes → Int → Bytes → HttpsProbe
  fpHttpPlain : Nat → Bytes → Int → FpResult
  fpHttpConnect : Nat → Bytes → Int → FpResult
  fpSocks5 : Nat → Bytes → Int → FpResult
  j3Probes : Nat → Bytes → Int → List J3Result

-- ---------------------------------------------------------------------------
-- The evidence
-- ---------------------------------------------------------------------------

def safeGetGeo (f : Except (Option Bytes) GeoInfo) (source : Bytes) : GeoInfo :=
  match f with
  | .ok g => g
  | .error (some what) => { source, err := what }
  | .error none => { source, err := ascii "unknown exception" }

def geoSources : List Bytes :=
  ["ipapi.is", "iplocate.io", "freeipapi.com", "2ip.ru", "sypexgeo.net", "ipwho.is",
    "ipinfo.io"].map ascii

def fingerprintTls (p : Probes) (dns : Resolved) (i : Nat) (pf : PortFp) : PortFp :=
  let tp := p.tlsProbe i dns.primaryIp pf.port dns.host
  let pf := { pf with tls := some tp }
  if tp.ok then
    let details := tp.version ++ ascii " / " ++ tp.cipher ++ ascii " / ALPN=" ++
      (if tp.alpn.isEmpty then ascii "-" else tp.alpn) ++ ascii " / " ++ tp.group ++ ascii " / " ++
      decimal tp.handshakeMs ++ ascii "ms"
    let sc := p.sniConsistency i dns.primaryIp pf.port dns.host
    let ct :=
      if !p.noCt && !sc.baseSha.isEmpty then some (ctCheck (p.httpGet i) sc.baseSha true) else pf.ct
    { pf with
      fp := { service := ascii "TLS", details }
      sni := some sc
      ct
      https := some (p.httpsProbe i dns.primaryIp pf.port dns.host) }
  else { pf with fp := { service := ascii "TLS-FAIL", details := tp.err } }

/-- The fingerprint of an HTTP port, and whether it was printed. -/
def fingerprintHttp (p : Probes) (dns : Resolved) (i : Nat) (pf : PortFp) (printed : Bool) :
    PortFp × Bool :=
  let hp := p.fpHttpPlain i dns.primaryIp pf.port
  let (pf, printed) :=
    if !hp.details.isEmpty || hp.silent then ({ pf with fp := hp }, true) else (pf, printed)
  let proxy := p.fpHttpConnect i dns.primaryIp pf.port
  if proxy.service = ascii "HTTP-PROXY" then ({ pf with fp := proxy }, true) else (pf, printed)

def unknownService (o : TcpOpen) : FpResult where
  service := ascii "unknown"
  details :=
    if o.banner.isEmpty then ascii "open but silent on connect"
    else ascii "banner: " ++ printablePrefix o.banner 70

def fingerprint (p : Probes) (dns : Resolved) (i : Nat) (o : TcpOpen) : PortFp :=
  let pf : PortFp := { port := o.port }
  let (pf, printed) :=
    if startsWith o.banner (ascii "SSH-") || o.port == 22 || o.port == 2222 || o.port == 22222 then
      ({ pf with fp := p.fpSsh i o.banner dns.primaryIp o.port }, true)
    else (pf, false)
  let (pf, printed) :=
    if isTlsPort o.port then (fingerprintTls p dns i pf, true) else (pf, printed)
  let (pf, printed) :=
    if kHttpPorts.contains o.port then fingerprintHttp p dns i pf printed else (pf, printed)
  let (pf, printed) :=
    if kSocksPorts.contains o.port then
      ({ pf with fp := p.fpSocks5 i dns.primaryIp o.port }, true)
    else (pf, printed)
  if printed then pf else { pf with fp := unknownService o }

/-- The junk probes of one fingerprinted port. -/
def probeJunk (p : Probes) (dns : Resolved) (i : Nat) (pf : PortFp) : PortFp :=
  if !isTlsPort pf.port && pf.port != 80 && pf.port != 8080 then pf
  else
    let probes := p.j3Probes i dns.primaryIp pf.port
    { pf with j3 := probes, j3a := some (j3Analyze probes) }

/-- The stages 2 to 6 of `run_full_target`. -/
def gather (p : Probes) (R : FullReport) : FullReport :=
  let ip := R.dns.primaryIp
  let R :=
    if p.noGeoip then R
    else { R with geos := geoSources.mapIdx fun i source => safeGetGeo (p.geo i ip) source }
  let scan := p.scanTcp ip p.buildTcpPorts
  let R := { R with openTcp := scan.1, scanStats := scan.2 }
  let R := { R with
    udpProbes := kUdpPlans.map fun plan : UdpPlan =>
      (plan.port,
        if plan.useAwg then p.amneziawgProbe ip plan.port else p.wireguardProbe ip plan.port) }
  let R := { R with fps := R.openTcp.mapIdx fun i o => fingerprint p R.dns i o }
  { R with fps := R.fps.mapIdx fun i pf => probeJunk p R.dns i pf }

-- ---------------------------------------------------------------------------
-- The score
-- ---------------------------------------------------------------------------

structure ScoreBook where
  score : Int := 100
  strong : List Bytes := []
  soft : List Bytes := []
  notes : List (Bytes × Bytes) := []

namespace ScoreBook

def strongSignal (b : ScoreBook) (text : Bytes) (penalty : Int) : ScoreBook :=
  { b with strong := b.strong ++ [text], score := b.score - penalty }

def softSignal (b : ScoreBook) (text : Bytes) (penalty : Int) : ScoreBook :=
  { b with soft := b.soft ++ [text], score := b.score - penalty }

def note (b : ScoreBook) (tag text : Bytes) : ScoreBook :=
  { b with notes := b.notes ++ [(tag, text)] }

def clamp (b : ScoreBook) : ScoreBook := { b with score := max 0 (min b.score 100) }

end ScoreBook

structure Scoring where
  book : ScoreBook := {}
  anyTls : Bool := false
  anyReality : Bool := false
  anyImpersonation : Bool := false
  anyProxyOpen : Bool := false
  anyJ3Canned : Bool := false
  anyJ3Badver : Bool := false
  anyCtAbsentFresh : Bool := false
  anyCdnLbDetected : Bool := false

def onPort (text : String) (port : Int) : Bytes := ascii text ++ decimal port

namespace Scoring

def strong (s : Scoring) (text : Bytes) (penalty : Int) : Scoring :=
  { s with book := s.book.strongSignal text penalty }

def soft (s : Scoring) (text : Bytes) (penalty : Int) : Scoring :=
  { s with book := s.book.softSignal text penalty }

def note (s : Scoring) (tag : String) (text : Bytes) : Scoring :=
  { s with book := s.book.note (ascii tag) text }

def cdnLb (s : Scoring) (pf : PortFp) : Scoring :=
  { s with anyCdnLbDetected := true }.note "cdn-lb"
    (onPort "CDN/load-balancer traits on :" pf.port ++
      ascii ", suppressing SNI-impersonation penalties")

def service (s : Scoring) (pf : PortFp) : Scoring :=
  if pf.fp.service = ascii "HTTP-PROXY" then
    { s with anyProxyOpen := true }.strong
      (onPort "open HTTP CONNECT proxy exposed on :" pf.port) 15
  else if pf.fp.service = ascii "SOCKS5" then
    { s with anyProxyOpen := true }.strong (onPort "open SOCKS5 proxy exposed on :" pf.port) 15
  else s

def tls (s : Scoring) (pf : PortFp) : Scoring :=
  match pf.tls with
  | none => s
  | some tls =>
    if !tls.ok then s
    else
      let s := { s with anyTls := true }
      let s :=
        if tls.version ≠ ascii "TLSv1.3" then s.soft (onPort "TLS < 1.3 on :" pf.port) 5 else s
      let s :=
        if tls.selfSigned then s.strong (onPort "self-signed certificate on :" pf.port) 8 else s
      if 0 ≤ tls.ageDays ∧ tls.ageDays < 14 then
        s.note "cert-fresh" (onPort "fresh certificate on :" pf.port ++
          ascii " (rotation alone is not a reliable signal)")
      else s

def sni (s : Scoring) (asnOrgs : List Bytes) (cdnLbPort : Bool) (pf : PortFp) : Scoring :=
  match pf.sni with
  | none => s
  | some sni =>
    if !sni.realityLike then s
    else if cdnLbPort then
      s.note "sni-cdn" (onPort "SNI mismatch on :" pf.port ++
        ascii " looks CDN/LB-driven, not VPN-specific")
    else
      let penalty := if sni.passthroughMode then 20 else 16
      let s := { s with anyReality := true }.strong
        (onPort "Reality/XTLS SNI steering on :" pf.port) penalty
      if sni.certImpersonation && !sni.brandClaimed.isEmpty then
        if !asnOwnsBrand sni.brandClaimed asnOrgs then
          { s with anyImpersonation := true }.strong
            (ascii "cert claims brand '" ++ sni.brandClaimed ++ ascii "' on non-owning ASN") 18
        else s
      else s

def https (s : Scoring) (cdnLbPort : Bool) (pf : PortFp) : Scoring :=
  match pf.https with
  | none => s
  | some https =>
    if !https.tlsOk then s
    else
      let s :=
        if https.responded && https.versionAnomaly then
          s.strong (onPort "invalid HTTP version over TLS on :" pf.port) 14
        else if !https.responded then
          s.soft (onPort "TLS handshake succeeded but no HTTP response on :" pf.port) 8
        else if https.serverHdr.isEmpty then
          s.soft (onPort "HTTP response without Server header on :" pf.port) 4
        else s
      if https.hasProxyLeak then
        if cdnLbPort then
          s.note "proxy-hdr" (onPort "forwarding headers on :" pf.port ++
            ascii " are expected for CDN/LB edges")
        else s.strong (onPort "proxy-chain headers leaked by HTTPS origin on :" pf.port) 10
      else s

def ct (s : Scoring) (pf : PortFp) : Scoring :=
  match pf.ct with
  | none => s
  | some ct =>
    if ct.queried && !ct.found && ct.err.isEmpty then
      if pf.tls.any fun tls => tls.ok && (0 ≤ tls.ageDays && tls.ageDays < 30) then
        { s with anyCtAbsentFresh := true }.strong
          (onPort "fresh cert missing from CT logs on :" pf.port) 10
      else s.note "ct-miss" (onPort "certificate not found in CT logs on :" pf.port)
    else s

def j3 (s : Scoring) (pf : PortFp) : Scoring :=
  match pf.j3a with
  | none => s
  | some j3a =>
    let s :=
      if 2 ≤ j3a.cannedIdentical then
        { s with anyJ3Canned := true }.strong
          (onPort "canned fallback page under active probing on :" pf.port) 12
      else s
    let s :=
      if 1 ≤ j3a.httpBadVersion then
        { s with anyJ3Badver := true }.strong
          (onPort "malformed HTTP version under active probing on :" pf.port) 12
      else s
    if 2 ≤ j3a.rawNonHttp ∧ j3a.httpReal = 0 then
      s.soft (onPort "raw non-HTTP replies under active probing on :" pf.port) 6
    else s

/-- The body of the loop over the ports. -/
def port (asnOrgs : List Bytes) (s : Scoring) (pf : PortFp) : Scoring :=
  let cdnLbPort := looksLikeCdnLb pf asnOrgs
  let s := if cdnLbPort then s.cdnLb pf else s
  ((((s.service pf).tls pf).sni asnOrgs cdnLbPort pf).https cdnLbPort pf |>.ct pf).j3 pf

end Scoring

def respondedOn (R : FullReport) (port : Int) : Bool :=
  R.udpProbes.any fun x => x.1 == port && x.2.responded

def asnOrgs (R : FullReport) : List Bytes :=
  (R.geos.map GeoInfo.asnOrg).filter fun org => !org.isEmpty

def wgDefault (R : FullReport) : Bool := respondedOn R 51820

def wgAlt (R : FullReport) : Bool := respondedOn R 41641

def awgDefault (R : FullReport) : Bool := respondedOn R 55555

def scoring (R : FullReport) : Scoring :=
  let s : Scoring := {}
  let s :=
    if wgDefault R then
      s.strong (ascii "WireGuard handshake accepted on UDP/51820 (default signature)") 22
    else s
  let s := if wgAlt R then s.soft (ascii "WireGuard-like handshake accepted on UDP/41641") 4 else s
  let s :=
    if awgDefault R then
      s.strong (ascii "AmneziaWG handshake accepted on UDP/55555 (obfuscated WG profile)") 18
    else s
  let s :=
    if 0 < R.geos.countP GeoInfo.isHosting then
      s.note "asn-hosting" (ascii "hosting/datacenter ASN is normal for public infrastructure")
    else s
  R.fps.foldl (Scoring.port (asnOrgs R)) s

def labelOf (score : Int) : Bytes :=
  if 85 ≤ score then ascii "CLEAN"
  else if 70 ≤ score then ascii "LOW-SIGNAL"
  else if 50 ≤ score then ascii "SUSPICIOUS"
  else ascii "HIGH-CONFIDENCE"

def stackName (R : FullReport) (s : Scoring) : Bytes :=
  if s.anyReality && awgDefault R then ascii "VLESS / XTLS-Reality + AmneziaWG"
  else if s.anyReality then ascii "VLESS / XTLS-Reality"
  else if awgDefault R then ascii "Amnezia WireGuard"
  else if wgDefault R || wgAlt R then ascii "WireGuard"
  else if s.anyTls && R.openTcp.any (·.port == 443) then ascii "generic TLS origin"
  else ascii "no signature-less VPN indicator"

-- ---------------------------------------------------------------------------
-- The classification
-- ---------------------------------------------------------------------------

structure Rule where
  name : Bytes
  hit : Bool
  why : Bytes
  tierA : Bool

def rules (R : FullReport) (s : Scoring) : List Rule :=
  [ ⟨ascii "WireGuard signature", wgDefault R, ascii "UDP/51820 handshake reply", true⟩,
    ⟨ascii "AmneziaWG signature", awgDefault R, ascii "UDP/55555 obfuscated handshake reply", true⟩,
    ⟨ascii "Open proxy exposure", s.anyProxyOpen, ascii "SOCKS/HTTP CONNECT reachable", true⟩,
    ⟨ascii "Reality cert-steering", s.anyReality, ascii "SNI steering discriminator", false⟩,
    ⟨ascii "Cert impersonation", s.anyImpersonation, ascii "brand cert/ASN mismatch", false⟩,
    ⟨ascii "Active-probe anomalies", s.anyJ3Canned || s.anyJ3Badver,
      ascii "canned/malformed HTTP fallback", false⟩ ]

structure Tspu where
  aHits : Nat
  bHits : Nat
  tierName : Bytes
  tierDesc : Bytes
  deriving DecidableEq, Repr

def classify (rules : List Rule) : Tspu :=
  let aHits := rules.countP fun r => r.hit && r.tierA
  let bHits := rules.countP fun r => r.hit && !r.tierA
  if 0 < aHits then
    ⟨aHits, bHits, ascii "IMMEDIATE BLOCK", ascii "A-tier protocol/proxy signatures matched"⟩
  else if 2 ≤ bHits then
    ⟨aHits, bHits, ascii "BLOCK (accumulative)",
      ascii "multiple B-tier anomalies crossed confidence threshold"⟩
  else if bHits = 1 then
    ⟨aHits, bHits, ascii "MONITOR / THROTTLE",
      ascii "single B-tier anomaly: monitor and sample further"⟩
  else ⟨aHits, bHits, ascii "PASS / ALLOW", ascii "no actionable signatures matched"⟩

def judge (R : FullReport) : FullReport × Tspu :=
  let s := scoring R
  let score := s.book.clamp.score
  ({ R with score, label := labelOf score, guessStack := R.guessStack ++ [stackName R s] },
    classify (rules R s))

/-- The report, and the classification that is printed at the end of a
completed run. -/
def runFullTarget (p : Probes) (target : Bytes) : FullReport × Option Tspu :=
  let R : FullReport := { target }
  let R := { R with dns := p.resolveHost target }
  if !R.dns.err.isEmpty then (R, none)
  else
    let verdict := judge (gather p R)
    (verdict.1, some verdict.2)

end ByeByeVpn
