import ByeByeVpn.Lib.Query
import ByeByeVpn.Cli.Main
import ByeByeVpn.Cli.Orchestrator

/-!
# Who is contacted by the full check (`cli/orchestrator.cpp`)

`run_full_target` as a program that asks: every lookup, probe and request is a
question, asked only when the source gets there. Its report is that of the
other reading of the source, in which the probes are parameters.
-/

namespace ByeByeVpn

/-- The calls that contact someone. Those for an open port come with its
position. -/
inductive Contact
  | resolveHost (name : Bytes)
  | geo (provider : Nat) (ip : Bytes)
  | scanTcp (ip : Bytes) (ports : List Int) (threads tcpTo : Int)
  | wireguardProbe (ip : Bytes) (port : Int)
  | amneziawgProbe (ip : Bytes) (port : Int)
  | fpSsh (i : Nat) (banner ip : Bytes) (port : Int)
  | tlsProbe (i : Nat) (ip : Bytes) (port : Int) (sni : Bytes)
  | sniConsistency (i : Nat) (ip : Bytes) (port : Int) (host : Bytes)
  | httpGet (i : Nat) (url : Bytes) (timeoutMs : Int)
  | httpsProbe (i : Nat) (ip : Bytes) (port : Int) (host : Bytes)
  | fpHttpPlain (i : Nat) (ip : Bytes) (port : Int)
  | fpHttpConnect (i : Nat) (ip : Bytes) (port : Int)
  | fpSocks5 (i : Nat) (ip : Bytes) (port : Int)
  | j3Probes (i : Nat) (ip : Bytes) (port : Int)
  deriving DecidableEq

abbrev Contact.Reply : Contact → Type
  | .resolveHost .. => Resolved
  | .geo .. => Except (Option Bytes) GeoInfo
  | .scanTcp .. => List TcpOpen × ScanStats
  | .wireguardProbe .. | .amneziawgProbe .. => UdpResult
  | .fpSsh .. | .fpHttpPlain .. | .fpHttpConnect .. | .fpSocks5 .. => FpResult
  | .tlsProbe .. => TlsProbe
  | .sniConsistency .. => SniConsistency
  | .httpGet .. => HttpResp
  | .httpsProbe .. => HttpsProbe
  | .j3Probes .. => List J3Result

abbrev World := (q : Contact) → q.Reply

abbrev Asking := Query Contact Contact.Reply

def contact (q : Contact) : Asking q.Reply := Query.get q

def World.probes (world : World) (c : Config) : Probes where
  noGeoip := c.noGeoip
  noCt := c.noCt
  resolveHost name := world (.resolveHost name)
  geo provider ip := world (.geo provider ip)
  buildTcpPorts := buildTcpPorts c.toPortConfig
  scanTcp ip ports := world (.scanTcp ip ports c.threads c.tcpTo)
  wireguardProbe ip port := world (.wireguardProbe ip port)
  amneziawgProbe ip port := world (.amneziawgProbe ip port)
  fpSsh i banner ip port := world (.fpSsh i banner ip port)
  tlsProbe i ip port sni := world (.tlsProbe i ip port sni)
  sniConsistency i ip port host := world (.sniConsistency i ip port host)
  httpGet i url timeoutMs := world (.httpGet i url timeoutMs)
  httpsProbe i ip port host := world (.httpsProbe i ip port host)
  fpHttpPlain i ip port := world (.fpHttpPlain i ip port)
  fpHttpConnect i ip port := world (.fpHttpConnect i ip port)
  fpSocks5 i ip port := world (.fpSocks5 i ip port)
  j3Probes i ip port := world (.j3Probes i ip port)

-- ---------------------------------------------------------------------------
-- The program
-- ---------------------------------------------------------------------------

namespace Asking

/-- `ct_check` makes its request once its argument has passed. -/
def ctCheck (i : Nat) (certSha256 : Bytes) (allowRemote : Bool) : Asking CtCheck :=
  if certSha256.length = kCtCheckSha256HexLength ∧ certSha256.all isxdigit ∧ allowRemote then do
    let h ← contact (.httpGet i (ctUrl certSha256) kCtCheckHttpTimeoutMs)
    pure (ByeByeVpn.ctCheck (fun _ _ => h) certSha256 allowRemote)
  else pure (ByeByeVpn.ctCheck (fun _ _ => {}) certSha256 allowRemote)

def fingerprintTls (c : Config) (dns : Resolved) (i : Nat) (pf : PortFp) : Asking PortFp := do
  let tp ← contact (.tlsProbe i dns.primaryIp pf.port dns.host)
  let pf := { pf with tls := some tp }
  if tp.ok then
    let details := tp.version ++ ascii " / " ++ tp.cipher ++ ascii " / ALPN=" ++
      (if tp.alpn.isEmpty then ascii "-" else tp.alpn) ++ ascii " / " ++ tp.group ++ ascii " / " ++
      decimal tp.handshakeMs ++ ascii "ms"
    let sc ← contact (.sniConsistency i dns.primaryIp pf.port dns.host)
    let ct ← (if !c.noCt && !sc.baseSha.isEmpty then some <$> ctCheck i sc.baseSha true
      else pure pf.ct)
    let https ← contact (.httpsProbe i dns.primaryIp pf.port dns.host)
    pure { pf with
      fp := { service := ascii "TLS", details }
      sni := some sc
      ct
      https := some https }
  else pure { pf with fp := { service := ascii "TLS-FAIL", details := tp.err } }

def fingerprintHttp (dns : Resolved) (i : Nat) (pf : PortFp) (printed : Bool) :
    Asking (PortFp × Bool) := do
  let hp ← contact (.fpHttpPlain i dns.primaryIp pf.port)
  let (pf, printed) :=
    if !hp.details.isEmpty || hp.silent then ({ pf with fp := hp }, true) else (pf, printed)
  let proxy ← contact (.fpHttpConnect i dns.primaryIp pf.port)
  pure (if proxy.service = ascii "HTTP-PROXY" then ({ pf with fp := proxy }, true)
    else (pf, printed))

-- The four steps for an open port. Each gets the fingerprint so far, and
-- whether it was printed.

def sshStep (dns : Resolved) (i : Nat) (o : TcpOpen) : Asking (PortFp × Bool) :=
  let pf : PortFp := { port := o.port }
  if startsWith o.banner (ascii "SSH-") || o.port == 22 || o.port == 2222 || o.port == 22222 then
    (fun fp => ({ pf with fp }, true)) <$> contact (.fpSsh i o.banner dns.primaryIp o.port)
  else pure (pf, false)

def tlsStep (c : Config) (dns : Resolved) (i : Nat) (o : TcpOpen) (found : PortFp × Bool) :
    Asking (PortFp × Bool) :=
  if isTlsPort o.port then (·, true) <$> fingerprintTls c dns i found.1 else pure found

def httpStep (dns : Resolved) (i : Nat) (o : TcpOpen) (found : PortFp × Bool) :
    Asking (PortFp × Bool) :=
  if kHttpPorts.contains o.port then fingerprintHttp dns i found.1 found.2 else pure found

def socksStep (dns : Resolved) (i : Nat) (o : TcpOpen) (found : PortFp × Bool) :
    Asking (PortFp × Bool) :=
  if kSocksPorts.contains o.port then
    (fun fp => ({ found.1 with fp }, true)) <$> contact (.fpSocks5 i dns.primaryIp o.port)
  else pure found

def fingerprint (c : Config) (dns : Resolved) (i : Nat) (o : TcpOpen) : Asking PortFp := do
  let found ← sshStep dns i o
  let found ← tlsStep c dns i o found
  let found ← httpStep dns i o found
  let found ← socksStep dns i o found
  pure (if found.2 then found.1 else { found.1 with fp := unknownService o })

def probeJunk (dns : Resolved) (i : Nat) (pf : PortFp) : Asking PortFp :=
  if !isTlsPort pf.port && pf.port != 80 && pf.port != 8080 then pure pf
  else do
    let probes ← contact (.j3Probes i dns.primaryIp pf.port)
    pure { pf with j3 := probes, j3a := some (j3Analyze probes) }

def probeUdp (dns : Resolved) (plan : UdpPlan) : Asking (Int × UdpResult) := do
  let u ← (if plan.useAwg then contact (.amneziawgProbe dns.primaryIp plan.port)
    else contact (.wireguardProbe dns.primaryIp plan.port))
  pure (plan.port, u)

def lookUp (c : Config) (R : FullReport) : Asking (List GeoInfo) :=
  if c.noGeoip then pure R.geos
  else geoSources.zipIdx.mapM fun x =>
    (safeGetGeo · x.1) <$> contact (.geo x.2 R.dns.primaryIp)

def gather (c : Config) (R : FullReport) : Asking FullReport := do
  let ip := R.dns.primaryIp
  let geos ← lookUp c R
  let R := { R with geos }
  let scan ← contact (.scanTcp ip (buildTcpPorts c.toPortConfig) c.threads c.tcpTo)
  let R := { R with openTcp := scan.1, scanStats := scan.2 }
  let udpProbes ← kUdpPlans.mapM (probeUdp R.dns)
  let R := { R with udpProbes }
  let fps ← R.openTcp.zipIdx.mapM fun x => fingerprint c R.dns x.2 x.1
  let R := { R with fps }
  let fps ← R.fps.zipIdx.mapM fun x => probeJunk R.dns x.2 x.1
  pure { R with fps }

def runFullTarget (c : Config) (target : Bytes) : Asking (FullReport × Option Tspu) := do
  let R : FullReport := { target }
  let dns ← contact (.resolveHost target)
  let R := { R with dns }
  if !R.dns.err.isEmpty then pure (R, none)
  else do
    let R ← gather c R
    let verdict := judge R
    pure (verdict.1, some verdict.2)

-- ---------------------------------------------------------------------------
-- The report is the same
-- ---------------------------------------------------------------------------

variable (world : World) (c : Config) (dns : Resolved)

theorem run_ctCheck (i : Nat) (certSha256 : Bytes) (allowRemote : Bool) :
    (ctCheck i certSha256 allowRemote).run world =
      ByeByeVpn.ctCheck ((world.probes c).httpGet i) certSha256 allowRemote := by
  unfold ctCheck
  by_cases hpass : certSha256.length = kCtCheckSha256HexLength ∧ certSha256.all isxdigit ∧
      allowRemote
  · rw [if_pos hpass]
    rfl
  · rw [if_neg hpass]
    simp only [ByeByeVpn.ctCheck, Query.run_pure]
    grind

theorem run_fingerprintTls (i : Nat) (pf : PortFp) :
    (fingerprintTls c dns i pf).run world =
      ByeByeVpn.fingerprintTls (world.probes c) dns i pf := by
  simp only [fingerprintTls, Query.run_bind, Query.run_ite, Query.run_map,
    Query.run_pure, run_ctCheck world c]
  rfl

theorem run_fingerprintHttp (i : Nat) (pf : PortFp) (printed : Bool) :
    (fingerprintHttp dns i pf printed).run world =
      ByeByeVpn.fingerprintHttp (world.probes c) dns i pf printed := by
  simp only [fingerprintHttp, Query.run_bind, Query.run_pure]
  rfl

theorem run_fingerprint (i : Nat) (o : TcpOpen) :
    (fingerprint c dns i o).run world = ByeByeVpn.fingerprint (world.probes c) dns i o := by
  simp only [fingerprint, sshStep, tlsStep, httpStep, socksStep, Query.run_bind, Query.run_ite,
    Query.run_map, Query.run_pure, run_fingerprintTls, run_fingerprintHttp world c]
  rfl

theorem run_probeJunk (i : Nat) (pf : PortFp) :
    (probeJunk dns i pf).run world = ByeByeVpn.probeJunk (world.probes c) dns i pf := by
  simp only [probeJunk, Query.run_ite, Query.run_bind, Query.run_pure]
  rfl

theorem run_probeUdp (plan : UdpPlan) :
    (probeUdp dns plan).run world = (plan.port,
      if plan.useAwg then (world.probes c).amneziawgProbe dns.primaryIp plan.port
      else (world.probes c).wireguardProbe dns.primaryIp plan.port) := by
  simp only [probeUdp, Query.run_bind, Query.run_ite, Query.run_pure]
  rfl

theorem run_lookUp (R : FullReport) :
    (lookUp c R).run world =
      if c.noGeoip then R.geos
      else geoSources.mapIdx fun i source =>
        safeGetGeo ((world.probes c).geo i R.dns.primaryIp) source := by
  rw [List.mapIdx_eq_zipIdx_map]
  simp only [lookUp, Query.run_ite, Query.run_pure, Query.run_mapM, Query.run_map]
  rfl

theorem run_gather (R : FullReport) :
    (gather c R).run world = ByeByeVpn.gather (world.probes c) R := by
  have hfps (dns : Resolved) (l : List TcpOpen) :
      (l.zipIdx.map fun x => ByeByeVpn.fingerprint (world.probes c) dns x.2 x.1) =
        l.mapIdx (ByeByeVpn.fingerprint (world.probes c) dns) :=
    List.mapIdx_eq_zipIdx_map.symm
  have hjunk (dns : Resolved) (l : List PortFp) :
      (l.zipIdx.map fun x => ByeByeVpn.probeJunk (world.probes c) dns x.2 x.1) =
        l.mapIdx (ByeByeVpn.probeJunk (world.probes c) dns) :=
    List.mapIdx_eq_zipIdx_map.symm
  simp only [gather, Query.run_bind, Query.run_mapM, Query.run_pure, run_lookUp,
    run_fingerprint, run_probeJunk world c, run_probeUdp world c, hfps, hjunk]
  cases hgeo : c.noGeoip with
  | false =>
    have hno : (world.probes c).noGeoip = false := hgeo
    simp only [ByeByeVpn.gather, hno]
    rfl
  | true =>
    have hno : (world.probes c).noGeoip = true := hgeo
    simp only [ByeByeVpn.gather, hno]
    rfl

/-- Run with answers, the program gives the report of the probes that give
these answers. -/
theorem run_runFullTarget (target : Bytes) :
    (runFullTarget c target).run world = ByeByeVpn.runFullTarget (world.probes c) target := by
  simp only [runFullTarget, Query.run_bind, Query.run_ite, Query.run_pure, run_gather]
  rfl

end Asking

end ByeByeVpn
