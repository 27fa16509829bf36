import ByeByeVpn.Cli.EvidenceOrder

/-!
# Behind a CDN

Where a provider names the network of a CDN, every port is taken for one of a
load balancer. What the SNI probes found and the forwarding headers have no
part in the verdict then.
-/

namespace ByeByeVpn

/-- A port without its SNI result and the flag for forwarding headers. -/
def PortFp.withoutSteering (pf : PortFp) : PortFp :=
  { pf with
    sni := none
    https := pf.https.map fun https => { https with hasProxyLeak := false } }

def FullReport.withoutSteering (R : FullReport) : FullReport :=
  { R with fps := R.fps.map PortFp.withoutSteering }

/-- A geo record names a network with one of the CDN names in it, in any case. -/
def BehindCdn (R : FullReport) : Prop :=
  ∃ g ∈ R.geos, ∃ name ∈ kCdnAsnNeedles, name <:+: tolowerS g.asnOrg

theorem hasToken_iff {value : Bytes} {needles : List Bytes} :
    hasToken value needles = true ↔ ∃ name ∈ needles, name <:+: tolowerS value := by
  simp only [hasToken, List.any_eq_true, contains_iff]

theorem isKnownCdnAsn_asnOrgs {R : FullReport} (h : BehindCdn R) :
    (asnOrgs R).any isKnownCdnAsn = true := by
  obtain ⟨g, hg, name, hname, hin⟩ := h
  have hne : ¬(g.asnOrg.isEmpty = true) := by
    intro he
    rw [List.isEmpty_iff.mp he] at hin
    obtain rfl := List.infix_nil.mp hin
    exact absurd hname (by decide)
  refine List.any_eq_true.mpr ⟨g.asnOrg, ?_, hasToken_iff.mpr ⟨name, hname, hin⟩⟩
  exact List.mem_filter.mpr ⟨List.mem_map_of_mem hg, by simpa using hne⟩

theorem looksLikeCdnLb_of_behindCdn {R : FullReport} (h : BehindCdn R) (pf : PortFp) :
    looksLikeCdnLb pf (asnOrgs R) = true := by
  rw [looksLikeCdnLb, if_pos (isKnownCdnAsn_asnOrgs h)]

theorem portSignals_withoutSteering {orgs : List Bytes}
    (h : ∀ pf, looksLikeCdnLb pf orgs = true) (pf : PortFp) :
    portSignals orgs pf.withoutSteering = portSignals orgs pf := by
  have hsni : ∀ pf : PortFp, sniSignals orgs true pf = [] := by
    intro pf
    unfold sniSignals
    cases pf.sni with
    | none => rfl
    | some sni => simp [given]
  have hhttps : httpsSignals true pf.withoutSteering = httpsSignals true pf := by
    unfold httpsSignals PortFp.withoutSteering
    cases pf.https with
    | none => rfl
    | some https => simp [given]
  simp only [portSignals, h, hsni, hhttps]
  rfl

theorem judge_withoutSteering {R : FullReport} (h : BehindCdn R) :
    (judge R.withoutSteering).1.score = (judge R).1.score ∧
      (judge R.withoutSteering).1.label = (judge R).1.label ∧
      (judge R.withoutSteering).1.guessStack = (judge R).1.guessStack ∧
      (judge R.withoutSteering).2 = (judge R).2 := by
  have hport := portSignals_withoutSteering (looksLikeCdnLb_of_behindCdn h)
  have hsignals : signals R.withoutSteering = signals R := by
    simp only [signals, FullReport.withoutSteering, List.flatMap_map]
    exact congrArg _ (List.flatMap_congr fun pf _ => hport pf)
  have htls : tlsSeen R.withoutSteering.fps = tlsSeen R.fps := by
    simp only [tlsSeen, FullReport.withoutSteering, List.any_map]
    rfl
  refine judge_congr ?_ htls rfl rfl rfl
  rw [gist_scoring, gist_scoring, hsignals]

theorem evidence_dns (p : Probes) (target : Bytes) :
    (evidence p target).dns = p.resolveHost target := by
  simp only [evidence, gather]
  split <;> rfl

/-- CDN suppression is complete: two runs whose evidence differs only in the
SNI results and in the flags for forwarding headers end with the same verdict. -/
theorem cdnSuppression (p p' : Probes) (target target' : Bytes)
    (hsame : (evidence p target).withoutSteering = (evidence p' target').withoutSteering)
    (hcdn : BehindCdn (evidence p target)) :
    (runFullTarget p target).1.score = (runFullTarget p' target').1.score ∧
      (runFullTarget p target).1.label = (runFullTarget p' target').1.label ∧
      (runFullTarget p target).1.guessStack = (runFullTarget p' target').1.guessStack ∧
      (runFullTarget p target).2 = (runFullTarget p' target').2 := by
  have hdns : p.resolveHost target = p'.resolveHost target' := by
    have h := congrArg FullReport.dns hsame
    rwa [FullReport.withoutSteering, FullReport.withoutSteering, evidence_dns, evidence_dns] at h
  have hcdn' : BehindCdn (evidence p' target') := by
    have hgeos := congrArg FullReport.geos hsame
    obtain ⟨g, hg, hname⟩ := hcdn
    exact ⟨g, hgeos ▸ hg, hname⟩
  by_cases herr : (p.resolveHost target).err = []
  · rw [runFullTarget_resolved herr, runFullTarget_resolved (hdns ▸ herr)]
    obtain ⟨hscore, hlabel, hstack, htspu⟩ := judge_withoutSteering hcdn
    obtain ⟨hscore', hlabel', hstack', htspu'⟩ := judge_withoutSteering hcdn'
    rw [← hscore, ← hlabel, ← hstack, ← htspu, hsame]
    exact ⟨hscore', hlabel', hstack', congrArg some htspu'⟩
  · have herr' : (p'.resolveHost target').err ≠ [] := hdns ▸ herr
    simp [runFullTarget, herr, herr']

-- ---------------------------------------------------------------------------
-- Probes that steer
-- ---------------------------------------------------------------------------

/-- The second set of probes finds other SNI results for the same certificates
and other flags for forwarding headers. -/
structure SteersOtherwise (p : Probes) (sniConsistency : Nat → Bytes → Int → Bytes → SniConsistency)
    (httpsProbe : Nat → Bytes → Int → Bytes → HttpsProbe) : Prop where
  sni : ∀ i ip port host,
    (sniConsistency i ip port host).baseSha = (p.sniConsistency i ip port host).baseSha
  https : ∀ i ip port host, { httpsProbe i ip port host with hasProxyLeak := false } =
    { p.httpsProbe i ip port host with hasProxyLeak := false }

section
variable {p : Probes} {sniConsistency : Nat → Bytes → Int → Bytes → SniConsistency}
variable {httpsProbe : Nat → Bytes → Int → Bytes → HttpsProbe} {pf pf' : PortFp}

theorem fingerprintTls_otherwise (h : SteersOtherwise p sniConsistency httpsProbe) (dns : Resolved)
    (i : Nat) (pf : PortFp) :
    (fingerprintTls { p with sniConsistency, httpsProbe } dns i pf).withoutSteering =
      (fingerprintTls p dns i pf).withoutSteering := by
  simp only [fingerprintTls]
  split
  · simp only [PortFp.withoutSteering, h.sni, Option.map_some, h.https]
  · rfl

theorem fingerprintHttp_withoutSteering (dns : Resolved) (i : Nat) (pf : PortFp) (printed : Bool) :
    fingerprintHttp p dns i pf.withoutSteering printed =
      ((fingerprintHttp p dns i pf printed).1.withoutSteering,
        (fingerprintHttp p dns i pf printed).2) := by
  unfold fingerprintHttp PortFp.withoutSteering
  dsimp only
  cases (!(p.fpHttpPlain i dns.primaryIp pf.port).details.isEmpty ||
    (p.fpHttpPlain i dns.primaryIp pf.port).silent) <;>
  by_cases hproxy : (p.fpHttpConnect i dns.primaryIp pf.port).service = ascii "HTTP-PROXY" <;>
  simp [hproxy]

def fingerprintRest (p : Probes) (dns : Resolved) (i : Nat) (o : TcpOpen) (found : PortFp × Bool) :
    PortFp :=
  let (pf, printed) := found
  let (pf, printed) :=
    if kHttpPorts.contains o.port then fingerprintHttp p dns i pf printed else (pf, printed)
  let (pf, printed) :=
    if kSocksPorts.contains o.port then
      ({ pf with fp := p.fpSocks5 i dns.primaryIp o.port }, true)
    else (pf, printed)
  if printed then pf else { pf with fp := unknownService o }

theorem fingerprintRest_withoutSteering (dns : Resolved) (i : Nat) (o : TcpOpen) (pf : PortFp)
    (printed : Bool) :
    fingerprintRest p dns i o (pf.withoutSteering, printed) =
      (fingerprintRest p dns i o (pf, printed)).withoutSteering := by
  simp only [fingerprintRest, fingerprintHttp_withoutSteering]
  split_ifs <;> rfl

/-- The port before it is known whether it speaks TLS. -/
def fingerprintSsh (p : Probes) (dns : Resolved) (i : Nat) (o : TcpOpen) : PortFp × Bool :=
  if startsWith o.banner (ascii "SSH-") || o.port == 22 || o.port == 2222 || o.port == 22222 then
    ({ port := o.port, fp := p.fpSsh i o.banner dns.primaryIp o.port }, true)
  else ({ port := o.port }, false)

theorem fingerprint_eq (p : Probes) (dns : Resolved) (i : Nat) (o : TcpOpen) :
    fingerprint p dns i o = fingerprintRest p dns i o
      (if isTlsPort o.port then (fingerprintTls p dns i (fingerprintSsh p dns i o).1, true)
        else fingerprintSsh p dns i o) := rfl

theorem fingerprint_otherwise (h : SteersOtherwise p sniConsistency httpsProbe) (dns : Resolved)
    (i : Nat) (o : TcpOpen) :
    (fingerprint { p with sniConsistency, httpsProbe } dns i o).withoutSteering =
      (fingerprint p dns i o).withoutSteering := by
  have hrest : fingerprintRest { p with sniConsistency, httpsProbe } dns i o =
      fingerprintRest p dns i o := rfl
  have hssh : fingerprintSsh { p with sniConsistency, httpsProbe } dns i o =
      fingerprintSsh p dns i o := rfl
  rw [fingerprint_eq, fingerprint_eq, hrest, hssh]
  split
  · rw [← fingerprintRest_withoutSteering, ← fingerprintRest_withoutSteering,
      fingerprintTls_otherwise h]
  · rfl

theorem probeJunk_withoutSteering (dns : Resolved) (i : Nat) (pf : PortFp) :
    probeJunk p dns i pf.withoutSteering = (probeJunk p dns i pf).withoutSteering := by
  unfold probeJunk
  have hport : pf.withoutSteering.port = pf.port := rfl
  rw [hport]
  split <;> rfl

theorem evidence_otherwise (h : SteersOtherwise p sniConsistency httpsProbe) (target : Bytes) :
    (evidence { p with sniConsistency, httpsProbe } target).withoutSteering =
      (evidence p target).withoutSteering := by
  have hjunk : probeJunk { p with sniConsistency, httpsProbe } = probeJunk p := rfl
  have hport : ∀ dns i o, (probeJunk p dns i
      (fingerprint { p with sniConsistency, httpsProbe } dns i o)).withoutSteering =
      (probeJunk p dns i (fingerprint p dns i o)).withoutSteering := by
    intro dns i o
    rw [← probeJunk_withoutSteering, ← probeJunk_withoutSteering, fingerprint_otherwise h]
  have hfps : ∀ dns (os : List TcpOpen),
      ((os.mapIdx (fingerprint { p with sniConsistency, httpsProbe } dns)).mapIdx
        (probeJunk p dns)).map PortFp.withoutSteering =
      ((os.mapIdx (fingerprint p dns)).mapIdx (probeJunk p dns)).map PortFp.withoutSteering := by
    intro dns os
    exact List.ext_getElem (by simp) fun i hi hi' => by simp [hport]
  simp only [evidence, gather, FullReport.withoutSteering, hjunk, hfps]

end

def cdnOrigin : Probes :=
  { silentProbes with
    geo := fun _ _ => .ok { asnOrg := ascii "Fastly, Inc." }
    scanTcp := fun _ ports => ([{ port := 443 }], { scanned := ports.length })
    tlsProbe := fun _ _ _ _ => { ok := true }
    sniConsistency := fun _ _ _ _ => { realityLike := true, passthroughMode := true }
    httpsProbe := fun _ _ _ _ => { tlsOk := true, hasProxyLeak := true } }

theorem behindCdn_cdnOrigin : BehindCdn (evidence cdnOrigin []) :=
  ⟨_, List.mem_cons_self, ascii "fastly", by decide, by decide⟩

def quietProbes : Probes :=
  { cdnOrigin with
    sniConsistency := fun _ _ _ _ => {}
    httpsProbe := fun _ _ _ _ => { tlsOk := true } }

theorem evidence_quietProbes :
    (evidence quietProbes []).withoutSteering = (evidence cdnOrigin []).withoutSteering :=
  evidence_otherwise (p := cdnOrigin) ⟨fun _ _ _ _ => rfl, fun _ _ _ _ => rfl⟩ []

theorem cdnSuppression_cdnOrigin :
    (runFullTarget cdnOrigin []).2 = (runFullTarget quietProbes []).2 :=
  (cdnSuppression cdnOrigin quietProbes [] [] evidence_quietProbes.symm behindCdn_cdnOrigin).2.2.2

end ByeByeVpn
