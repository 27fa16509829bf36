import ByeByeVpn.Cli.Contacts
import Mathlib.Data.List.Sigma

/-!
# The footprint of the full check (`cli/orchestrator.cpp`)

Which contacts are due follows from the options and from the answers that come
before them. The check makes these and no others, and each only once.
-/

namespace ByeByeVpn

/-- The open ports that are taken for SSH. -/
def TcpOpen.sshLike (o : TcpOpen) : Bool :=
  startsWith o.banner (ascii "SSH-") || o.port == 22 || o.port == 2222 || o.port == 22222

def IsSha256 (text : Bytes) : Prop :=
  text.length = kCtCheckSha256HexLength ∧ text.all isxdigit = true

section

variable (world : World) (c : Config) (dns : Resolved)

def TlsAt (i : Nat) (o : TcpOpen) : Prop :=
  isTlsPort o.port = true ∧ (world (.tlsProbe i dns.primaryIp o.port dns.host)).ok = true

def baseShaAt (i : Nat) (o : TcpOpen) : Bytes :=
  (world (.sniConsistency i dns.primaryIp o.port dns.host)).baseSha

/-- The contacts that are due for an open port. -/
inductive DueAt (i : Nat) (o : TcpOpen) : Contact → Prop
  | ssh : o.sshLike = true → DueAt i o (.fpSsh i o.banner dns.primaryIp o.port)
  | tls : isTlsPort o.port = true → DueAt i o (.tlsProbe i dns.primaryIp o.port dns.host)
  | sni : TlsAt world dns i o → DueAt i o (.sniConsistency i dns.primaryIp o.port dns.host)
  | ct : TlsAt world dns i o → c.noCt = false → IsSha256 (baseShaAt world dns i o) →
      DueAt i o (.httpGet i (ctUrl (baseShaAt world dns i o)) kCtCheckHttpTimeoutMs)
  | https : TlsAt world dns i o → DueAt i o (.httpsProbe i dns.primaryIp o.port dns.host)
  | httpPlain : o.port ∈ kHttpPorts → DueAt i o (.fpHttpPlain i dns.primaryIp o.port)
  | httpConnect : o.port ∈ kHttpPorts → DueAt i o (.fpHttpConnect i dns.primaryIp o.port)
  | socks : o.port ∈ kSocksPorts → DueAt i o (.fpSocks5 i dns.primaryIp o.port)
  | junk : isTlsPort o.port = true ∨ o.port = 80 ∨ o.port = 8080 →
      DueAt i o (.j3Probes i dns.primaryIp o.port)

def openTcp : List TcpOpen :=
  (world (.scanTcp dns.primaryIp (buildTcpPorts c.toPortConfig) c.threads c.tcpTo)).1

/-- The contacts that are due once the name is resolved. -/
inductive Due : Contact → Prop
  | geo {k : Nat} : c.noGeoip = false → k < geoSources.length → Due (.geo k dns.primaryIp)
  | scan : Due (.scanTcp dns.primaryIp (buildTcpPorts c.toPortConfig) c.threads c.tcpTo)
  | wireguard {port : Int} : port = 51820 ∨ port = 41641 → Due (.wireguardProbe dns.primaryIp port)
  | amneziawg : Due (.amneziawgProbe dns.primaryIp 55555)
  | port {i : Nat} {o : TcpOpen} {q : Contact} : (openTcp world c dns)[i]? = some o →
      DueAt world c dns i o q → Due q

end

instance (text : Bytes) : Decidable (IsSha256 text) := inferInstanceAs (Decidable (_ ∧ _))

-- ---------------------------------------------------------------------------
-- One open port
-- ---------------------------------------------------------------------------

section

variable (world : World) (c : Config) (dns : Resolved) (i : Nat) (o : TcpOpen)

def ctContacts : List Contact :=
  if c.noCt = false ∧ IsSha256 (baseShaAt world dns i o) then
    [.httpGet i (ctUrl (baseShaAt world dns i o)) kCtCheckHttpTimeoutMs]
  else []

def tlsContacts : List Contact :=
  .tlsProbe i dns.primaryIp o.port dns.host ::
    if (world (.tlsProbe i dns.primaryIp o.port dns.host)).ok then
      .sniConsistency i dns.primaryIp o.port dns.host ::
        (ctContacts world c dns i o ++ [.httpsProbe i dns.primaryIp o.port dns.host])
    else []

def portContacts : List Contact :=
  (if o.sshLike then [.fpSsh i o.banner dns.primaryIp o.port] else []) ++
    ((if isTlsPort o.port then tlsContacts world c dns i o else []) ++
      ((if kHttpPorts.contains o.port then
          [.fpHttpPlain i dns.primaryIp o.port, .fpHttpConnect i dns.primaryIp o.port]
        else []) ++
        if kSocksPorts.contains o.port then [.fpSocks5 i dns.primaryIp o.port] else []))

def junkContacts (dns : Resolved) (x : PortFp × Nat) : List Contact :=
  if !isTlsPort x.1.port && x.1.port != 80 && x.1.port != 8080 then []
  else [.j3Probes x.2 dns.primaryIp x.1.port]

end

namespace Asking

variable (world : World) (c : Config) (dns : Resolved) (i : Nat) (o : TcpOpen)

theorem asked_ctCheck (sha : Bytes) :
    (ctCheck i sha true).asked world =
      if IsSha256 sha then [.httpGet i (ctUrl sha) kCtCheckHttpTimeoutMs] else [] := by
  unfold ctCheck
  by_cases hsha : IsSha256 sha
  · rw [if_pos ⟨hsha.1, hsha.2, rfl⟩, if_pos hsha]
    rfl
  · rw [if_neg fun h => hsha ⟨h.1, h.2.1⟩, if_neg hsha]
    rfl

theorem asked_contact_bind {α : Type} (q : Contact) (f : q.Reply → Asking α) :
    (contact q >>= f).asked world = q :: (f (world q)).asked world := rfl

theorem asked_fingerprintTls {pf : PortFp} (hport : pf.port = o.port) :
    (fingerprintTls c dns i pf).asked world = tlsContacts world c dns i o := by
  have hct : ∀ pf' : PortFp, ((if !c.noCt && !(baseShaAt world dns i o).isEmpty then
      some <$> ctCheck i (baseShaAt world dns i o) true else pure pf'.ct : Asking _).asked world) =
        ctContacts world c dns i o := fun pf' => by
    simp only [Query.asked_ite, Query.asked_map, Query.asked_pure, asked_ctCheck, ctContacts]
    by_cases hsha : IsSha256 (baseShaAt world dns i o)
    · have hne : (baseShaAt world dns i o).isEmpty = false := by
        rw [List.isEmpty_eq_false_iff, ← List.length_pos_iff, hsha.1]
        decide
      simp [hsha, hne]
    · simp [hsha]
  unfold fingerprintTls tlsContacts
  rw [hport]
  refine (asked_contact_bind _ _ _).trans (congrArg _ ?_)
  rw [Query.asked_ite]
  refine ite_congr rfl (fun _ => ?_) fun _ => rfl
  refine (asked_contact_bind _ _ _).trans (congrArg _ ?_)
  rw [Query.asked_bind]
  exact congrArg (· ++ _) (hct _)

theorem asked_fingerprintHttp {pf : PortFp} (hport : pf.port = o.port) (printed : Bool) :
    (fingerprintHttp dns i pf printed).asked world =
      [.fpHttpPlain i dns.primaryIp o.port, .fpHttpConnect i dns.primaryIp o.port] := by
  rw [← hport]
  refine (asked_contact_bind _ _ _).trans (congrArg _ ?_)
  cases !(world (.fpHttpPlain i dns.primaryIp pf.port)).details.isEmpty ||
    (world (.fpHttpPlain i dns.primaryIp pf.port)).silent <;> rfl

theorem port_sshStep : ((sshStep dns i o).run world).1.port = o.port := by
  unfold sshStep
  dsimp only
  split_ifs <;> rfl

theorem port_fingerprintTls (pf : PortFp) :
    ((fingerprintTls c dns i pf).run world).port = pf.port := by
  rw [run_fingerprintTls]
  unfold ByeByeVpn.fingerprintTls
  dsimp only
  split_ifs <;> rfl

theorem port_tlsStep {found : PortFp × Bool} (h : found.1.port = o.port) :
    ((tlsStep c dns i o found).run world).1.port = o.port := by
  unfold tlsStep
  split_ifs
  · rw [Query.run_map, port_fingerprintTls, h]
  · exact h

theorem port_fingerprintHttp (pf : PortFp) (printed : Bool) :
    ((fingerprintHttp dns i pf printed).run world).1.port = pf.port := by
  rw [run_fingerprintHttp world {}]
  unfold ByeByeVpn.fingerprintHttp
  dsimp only
  split_ifs <;> rfl

theorem port_fingerprint : ((fingerprint c dns i o).run world).port = o.port := by
  have hhttp {found : PortFp × Bool} (h : found.1.port = o.port) :
      ((httpStep dns i o found).run world).1.port = o.port := by
    unfold httpStep
    split_ifs
    · rw [port_fingerprintHttp world, h]
    · exact h
  have hsocks {found : PortFp × Bool} (h : found.1.port = o.port) :
      ((socksStep dns i o found).run world).1.port = o.port := by
    unfold socksStep
    split_ifs <;> exact h
  have h := hsocks (hhttp (port_tlsStep world c dns i o (port_sshStep world dns i o)))
  simp only [fingerprint, Query.run_bind, Query.run_pure]
  split_ifs <;> exact h

theorem asked_fingerprint :
    (fingerprint c dns i o).asked world = portContacts world c dns i o := by
  have hssh := port_sshStep world dns i o
  have htls := port_tlsStep world c dns i o hssh
  simp only [fingerprint, Query.asked_bind, Query.asked_pure, List.append_nil, portContacts]
  refine congr (congrArg _ ?_) (congr (congrArg _ ?_) (congr (congrArg _ ?_) ?_))
  · unfold sshStep TcpOpen.sshLike
    rw [Query.asked_ite]
    rfl
  · rw [tlsStep, Query.asked_ite, Query.asked_map, asked_fingerprintTls world c dns i o hssh]
    rfl
  · rw [httpStep, Query.asked_ite, asked_fingerprintHttp world dns i o htls]
    rfl
  · rw [socksStep, Query.asked_ite]
    rfl

theorem asked_probeJunk (pf : PortFp) :
    (probeJunk dns i pf).asked world = junkContacts dns (pf, i) := by
  rw [probeJunk, Query.asked_ite]
  rfl

end Asking

section

variable {world : World} {c : Config} {dns : Resolved} {i : Nat} {o : TcpOpen} {q : Contact}

theorem mem_ctContacts : q ∈ ctContacts world c dns i o ↔
    c.noCt = false ∧ IsSha256 (baseShaAt world dns i o) ∧
      q = .httpGet i (ctUrl (baseShaAt world dns i o)) kCtCheckHttpTimeoutMs := by
  unfold ctContacts
  split_ifs with h
  · simp [h]
  · simp only [List.not_mem_nil, false_iff]
    exact fun h' => h ⟨h'.1, h'.2.1⟩

theorem mem_junkContacts {x : PortFp × Nat} : q ∈ junkContacts dns x ↔
    (isTlsPort x.1.port = true ∨ x.1.port = 80 ∨ x.1.port = 8080) ∧
      q = .j3Probes x.2 dns.primaryIp x.1.port := by
  unfold junkContacts
  cases isTlsPort x.1.port
  · simp
    grind
  · simp

theorem dueAt_iff : DueAt world c dns i o q ↔
    q ∈ portContacts world c dns i o ∨ q ∈ junkContacts dns ({ port := o.port }, i) := by
  constructor
  · intro h
    cases h with
    | ssh h => simp [portContacts, h]
    | tls h => simp [portContacts, tlsContacts, h]
    | sni h => simp [portContacts, tlsContacts, h.1, h.2]
    | ct h hct hsha => simp [portContacts, tlsContacts, h.1, h.2, mem_ctContacts, hct, hsha]
    | https h => simp [portContacts, tlsContacts, h.1, h.2]
    | httpPlain h => simp [portContacts, h]
    | httpConnect h => simp [portContacts, h]
    | socks h => simp [portContacts, h]
    | junk h => exact .inr (mem_junkContacts.mpr ⟨h, rfl⟩)
  · rintro (h | h)
    · simp only [portContacts, tlsContacts, List.mem_append, List.mem_ite_nil_right, List.mem_cons,
        List.not_mem_nil, or_false, mem_ctContacts, List.contains_iff_mem] at h
      rcases h with ⟨hssh, rfl⟩ | ⟨htls, rfl | ⟨hok, rfl | ⟨hct, hsha, rfl⟩ | rfl⟩⟩ |
        ⟨hhttp, rfl | rfl⟩ | ⟨hsocks, rfl⟩
      · exact .ssh hssh
      · exact .tls htls
      · exact .sni ⟨htls, hok⟩
      · exact .ct ⟨htls, hok⟩ hct hsha
      · exact .https ⟨htls, hok⟩
      · exact .httpPlain hhttp
      · exact .httpConnect hhttp
      · exact .socks hsocks
    · obtain ⟨hport, rfl⟩ := mem_junkContacts.mp h
      exact .junk hport

theorem nodup_portContacts : (portContacts world c dns i o).Nodup := by
  unfold portContacts tlsContacts ctContacts
  split_ifs <;> simp

theorem nodup_junkContacts (x : PortFp × Nat) : (junkContacts dns x).Nodup := by
  unfold junkContacts
  split_ifs <;> simp

def Contact.position : Contact → Option Nat
  | .fpSsh i .. | .tlsProbe i .. | .sniConsistency i .. | .httpGet i .. | .httpsProbe i ..
  | .fpHttpPlain i .. | .fpHttpConnect i .. | .fpSocks5 i .. | .j3Probes i .. => some i
  | _ => none

theorem DueAt.position (h : DueAt world c dns i o q) : q.position = some i := by
  cases h <;> rfl

/-- Lists of contacts for different positions have nothing in common. -/
theorem nodup_positions {α : Type} {f : α × Nat → List Contact} (hnodup : ∀ x, (f x).Nodup)
    (hposition : ∀ x, ∀ q ∈ f x, q.position = some x.2) (l : List α) :
    (l.zipIdx.flatMap f).Nodup := by
  refine List.nodup_flatMap.mpr ⟨fun x _ => hnodup x, ?_⟩
  refine (List.pairwise_map.mp (List.nodup_zipIdx_map_snd l)).imp fun {x y} hne q hx hy => ?_
  exact hne (Option.some.inj ((hposition x q hx).symm.trans (hposition y q hy)))

def geoContacts (c : Config) (dns : Resolved) : List Contact :=
  if c.noGeoip then [] else geoSources.zipIdx.map fun x => .geo x.2 dns.primaryIp

def udpContacts (dns : Resolved) : List Contact :=
  [.wireguardProbe dns.primaryIp 51820, .wireguardProbe dns.primaryIp 41641,
    .amneziawgProbe dns.primaryIp 55555]

def fingerprints (world : World) (c : Config) (dns : Resolved) : List PortFp :=
  (openTcp world c dns).zipIdx.map fun x => (Asking.fingerprint c dns x.2 x.1).run world

theorem Asking.asked_gather (R : FullReport) :
    (gather c R).asked world = geoContacts c R.dns ++
      .scanTcp R.dns.primaryIp (buildTcpPorts c.toPortConfig) c.threads c.tcpTo ::
        (udpContacts R.dns ++
          (((openTcp world c R.dns).zipIdx.flatMap fun x => portContacts world c R.dns x.2 x.1) ++
            (fingerprints world c R.dns).zipIdx.flatMap (junkContacts R.dns))) := by
  have hgeo : (lookUp c R).asked world = geoContacts c R.dns := by
    rw [lookUp, Query.asked_ite, Query.asked_mapM]
    rfl
  unfold gather
  rw [Query.asked_bind, hgeo]
  refine congrArg _ ((asked_contact_bind _ _ _).trans (congrArg _ ?_))
  rw [Query.asked_bind]
  refine congr (congrArg _ rfl) ?_
  simp only [Query.asked_bind, Query.asked_mapM, Query.asked_pure, Query.run_mapM,
    asked_fingerprint, asked_probeJunk, List.append_nil]
  rfl

theorem mem_geoContacts : q ∈ geoContacts c dns ↔
    c.noGeoip = false ∧ ∃ k < geoSources.length, q = .geo k dns.primaryIp := by
  unfold geoContacts
  cases c.noGeoip with
  | true => simp
  | false =>
    simp only [Bool.false_eq_true, if_false, List.mem_map, true_and]
    constructor
    · rintro ⟨x, hx, rfl⟩
      exact ⟨x.2, (List.getElem?_eq_some_iff.mp (List.mem_zipIdx_iff_getElem?.mp hx)).1, rfl⟩
    · rintro ⟨k, hk, rfl⟩
      exact ⟨(geoSources[k], k),
        List.mem_zipIdx_iff_getElem?.mpr (List.getElem?_eq_getElem hk), rfl⟩

theorem mem_fingerprints_zipIdx {x : PortFp × Nat} (h : x ∈ (fingerprints world c dns).zipIdx) :
    ∃ o, (openTcp world c dns)[x.2]? = some o ∧ x.1.port = o.port := by
  have hx := List.mem_zipIdx_iff_getElem?.mp h
  rw [fingerprints, List.getElem?_map, List.getElem?_zipIdx] at hx
  obtain ⟨o, ho, hfp⟩ : ∃ o, (openTcp world c dns)[x.2]? = some o ∧
      (Asking.fingerprint c dns x.2 o).run world = x.1 := by simpa using hx
  exact ⟨o, ho, by rw [← hfp, Asking.port_fingerprint]⟩

theorem exists_fingerprint (h : (openTcp world c dns)[i]? = some o) :
    ∃ pf : PortFp, (pf, i) ∈ (fingerprints world c dns).zipIdx ∧ pf.port = o.port := by
  refine ⟨(Asking.fingerprint c dns i o).run world, ?_, Asking.port_fingerprint world c dns i o⟩
  rw [List.mem_zipIdx_iff_getElem?, fingerprints, List.getElem?_map, List.getElem?_zipIdx]
  simp [h]

/-- Exactly what is due is asked. -/
theorem mem_asked_gather {R : FullReport} :
    q ∈ (Asking.gather c R).asked world ↔ Due world c R.dns q := by
  rw [Asking.asked_gather]
  simp only [List.mem_append, List.mem_cons, mem_geoContacts, List.mem_flatMap]
  constructor
  · rintro (⟨hgeo, k, hk, rfl⟩ | rfl | hudp | ⟨x, hx, hq⟩ | ⟨x, hx, hq⟩)
    · exact .geo hgeo hk
    · exact .scan
    · simp only [udpContacts, List.mem_cons, List.not_mem_nil, or_false] at hudp
      rcases hudp with rfl | rfl | rfl
      · exact .wireguard (.inl rfl)
      · exact .wireguard (.inr rfl)
      · exact .amneziawg
    · exact .port (List.mem_zipIdx_iff_getElem?.mp hx) (dueAt_iff.mpr (.inl hq))
    · obtain ⟨o, ho, hport⟩ := mem_fingerprints_zipIdx hx
      obtain ⟨hdue, rfl⟩ := mem_junkContacts.mp hq
      rw [hport] at hdue ⊢
      exact .port ho (.junk hdue)
  · intro h
    cases h with
    | geo hgeo hk => exact .inl ⟨hgeo, _, hk, rfl⟩
    | scan => exact .inr (.inl rfl)
    | wireguard h => rcases h with rfl | rfl <;> simp [udpContacts]
    | amneziawg => simp [udpContacts]
    | @port i o q ho hdue =>
      rcases dueAt_iff.mp hdue with hq | hq
      · exact .inr (.inr (.inr (.inl ⟨(o, i), List.mem_zipIdx_iff_getElem?.mpr ho, hq⟩)))
      · obtain ⟨hjunk, rfl⟩ := mem_junkContacts.mp hq
        obtain ⟨pf, hpf, hport⟩ := exists_fingerprint ho
        refine .inr (.inr (.inr (.inr ⟨_, hpf, mem_junkContacts.mpr ⟨?_, ?_⟩⟩)))
        · rw [hport]
          exact hjunk
        · rw [hport]

def Contact.stage : Contact → Nat
  | .resolveHost .. => 1
  | .geo .. => 2
  | .scanTcp .. => 3
  | .wireguardProbe .. | .amneziawgProbe .. => 4
  | .j3Probes .. => 6
  | _ => 5

theorem nodup_stages {l l' : List Contact} (n : Nat) (hl : l.Nodup) (hl' : l'.Nodup)
    (hle : ∀ q ∈ l, q.stage ≤ n) (hlt : ∀ q ∈ l', n < q.stage) : (l ++ l').Nodup :=
  List.nodup_append.mpr ⟨hl, hl', fun q hq q' hq' heq =>
    absurd (hlt q' hq') (Nat.not_lt.mpr (heq ▸ hle q hq))⟩

theorem stage_portContacts (h : q ∈ portContacts world c dns i o) : q.stage = 5 := by
  simp only [portContacts, tlsContacts, List.mem_append, List.mem_ite_nil_right, List.mem_cons,
    List.not_mem_nil, or_false, mem_ctContacts] at h
  rcases h with ⟨-, rfl⟩ | ⟨-, rfl | ⟨-, rfl | ⟨-, -, rfl⟩ | rfl⟩⟩ | ⟨-, rfl | rfl⟩ | ⟨-, rfl⟩ <;>
    rfl

theorem stage_junkContacts {x : PortFp × Nat} (h : q ∈ junkContacts dns x) : q.stage = 6 := by
  obtain ⟨-, rfl⟩ := mem_junkContacts.mp h
  rfl

theorem nodup_geoContacts : (geoContacts c dns).Nodup := by
  have hinj : Function.Injective fun k => Contact.geo k dns.primaryIp := fun k k' h => by
    injection h
  have hmap := (List.nodup_zipIdx_map_snd geoSources).map hinj
  rw [List.map_map] at hmap
  unfold geoContacts
  split_ifs
  · exact List.nodup_nil
  · exact hmap

theorem nodup_asked_gather (R : FullReport) :
    ((Asking.gather c R).asked world).Nodup ∧
      ∀ q ∈ (Asking.gather c R).asked world, 1 < q.stage := by
  have hgeo : ∀ q ∈ geoContacts c R.dns, q.stage = 2 := fun q hq => by
    obtain ⟨-, k, -, rfl⟩ := mem_geoContacts.mp hq
    rfl
  have hudp : ∀ q ∈ udpContacts R.dns, q.stage = 4 := by simp [udpContacts, Contact.stage]
  have hports : ∀ q ∈ (openTcp world c R.dns).zipIdx.flatMap fun x =>
      portContacts world c R.dns x.2 x.1, q.stage = 5 := fun q hq => by
    obtain ⟨x, -, hx⟩ := List.mem_flatMap.mp hq
    exact stage_portContacts hx
  have hjunk : ∀ q ∈ (fingerprints world c R.dns).zipIdx.flatMap (junkContacts R.dns),
      q.stage = 6 := fun q hq => by
    obtain ⟨x, -, hx⟩ := List.mem_flatMap.mp hq
    exact stage_junkContacts hx
  have hnodupPorts : ((openTcp world c R.dns).zipIdx.flatMap fun x =>
      portContacts world c R.dns x.2 x.1).Nodup :=
    nodup_positions (fun _ => nodup_portContacts)
      (fun x q hq => (dueAt_iff.mpr (.inl hq)).position) _
  have hnodupJunk : ((fingerprints world c R.dns).zipIdx.flatMap (junkContacts R.dns)).Nodup :=
    nodup_positions nodup_junkContacts
      (fun x q hq => by rw [(mem_junkContacts.mp hq).2]; rfl) _
  have hlate : ∀ q ∈ ((openTcp world c R.dns).zipIdx.flatMap fun x =>
      portContacts world c R.dns x.2 x.1) ++
        (fingerprints world c R.dns).zipIdx.flatMap (junkContacts R.dns), 4 < q.stage := by
    intro q hq
    rcases List.mem_append.mp hq with hq | hq
    · rw [hports q hq]
      decide
    · rw [hjunk q hq]
      decide
  have hafter : ∀ q ∈ udpContacts R.dns ++ _, 3 < q.stage := fun q hq => by
    rcases List.mem_append.mp hq with hq | hq
    · rw [hudp q hq]
      decide
    · exact (hlate q hq).trans' (by decide)
  have hnodup := nodup_stages 4 (by simp [udpContacts])
    (nodup_stages 5 hnodupPorts hnodupJunk (fun q hq => (hports q hq).le)
      fun q hq => by rw [hjunk q hq]; decide)
    (fun q hq => (hudp q hq).le) hlate
  rw [Asking.asked_gather]
  refine ⟨nodup_stages 2 nodup_geoContacts (List.nodup_cons.mpr ⟨fun h => ?_, hnodup⟩)
    (fun q hq => (hgeo q hq).le) (List.forall_mem_cons.mpr ⟨Nat.lt_succ_self 2, fun q hq => ?_⟩),
    fun q hq => ?_⟩
  · exact absurd (hafter _ h) (Nat.lt_irrefl 3)
  · exact (hafter q hq).trans' (by decide)
  · rcases List.mem_append.mp hq with hq | hq
    · rw [hgeo q hq]
      decide
    · rcases List.mem_cons.mp hq with rfl | hq
      · exact (by decide : 1 < 3)
      · exact (hafter q hq).trans' (by decide)

end

def FullCheck (world : World) (c : Config) (target : Bytes) (q : Contact) : Prop :=
  q = .resolveHost target ∨
    (world (.resolveHost target)).err = [] ∧ Due world c (world (.resolveHost target)) q

theorem Asking.asked_runFullTarget (world : World) (c : Config) (target : Bytes) :
    (runFullTarget c target).asked world = .resolveHost target ::
      if !(world (.resolveHost target)).err.isEmpty then []
      else (gather c { target, dns := world (.resolveHost target) }).asked world := by
  refine (asked_contact_bind _ _ _).trans (congrArg _ ?_)
  rw [Query.asked_ite, Query.asked_bind]
  simp only [Query.asked_pure, List.append_nil]

theorem mem_asked_runFullTarget {world : World} {c : Config} {target : Bytes} {q : Contact} :
    q ∈ (Asking.runFullTarget c target).asked world ↔ FullCheck world c target q := by
  rw [Asking.asked_runFullTarget, List.mem_cons]
  refine or_congr_right ?_
  cases (world (.resolveHost target)).err with
  | nil => simp [mem_asked_gather]
  | cons e err => simp

/-- The full check asks exactly for what is due, each thing once, and makes the
report out of the answers. What anyone else would have answered has no
influence on it. -/
theorem fullTarget_contacts (world : World) (c : Config) (target : Bytes) :
    let check := Asking.runFullTarget c target
    check.run world = runFullTarget (world.probes c) target ∧
    (∀ q, q ∈ check.asked world ↔ FullCheck world c target q) ∧
    (check.asked world).Nodup ∧
    ∀ world' : World, (∀ q ∈ check.asked world, world' q = world q) →
      runFullTarget (world'.probes c) target = runFullTarget (world.probes c) target := by
  intro check
  have hrun := fun w : World => Asking.run_runFullTarget w c target
  refine ⟨hrun world, fun q => mem_asked_runFullTarget, ?_, fun world' h => ?_⟩
  · rw [Asking.asked_runFullTarget]
    split_ifs
    · exact List.nodup_singleton _
    · obtain ⟨hnodup, hstage⟩ := nodup_asked_gather { target, dns := world (.resolveHost target) }
      exact List.nodup_cons.mpr ⟨fun h => absurd (hstage _ h) (Nat.lt_irrefl 1), hnodup⟩
  · rw [← hrun, ← hrun]
    exact (Query.run_frame h).1

end ByeByeVpn
