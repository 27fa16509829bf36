import ByeByeVpn.Cli.Footprint
import ByeByeVpn.Cli.NofileLimit
import ByeByeVpn.Cli.PrivacyOptions

/-!
# The commands (`main.cpp`)

The first positional argument is a command or the target of a full check. A
saved report is named after the target, which is read from the arguments in
another place than the one that dispatches.
-/

namespace ByeByeVpn

-- ---------------------------------------------------------------------------
-- The saved report
-- ---------------------------------------------------------------------------

def commandWords : List Bytes :=
  ["scan", "full", "ports", "udp", "tls", "j3", "geoip", "help"].map ascii

def extractTargetArg (pos : List Bytes) : Bytes :=
  match pos with
  | [] => []
  | cmd :: rest =>
    match commandWords.contains cmd, rest with
    | true, target :: _ => if cmd = ascii "help" then [] else target
    | _, _ => if cmd = ascii "help" then [] else cmd

/-- The characters that are not kept in a file name. -/
def isFileUnsafe (c : UInt8) : Bool :=
  c == chr ':' || c == chr '/' || c == chr '\\' || c == chr '*' || c == chr '?' || c == chr '"' ||
    c == chr '<' || c == chr '>' || c == chr '|'

def safeName (target : Bytes) : Bytes := target.map fun c => if isFileUnsafe c then chr '_' else c

def defaultSavePathForTarget (target : Bytes) : Bytes :=
  if target.isEmpty then ascii "byebyevpn-scan.md"
  else ascii "byebyevpn-" ++ safeName target ++ ascii ".md"

/-- The path that the report is saved under, if it was asked for. -/
def savePath (c : Config) : Option Bytes :=
  if c.saveRequested then
    let target := extractTargetArg c.pos
    some (if c.savePath.isEmpty then defaultSavePathForTarget target else c.savePath)
  else none

-- ---------------------------------------------------------------------------
-- The commands
-- ---------------------------------------------------------------------------

inductive Shown
  | nothing
  | report (R : FullReport) (tspu : Option Tspu)
  | ports (found : List TcpOpen)
  | udp (results : List UdpResult)
  | tls (tp : TlsProbe) (sc : Option SniConsistency)
  | junk (probes : List J3Result)
  | geo (geos : List GeoInfo)

structure Ended where
  exit : Exit := ⟨0, []⟩
  shown : Shown := .nothing

namespace Asking

/-- `rs.primary_ip.empty() ? target : rs.primary_ip` -/
def addressOf (target : Bytes) : Asking Bytes := do
  let rs ← contact (.resolveHost target)
  pure (if rs.primaryIp.isEmpty then target else rs.primaryIp)

def showUdpWg (ip : Bytes) : Asking Shown := do
  let u₁ ← contact (.wireguardProbe ip 51820)
  let u₂ ← contact (.wireguardProbe ip 41641)
  let u₃ ← contact (.amneziawgProbe ip 55555)
  pure (.udp [u₁, u₂, u₃])

/-- The seven services, which the options do not keep from this. -/
def lookUpGeo (ip : Bytes) : Asking Shown := do
  let geos ← geoSources.zipIdx.mapM fun x => (safeGetGeo · x.1) <$> contact (.geo x.2 ip)
  pure (.geo geos)

def fullCheck (c : Config) (target : Bytes) : Asking Shown := do
  let r ← runFullTarget c target
  pure (.report r.1 r.2)

def showPorts (c : Config) (ip : Bytes) : Asking Shown := do
  let scan ← contact (.scanTcp ip (buildTcpPorts c.toPortConfig) c.threads c.tcpTo)
  pure (.ports scan.1)

/-- The handshake, and if it succeeds the comparison of the certificates. -/
def showTls (ip : Bytes) (port : Int) (target : Bytes) : Asking Ended := do
  let tp ← contact (.tlsProbe 0 ip port target)
  if tp.ok then do
    let sc ← contact (.sniConsistency 0 ip port target)
    pure { shown := .tls tp (some sc) }
  else pure { exit := ⟨1, []⟩, shown := .tls tp none }

def showJunk (ip : Bytes) (port : Int) : Asking Shown := do
  let probes ← contact (.j3Probes 0 ip port)
  pure (.junk probes)

end Asking

/-- The port that a command is given, and the error if it is none. -/
def commandPort (rest : List Bytes) : Except Exit Int :=
  match rest with
  | [] => .ok 443
  | s :: _ =>
    match tryParseInt s kMinPortNumber kMaxPortNumber with
    | some port => .ok port
    | none =>
      .error ⟨2, ascii "Error: invalid port '" ++ s ++ ascii "' (expected 1-65535)\n"⟩

namespace Asking

def showing (m : Asking Shown) : Asking Ended := (fun shown => { shown }) <$> m

/-- `if (pos.size() < 2)` -/
def needTarget (args : List Bytes) (run : Bytes → List Bytes → Asking Ended) : Asking Ended :=
  match args with
  | [] => pure { exit := ⟨2, []⟩ }
  | target :: rest => run target rest

/-- The port is read before anyone is contacted. -/
def withPort (rest : List Bytes) (run : Int → Asking Ended) : Asking Ended :=
  match commandPort rest with
  | .ok port => run port
  | .error e => pure { exit := e }

def dispatch (c : Config) (cmd : Bytes) (args : List Bytes) : Asking Ended :=
  if cmd = ascii "scan" ∨ cmd = ascii "full" then
    needTarget args fun target _ => showing (fullCheck c target)
  else if cmd = ascii "ports" then
    needTarget args fun target _ => addressOf target >>= fun ip => showing (showPorts c ip)
  else if cmd = ascii "udp" then
    needTarget args fun target _ => addressOf target >>= fun ip => showing (showUdpWg ip)
  else if cmd = ascii "tls" then
    needTarget args fun target rest => withPort rest fun port =>
      addressOf target >>= fun ip => showTls ip port target
  else if cmd = ascii "j3" then
    needTarget args fun target rest => withPort rest fun port =>
      addressOf target >>= fun ip => showing (showJunk ip port)
  else if cmd = ascii "geoip" then showing (lookUpGeo (args.headD []))
  else if cmd = ascii "help" then pure {}
  else showing (fullCheck c cmd)

end Asking

-- ---------------------------------------------------------------------------
-- Who is contacted
-- ---------------------------------------------------------------------------

def Contact.address : Contact → Option Bytes
  | .resolveHost .. | .geo .. | .httpGet .. => none
  | .scanTcp ip .. | .wireguardProbe ip .. | .amneziawgProbe ip .. | .fpSsh _ _ ip ..
  | .tlsProbe _ ip .. | .sniConsistency _ ip .. | .httpsProbe _ ip .. | .fpHttpPlain _ ip ..
  | .fpHttpConnect _ ip .. | .fpSocks5 _ ip .. | .j3Probes _ ip .. => some ip

/-- The contacts with services that are told about the target. -/
def Contact.thirdParty : Contact → Bool
  | .geo .. | .httpGet .. => true
  | _ => false

def UsedFor (world : World) (target ip : Bytes) : Prop :=
  ip = (world (.resolveHost target)).primaryIp ∨
    (world (.resolveHost target)).primaryIp = [] ∧ ip = target

structure Fair (world : World) (c : Config) (target : Bytes) (q : Contact) : Prop where
  name : ∀ name, q = .resolveHost name → name = target
  address : ∀ ip, q.address = some ip → UsedFor world target ip
  geo : ∀ k ip, q = .geo k ip → c.noGeoip = false
  ct : ∀ i url timeoutMs, q = .httpGet i url timeoutMs → c.noCt = false

variable {world : World} {c : Config} {target : Bytes} {q : Contact}

theorem Fair.resolve : Fair world c target (.resolveHost target) := by
  refine ⟨fun name h => ?_, nofun, nofun, nofun⟩
  injection h with h
  exact h.symm

theorem Fair.of_address {ip : Bytes} (h : q.address = some ip) (hip : UsedFor world target ip) :
    Fair world c target q := by
  refine ⟨fun name hq => ?_, fun ip' h' => ?_, fun k ip hq => ?_, fun i url t hq => ?_⟩
  · rw [hq] at h
    cases h
  · obtain rfl := Option.some.inj (h.symm.trans h')
    exact hip
  · rw [hq] at h
    cases h
  · rw [hq] at h
    cases h

theorem Fair.of_due (h : Due world c (world (.resolveHost target)) q) : Fair world c target q := by
  have hip : UsedFor world target (world (.resolveHost target)).primaryIp := .inl rfl
  cases h with
  | geo hgeo _ => exact ⟨nofun, nofun, fun _ _ _ => hgeo, nofun⟩
  | scan => exact .of_address rfl hip
  | wireguard _ => exact .of_address rfl hip
  | amneziawg => exact .of_address rfl hip
  | port _ hdue =>
    cases hdue with
    | ct _ hct _ => exact ⟨nofun, nofun, nofun, fun _ _ _ _ => hct⟩
    | _ => exact .of_address rfl hip

theorem fair_runFullTarget (h : q ∈ (Asking.runFullTarget c target).asked world) :
    Fair world c target q := by
  rcases mem_asked_runFullTarget.mp h with rfl | ⟨-, hdue⟩
  · exact .resolve
  · exact .of_due hdue

theorem fair_addressOf {α : Type} {rest : Bytes → Asking α}
    (hrest : ∀ ip, ∀ q ∈ (rest ip).asked world, q.address = some ip)
    (h : q ∈ (Asking.addressOf target >>= rest).asked world) : Fair world c target q := by
  rw [Query.asked_bind] at h
  rcases List.mem_append.mp h with h | h
  · obtain rfl := List.mem_singleton.mp h
    exact .resolve
  · refine .of_address (hrest _ q h) ?_
    change UsedFor world target (if _ then _ else _)
    split_ifs with hip
    · exact .inr ⟨List.isEmpty_iff.mp hip, rfl⟩
    · exact .inl rfl

theorem extractTargetArg_command {cmd : Bytes} (rest : List Bytes)
    (hcmd : commandWords.contains cmd = true) (hhelp : cmd ≠ ascii "help") :
    extractTargetArg (cmd :: target :: rest) = target := by
  simp only [extractTargetArg, hcmd, if_neg hhelp]

theorem extractTargetArg_other {cmd : Bytes} (args : List Bytes)
    (hcmd : commandWords.contains cmd = false) : extractTargetArg (cmd :: args) = cmd := by
  have hhelp : cmd ≠ ascii "help" := by
    rintro rfl
    revert hcmd
    decide
  simp only [extractTargetArg, hcmd, if_neg hhelp]

theorem fair_needTarget {cmd : Bytes} {args : List Bytes}
    {run : Bytes → List Bytes → Asking Ended} (hcmd : commandWords.contains cmd = true)
    (hhelp : cmd ≠ ascii "help")
    (hrun : ∀ target rest, ∀ q ∈ (run target rest).asked world, Fair world c target q)
    (h : q ∈ (Asking.needTarget args run).asked world) :
    Fair world c (extractTargetArg (cmd :: args)) q := by
  cases args with
  | nil => cases h
  | cons target rest =>
    rw [extractTargetArg_command rest hcmd hhelp]
    exact hrun target rest q h

theorem fair_withPort {rest : List Bytes} {run : Int → Asking Ended}
    (hrun : ∀ port, ∀ q ∈ (run port).asked world, Fair world c target q)
    (h : q ∈ (Asking.withPort rest run).asked world) : Fair world c target q := by
  unfold Asking.withPort at h
  cases hport : commandPort rest with
  | ok port =>
    rw [hport] at h
    exact hrun port q h
  | error e =>
    rw [hport] at h
    cases h

theorem Asking.address_showTls {ip : Bytes} {port : Int}
    (h : q ∈ (showTls ip port target).asked world) : q.address = some ip := by
  rw [showTls, asked_contact_bind, Query.asked_ite] at h
  split_ifs at h
  · have hlist : q ∈ [Contact.tlsProbe 0 ip port target, .sniConsistency 0 ip port target] := h
    simp only [List.mem_cons, List.not_mem_nil, or_false] at hlist
    rcases hlist with rfl | rfl <;> rfl
  · obtain rfl := List.mem_singleton.mp h
    rfl

theorem Asking.address_showPorts {ip : Bytes} (h : q ∈ (showPorts c ip).asked world) :
    q.address = some ip := by
  obtain rfl := List.mem_singleton.mp h
  rfl

theorem Asking.address_showUdpWg {ip : Bytes} (h : q ∈ (showUdpWg ip).asked world) :
    q.address = some ip := by
  have hlist : q ∈ [Contact.wireguardProbe ip 51820, .wireguardProbe ip 41641,
    .amneziawgProbe ip 55555] := h
  simp only [List.mem_cons, List.not_mem_nil, or_false] at hlist
  rcases hlist with rfl | rfl | rfl <;> rfl

theorem Asking.address_showJunk {ip : Bytes} {port : Int} (h : q ∈ (showJunk ip port).asked world) :
    q.address = some ip := by
  obtain rfl := List.mem_singleton.mp h
  rfl

theorem fair_fullCheck (h : q ∈ (Asking.fullCheck c target).asked world) :
    Fair world c target q :=
  fair_runFullTarget (by simpa [Asking.fullCheck] using h)

@[simp] theorem Asking.asked_showing (m : Asking Shown) :
    (showing m).asked world = m.asked world := Query.asked_map ..

theorem fair_dispatch {cmd : Bytes} (args : List Bytes) (hgeoip : cmd ≠ ascii "geoip")
    (h : q ∈ (Asking.dispatch c cmd args).asked world) :
    Fair world c (extractTargetArg (cmd :: args)) q := by
  unfold Asking.dispatch at h
  split_ifs at h with hfull hports hudp htls hj3 hhelp
  · refine fair_needTarget ?_ ?_ (fun target rest q h => ?_) h
    · rcases hfull with rfl | rfl <;> rfl
    · rcases hfull with rfl | rfl <;> decide
    · exact fair_fullCheck (Asking.asked_showing _ ▸ h)
  · subst hports
    refine fair_needTarget rfl (by decide) (fun target rest q h => ?_) h
    exact fair_addressOf (fun ip q hq => Asking.address_showPorts (Asking.asked_showing _ ▸ hq)) h
  · subst hudp
    refine fair_needTarget rfl (by decide) (fun target rest q h => ?_) h
    exact fair_addressOf (fun ip q hq => Asking.address_showUdpWg (Asking.asked_showing _ ▸ hq)) h
  · subst htls
    refine fair_needTarget rfl (by decide) (fun target rest q h => ?_) h
    refine fair_withPort (fun port q h => fair_addressOf (fun ip q hq => ?_) h) h
    exact Asking.address_showTls hq
  · subst hj3
    refine fair_needTarget rfl (by decide) (fun target rest q h => ?_) h
    refine fair_withPort (fun port q h => fair_addressOf (fun ip q hq => ?_) h) h
    exact Asking.address_showJunk (Asking.asked_showing _ ▸ hq)
  · cases h
  · have hcmd : commandWords.contains cmd = false := by
      simp_all [commandWords]
    rw [extractTargetArg_other args hcmd]
    exact fair_fullCheck (Asking.asked_showing _ ▸ h)

theorem mem_lookUpGeo {ip : Bytes} : q ∈ (Asking.lookUpGeo ip).asked world ↔
    ∃ k < geoSources.length, q = .geo k ip := by
  have h : (Asking.lookUpGeo ip).asked world = geoContacts {} { primaryIp := ip } := by
    rw [Asking.lookUpGeo, Query.asked_bind, Query.asked_mapM]
    simp only [Query.asked_pure, List.append_nil]
    rfl
  rw [h, mem_geoContacts]
  simp

theorem mem_dispatch_geoip {args : List Bytes} :
    q ∈ (Asking.dispatch c (ascii "geoip") args).asked world ↔
      ∃ k < geoSources.length, q = .geo k (args.headD []) := by
  have h : (Asking.dispatch c (ascii "geoip") args).asked world =
    (Asking.lookUpGeo (args.headD [])).asked world := Query.asked_map world _ _
  rw [h, mem_lookUpGeo]

-- ---------------------------------------------------------------------------
-- The exit code
-- ---------------------------------------------------------------------------

variable {args rest : List Bytes}

theorem Asking.needTarget_cases {P : Asking Ended → Prop} {run : Bytes → List Bytes → Asking Ended}
    (hnone : P (pure { exit := ⟨2, []⟩ })) (hrun : ∀ target rest, P (run target rest)) :
    P (needTarget args run) := by
  cases args with
  | nil => exact hnone
  | cons target rest => exact hrun target rest

theorem Asking.withPort_cases {P : Asking Ended → Prop} {run : Int → Asking Ended}
    (herror : ∀ message, P (pure { exit := ⟨2, message⟩ })) (hrun : ∀ port, P (run port)) :
    P (withPort rest run) := by
  unfold withPort commandPort
  cases rest with
  | nil => exact hrun 443
  | cons s rest =>
    dsimp only
    cases tryParseInt s kMinPortNumber kMaxPortNumber with
    | some port => exact hrun port
    | none => exact herror _

def TwoIfQuiet (world : World) (m : Asking Ended) : Prop :=
  m.asked world = [] ↔ (m.run world).exit.code = 2

theorem twoIfQuiet_asks {m : Asking Ended} (hasked : m.asked world ≠ [])
    (hcode : (m.run world).exit.code ≠ 2) : TwoIfQuiet world m := iff_of_false hasked hcode

theorem twoIfQuiet_error (message : Bytes) : TwoIfQuiet world (pure { exit := ⟨2, message⟩ }) :=
  iff_of_true rfl rfl

def FailedHandshake (world : World) : Contact → Prop
  | .tlsProbe i ip port sni => (world (.tlsProbe i ip port sni)).ok = false
  | _ => False

theorem quiet_showing {m : Asking Shown} (h : m.asked world ≠ []) :
    TwoIfQuiet world (Asking.showing m) := by
  refine twoIfQuiet_asks ?_ ?_
  · rw [Asking.showing, Query.asked_map]
    exact h
  · simp [Asking.showing]

theorem quiet_dispatch {cmd : Bytes} (hhelp : cmd ≠ ascii "help") :
    TwoIfQuiet world (Asking.dispatch c cmd args) := by
  have hcheck (target : Bytes) : (Asking.fullCheck c target).asked world ≠ [] := by
    simp [Asking.fullCheck, Asking.asked_runFullTarget]
  unfold Asking.dispatch
  split_ifs
  · exact Asking.needTarget_cases (twoIfQuiet_error []) fun target _ => quiet_showing (hcheck _)
  · refine Asking.needTarget_cases (twoIfQuiet_error []) fun target _ => ?_
    exact twoIfQuiet_asks (List.cons_ne_nil _ _) (by simp [Asking.showing])
  · refine Asking.needTarget_cases (twoIfQuiet_error []) fun target _ => ?_
    exact twoIfQuiet_asks (List.cons_ne_nil _ _) (by simp [Asking.showing])
  · refine Asking.needTarget_cases (twoIfQuiet_error []) fun target rest => ?_
    refine Asking.withPort_cases twoIfQuiet_error fun port => ?_
    refine twoIfQuiet_asks (List.cons_ne_nil _ _) ?_
    simp only [Asking.showTls, Query.run_bind, Query.run_ite, Query.run_pure]
    split_ifs <;> simp
  · refine Asking.needTarget_cases (twoIfQuiet_error []) fun target rest => ?_
    refine Asking.withPort_cases twoIfQuiet_error fun port => ?_
    exact twoIfQuiet_asks (List.cons_ne_nil _ _) (by simp [Asking.showing])
  · exact quiet_showing (List.cons_ne_nil _ _)
  · exact quiet_showing (hcheck _)

def OneIfFailed (world : World) (m : Asking Ended) : Prop :=
  (m.run world).exit.code = 1 ↔ ∃ q ∈ m.asked world, FailedHandshake world q

theorem oneIfFailed_error (message : Bytes) :
    OneIfFailed world (pure { exit := ⟨2, message⟩ }) := by
  simp [OneIfFailed]

theorem Asking.oneIfFailed_showTls {ip : Bytes} {port : Int} :
    OneIfFailed world (showTls ip port target) := by
  rw [OneIfFailed, showTls, asked_contact_bind, Query.asked_ite, Query.run_bind, Query.run_ite]
  change (if (world (.tlsProbe 0 ip port target)).ok then (_ : Ended) else _).exit.code = 1 ↔
    ∃ q ∈ Contact.tlsProbe 0 ip port target ::
      if (world (.tlsProbe 0 ip port target)).ok then [.sniConsistency 0 ip port target] else [],
      FailedHandshake world q
  cases hok : (world (.tlsProbe 0 ip port target)).ok <;> simp [FailedHandshake, hok]

theorem oneIfFailed_tls : OneIfFailed world (Asking.dispatch c (ascii "tls") args) := by
  have htls : Asking.dispatch c (ascii "tls") args =
      Asking.needTarget args fun target rest => Asking.withPort rest fun port =>
        Asking.addressOf target >>= fun ip => Asking.showTls ip port target := rfl
  rw [htls]
  refine Asking.needTarget_cases (oneIfFailed_error []) fun target rest => ?_
  refine Asking.withPort_cases oneIfFailed_error fun port => ?_
  have hresolve : ∀ q ∈ (Asking.addressOf target).asked world, ¬FailedHandshake world q :=
    fun q hq => by
      obtain rfl := List.mem_singleton.mp hq
      exact id
  have hshow : OneIfFailed world
      (Asking.showTls ((Asking.addressOf target).run world) port target) :=
    Asking.oneIfFailed_showTls
  rw [OneIfFailed, Query.run_bind, Query.asked_bind]
  refine hshow.trans ?_
  grind

theorem code_dispatch {cmd : Bytes} (htls : cmd ≠ ascii "tls") :
    ((Asking.dispatch c cmd args).run world).exit.code ≠ 1 := by
  have herror (message : Bytes) :
      ((pure { exit := ⟨2, message⟩ } : Asking Ended).run world).exit.code ≠ 1 := by simp
  have htarget (run : Bytes → List Bytes → Asking Ended)
      (h : ∀ target rest, ((run target rest).run world).exit.code ≠ 1) :
      ((Asking.needTarget args run).run world).exit.code ≠ 1 :=
    Asking.needTarget_cases (P := fun m => (m.run world).exit.code ≠ 1) (herror []) h
  have hshowing (m : Asking Shown) : ((Asking.showing m).run world).exit.code ≠ 1 := by
    simp [Asking.showing]
  unfold Asking.dispatch
  split_ifs
  · exact htarget _ fun target rest => hshowing _
  · exact htarget _ fun target rest => by simp [hshowing]
  · exact htarget _ fun target rest => by simp [hshowing]
  · refine htarget _ fun target rest => ?_
    exact Asking.withPort_cases (P := fun m => (m.run world).exit.code ≠ 1) herror
      fun port => by simp [hshowing]
  · exact hshowing _
  · simp
  · exact hshowing _

theorem privacy_clamp (lim : Option UInt64) (c : Config) :
    (clampThreadsToNofileLimit lim c).1.privacy = c.privacy := by
  unfold clampThreadsToNofileLimit
  cases lim with
  | none => rfl
  | some rlimCur =>
    dsimp only
    split_ifs <;> rfl

theorem Fair.not_thirdParty (h : Fair world c target q) (hgeo : c.noGeoip = true)
    (hct : c.noCt = true) : q.thirdParty = false := by
  cases q with
  | geo k ip => exact absurd (h.geo k ip rfl) (by simp [hgeo])
  | httpGet i url t => exact absurd (h.ct i url t rfl) (by simp [hct])
  | _ => rfl

/-- With `--stealth` anywhere among the arguments, a command other than
`geoip` contacts none of the services, and what these would answer changes
neither what it shows, nor its exit code, nor whom else it contacts. -/
theorem stealth_contacts (args rest : List Bytes) (cmd : Bytes) (c : Config) (lim : Option UInt64)
    (hc : parseArgs {} args = .ok c) (hstealth : kStealth ∈ args) (hcmd : cmd ≠ ascii "geoip")
    (world world' : World) (hsame : ∀ q, q.thirdParty = false → world' q = world q) :
    let m := Asking.dispatch (clampThreadsToNofileLimit lim c).1 cmd rest
    (∀ q ∈ m.asked world, q.thirdParty = false) ∧
      m.run world' = m.run world ∧ m.asked world' = m.asked world := by
  intro m
  have hprivacy := (privacy_clamp lim c).trans ((privacy_parseArgs hc).trans (foldl_word args _))
  simp only [Config.privacy, Privacy.mk.injEq] at hprivacy
  have hnone : ∀ q ∈ m.asked world, q.thirdParty = false := fun q hq =>
    (fair_dispatch rest hcmd hq).not_thirdParty (by simp [hprivacy, hstealth])
      (by simp [hprivacy, hstealth])
  exact ⟨hnone, Query.run_frame fun q hq => hsame q (hnone q hq)⟩

def silentWorld : World
  | .resolveHost name => { host := name, primaryIp := ascii "192.0.2.1" }
  | .geo .. => .error none
  | .scanTcp .. => ([], {})
  | .wireguardProbe .. | .amneziawgProbe .. => {}
  | .fpSsh .. | .fpHttpPlain .. | .fpHttpConnect .. | .fpSocks5 .. => {}
  | .tlsProbe .. => {}
  | .sniConsistency .. => {}
  | .httpGet .. => {}
  | .httpsProbe .. => {}
  | .j3Probes .. => []

def gossipWorld : World
  | .geo .. => .ok { isHosting := true }
  | q => silentWorld q

theorem stealth_contacts_gossip : ∃ c, parseArgs {} stealthyArgs = .ok c ∧
    (Asking.dispatch (clampThreadsToNofileLimit none c).1 (ascii "192.0.2.1") []).run gossipWorld =
      (Asking.dispatch (clampThreadsToNofileLimit none c).1 (ascii "192.0.2.1") []).run
        silentWorld := by
  have h : parseArgs {} stealthyArgs = .ok _ := rfl
  refine ⟨_, h, (stealth_contacts stealthyArgs [] _ _ none h (by decide) (by decide) silentWorld
    gossipWorld fun q hq => ?_).2.1⟩
  cases q with
  | geo k ip => cases hq
  | _ => rfl

end ByeByeVpn
