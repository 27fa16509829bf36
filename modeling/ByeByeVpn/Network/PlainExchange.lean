import ByeByeVpn.Network.CannedReplies
import ByeByeVpn.Network.HttpsSession
import ByeByeVpn.Network.ServiceProbes
import ByeByeVpn.Network.TlsHelloProbe

/-!
# Plain exchanges (`network/service_probes.cpp`, `network/j3_probes.cpp`)

The fingerprints and the junk probes connect, send their bytes in the clear
and receive once. What the system and the peer answer is data.
-/

namespace ByeByeVpn

open TlsClient Session

structure PlainNet where
  addresses : Option (List Candidate)
  sent : List Int
  /-- What is there when `recv` is called; nothing if it fails. -/
  received : Bytes
  ms : Int

def tcpRecvTo (received : Bytes) (max : Nat) (timeoutMs : Int) : Session Call Bytes := do
  call (.setTimeouts timeoutMs)
  call .recv
  return received.take max

/-- Nothing if the bytes were not sent, and no bytes if none came back. -/
def exchange (net : PlainNet) (tcpTo : Int) (data : Bytes) (max : Nat) (timeoutMs : Int) :
    Session Call (Option Bytes) :=
  if (tcpConnect net.addresses tcpTo []).socket = INVALID_SOCKET then return none
  else within .connect .close do
    let sent ← tcpSendAll net.sent data
    if sent ≠ data.length then return none
    else do
      let got ← tcpRecvTo net.received max timeoutMs
      return some got

-- ---------------------------------------------------------------------------
-- Fingerprints
-- ---------------------------------------------------------------------------

def nonempty (got : Option Bytes) : Option Bytes := got.filter fun b => !b.isEmpty

def connectRequest : Bytes :=
  ascii "CONNECT example.com:443 HTTP/1.1\r\nHost: example.com:443\r\n" ++
    ascii "Proxy-Connection: keep-alive\r\n\r\n"

def socksGreeting : Bytes := [0x05, 0x02, 0x00, 0x02]

def httpPlainSession (net : PlainNet) (tcpTo : Int) (host : Bytes) : Session Call FpResult := do
  let got ← exchange net tcpTo (startPageRequest host host) 2047 1500
  return fpHttpPlain (nonempty got)

def sshSession (net : PlainNet) (tcpTo : Int) (bannerHint : Bytes) : Session Call FpResult :=
  if bannerHint.isEmpty || !startsWith bannerHint (ascii "SSH-") then do
    let got ← exchange net tcpTo [] 255 1500
    return fpSsh bannerHint (nonempty got)
  else return fpSsh bannerHint none

def socksSession (net : PlainNet) (tcpTo : Int) : Session Call ProxyFp := do
  let got ← exchange net tcpTo socksGreeting 8 1200
  return fpSocks5 (nonempty got)

def httpConnectSession (net : PlainNet) (tcpTo : Int) : Session Call ProxyFp := do
  let got ← exchange net tcpTo connectRequest 511 1500
  return fpHttpConnect (nonempty got)

-- ---------------------------------------------------------------------------
-- Junk
-- ---------------------------------------------------------------------------

/-- The result of a probe with all its fields. -/
structure J3Report extends J3Result where
  hexHead : Bytes := []
  ms : Int := 0

def j3Send (net : PlainNet) (tcpTo : Int) (name data : Bytes) : Session Call J3Report := do
  match ← exchange net tcpTo data 1023 1200 with
  | none => return { name }
  | some [] => return { name, ms := net.ms }
  | some got =>
    return {
      name
      responded := true
      bytes := got.length
      firstLine := firstLine got
      hexHead := hexS true (got.take 16)
      ms := net.ms }

def dotted (s : Bytes) : Bytes := s.map fun c => if 32 ≤ c && c < 127 then c else chr '.'

/-- Probe 1 connects and waits, and shows all that it gets. -/
def emptyClose (net : PlainNet) (tcpTo : Int) : Session Call J3Report := do
  match nonempty (← exchange net tcpTo [] 127 800) with
  | none => return { name := ascii "empty/close" }
  | some got =>
    return {
      name := ascii "empty/close"
      responded := true
      bytes := got.length
      firstLine := dotted got
      hexHead := hexS true (got.take 16) }

structure JunkProbe where
  net : PlainNet
  name : Bytes
  data : Bytes

structure JunkRandom where
  bytes : Fill 512
  hello : Fill 32
  name : Fill 3

/-- The probes behind the first; the random ones are left out without their
bytes. -/
def junkProbes (net : Nat → PlainNet) (host : Bytes) (random : JunkRandom) : List JunkProbe :=
  [⟨net 1, ascii "HTTP GET /", ascii "GET / HTTP/1.1\r\nHost: " ++ host ++
      ascii "\r\nUser-Agent: curl/8.4.0\r\nAccept: */*\r\n\r\n"⟩,
    ⟨net 2, ascii "HTTP CONNECT",
      ascii "CONNECT 1.2.3.4:443 HTTP/1.1\r\nHost: 1.2.3.4\r\n\r\n"⟩,
    ⟨net 3, ascii "SSH banner", ascii "SSH-2.0-OpenSSH_8.9p1\r\n"⟩] ++
  (random.bytes.toList.map fun data => ⟨net 4, ascii "random 512B", data.val⟩) ++
  ((tlsHello random.hello random.name).toList.map fun data =>
    ⟨net 5, ascii "TLS CH invalid-SNI", data⟩) ++
  [⟨net 6, ascii "HTTP abs-URI (proxy-style)",
      ascii "GET http://example.com/ HTTP/1.1\r\nHost: example.com\r\n\r\n"⟩,
    ⟨net 7, ascii "0xFF x128", List.replicate 128 0xFF⟩]

def sendAllJunk (tcpTo : Int) : List JunkProbe → Session Call (List J3Report)
  | [] => return []
  | p :: probes => do
    let r ← j3Send p.net tcpTo p.name p.data
    let out ← sendAllJunk tcpTo probes
    return r :: out

def j3Probes (net : Nat → PlainNet) (tcpTo : Int) (host : Bytes) (random : JunkRandom) :
    Session Call (List J3Report) := do
  let r ← emptyClose (net 0) tcpTo
  let out ← sendAllJunk tcpTo (junkProbes net host random)
  return r :: out

-- ---------------------------------------------------------------------------
-- One exchange
-- ---------------------------------------------------------------------------

/-- The calls of an exchange with what it returns. Where no connection comes
about there is no call; else the data is sent, and if all of it was taken there
is one `recv`. -/
inductive Converses (data : Bytes) (timeoutMs : Int) : List Call → Option (Option Bytes) → Prop
  | unconnected : Converses data timeoutMs [] (some none)
  /-- A `send` has not come back. -/
  | sending {calls : List Call} {rest : Bytes} (sends : Sends data calls rest) (left : rest ≠ []) :
      Converses data timeoutMs (.connect :: calls) none
  | unsent {calls : List Call} {rest : Bytes} (sends : Sends data calls rest) (left : rest ≠ [])
      {returned : Int} (failed : returned ≤ 0)
      (last : calls.getLast? = some (.send rest returned)) :
      Converses data timeoutMs (.connect :: (calls ++ [.close])) (some none)
  | heard {calls : List Call} (sends : Sends data calls []) (got : Bytes) :
      Converses data timeoutMs
        (.connect :: (calls ++ [.setTimeouts timeoutMs, .recv] ++ [.close])) (some (some got))

theorem taken_append (calls calls' : List Call) :
    Taken (calls ++ calls') = Taken calls ++ Taken calls' := by
  induction calls with
  | nil => rfl
  | cons c calls ih =>
    rw [List.cons_append]
    cases c with
    | send offered returned => rw [Taken, Taken, ih, List.append_assoc]
    | _ => exact ih

theorem Sends.not_taken {data rest : Bytes} {calls : List Call} (h : Sends data calls rest)
    (hne : rest ≠ []) : Taken calls ≠ data := by
  intro heq
  have htaken := h.taken
  rw [heq] at htaken
  exact hne (List.self_eq_append_right.mp htaken)

theorem Converses.heard_iff {data : Bytes} {timeoutMs : Int} {calls : List Call}
    {result : Option (Option Bytes)} (h : Converses data timeoutMs calls result) :
    (∃ got, result = some (some got)) ↔ calls ≠ [] ∧ Taken calls = data := by
  cases h with
  | unconnected => simp
  | sending sends left => exact iff_of_false (by simp) fun h => sends.not_taken left h.2
  | unsent sends left =>
    refine iff_of_false (by simp) fun h => sends.not_taken left ?_
    have htaken := h.2
    rw [Taken, taken_append, Taken, Taken, List.append_nil] at htaken
    · exact htaken
    all_goals simp
  | heard sends got =>
    refine iff_of_true ⟨got, rfl⟩ ⟨List.cons_ne_nil _ _, ?_⟩
    have htaken := sends.taken
    rw [List.append_nil] at htaken
    simp [Taken, taken_append, ← htaken]

structure Exchanged (net : PlainNet) (data : Bytes) (max : Nat) (timeoutMs : Int)
    (calls : List Call) (result : Option (Option Bytes)) : Prop where
  converses : Converses data timeoutMs calls result
  connects : calls ≠ [] ↔
    ∃ ai, net.addresses = some ai ∧ ∃ c ∈ ai, c.family ≠ .other ∧ c.Connects
  heard : (∃ got, result = some (some got)) ↔ calls ≠ [] ∧ Taken calls = data
  answers : calls.filterMap answer <+: net.sent
  received : ∀ got, result = some (some got) → got = net.received.take max

section
variable {net : PlainNet} {data : Bytes} {max : Nat} {timeoutMs : Int}

theorem tcpConnect_connects_iff (addresses : Option (List Candidate)) (tcpTo : Int) :
    (tcpConnect addresses tcpTo []).socket ≠ INVALID_SOCKET ↔
      ∃ ai, addresses = some ai ∧ ∃ c ∈ ai, c.family ≠ .other ∧ c.Connects := by
  cases addresses with
  | none => simp [tcpConnect]
  | some ai => simp [tcpConnect_valid_iff]

theorem exchange_exchanged (tcpTo : Int) :
    Exchanged net data max timeoutMs (exchange net tcpTo data max timeoutMs).calls
      (exchange net tcpTo data max timeoutMs).result := by
  have hconnects := tcpConnect_connects_iff net.addresses tcpTo
  suffices h : Converses data timeoutMs (exchange net tcpTo data max timeoutMs).calls
        (exchange net tcpTo data max timeoutMs).result ∧
      ((exchange net tcpTo data max timeoutMs).calls ≠ [] ↔
        (tcpConnect net.addresses tcpTo []).socket ≠ INVALID_SOCKET) ∧
      (exchange net tcpTo data max timeoutMs).calls.filterMap answer <+: net.sent ∧
      ∀ got, (exchange net tcpTo data max timeoutMs).result = some (some got) →
        got = net.received.take max from
    ⟨h.1, h.2.1.trans hconnects, h.1.heard_iff, h.2.2.1, h.2.2.2⟩
  unfold exchange
  split_ifs with hsocket
  · exact ⟨.unconnected, iff_of_false (fun h => h rfl) (not_not.mpr hsocket), List.nil_prefix,
      fun got h => by cases h⟩
  have hanswers (calls : List Call) (hnone : calls.filterMap answer = []) :
      (.connect :: ((tcpSendAll net.sent data).calls ++ calls)).filterMap answer <+: net.sent := by
    rw [List.filterMap_cons_none rfl, List.filterMap_append, hnone, List.append_nil]
    exact answers_sendLoop _ _ _
  obtain ⟨rest, hsends, hreturned, hawaits, -⟩ := sendLoop_sends data.length net.sent data
  cases hr : (tcpSendAll net.sent data).result with
  | none =>
    rw [bind_of_none hr, within_of_none rfl]
    refine ⟨.sending hsends (hawaits hr).rest, iff_of_true (List.cons_ne_nil _ _) hsocket, ?_,
      fun got h => by cases h⟩
    simpa using hanswers [] rfl
  | some sent =>
    have hall := (hreturned sent hr).all_iff hsends
    rw [bind_of_some hr]
    by_cases hsent : sent = data.length
    · obtain rfl := hall.mp hsent
      rw [if_neg (not_not.mpr hsent), within_of_some rfl]
      refine ⟨.heard hsends _, iff_of_true (List.cons_ne_nil _ _) hsocket, ?_, fun got h => ?_⟩
      · rw [List.append_assoc]
        exact hanswers _ rfl
      · exact (Option.some.inj (Option.some.inj h)).symm
    · have hne : rest ≠ [] := fun hnil => hsent (hall.mpr hnil)
      obtain ⟨hfailed, hlast⟩ := (hreturned sent hr).failed hne
      rw [if_pos hsent, within_of_some rfl]
      have hcalls : (Pure.pure none : Session Call (Option Bytes)).calls = [] := rfl
      rw [hcalls, List.append_nil]
      exact ⟨.unsent hsends hne hfailed hlast, iff_of_true (List.cons_ne_nil _ _) hsocket,
        hanswers _ rfl, fun got h => by cases h⟩

end

-- ---------------------------------------------------------------------------
-- Fingerprints
-- ---------------------------------------------------------------------------

/-- The run is an exchange of this text, and what is returned is the `report`
of what came back, if anything did. -/
def Fingerprints (session : Session Call ρ) (net : PlainNet) (data : Bytes) (max : Nat)
    (timeoutMs : Int) (report : Option Bytes → ρ) : Prop :=
  ∃ result, Exchanged net data max timeoutMs session.calls result ∧
    session.result = result.map fun reply => report (nonempty reply)

theorem fingerprints_exchange {net : PlainNet} (tcpTo timeoutMs : Int) (data : Bytes) (max : Nat)
    (report : Option Bytes → ρ) :
    Fingerprints (exchange net tcpTo data max timeoutMs >>= fun got =>
      Pure.pure (report (nonempty got))) net data max timeoutMs report := by
  have hexchanged : Exchanged net data max timeoutMs _ _ := exchange_exchanged tcpTo
  refine ⟨(exchange net tcpTo data max timeoutMs).result, ?_⟩
  cases hr : (exchange net tcpTo data max timeoutMs).result with
  | none =>
    rw [bind_of_none hr, ← hr]
    exact ⟨hexchanged, by rw [hr]; rfl⟩
  | some reply =>
    rw [bind_of_some hr, ← hr]
    refine ⟨?_, by rw [hr]; rfl⟩
    rw [show (Pure.pure (report (nonempty reply)) : Session Call ρ).calls = [] from rfl,
      List.append_nil]
    exact hexchanged

structure JunkTalk extends JunkProbe where
  max : Nat
  timeoutMs : Int
  line : Bytes → Bytes

def emptyTalk (net : PlainNet) : JunkTalk :=
  ⟨⟨net, ascii "empty/close", []⟩, 127, 800, dotted⟩

def JunkProbe.talk (p : JunkProbe) : JunkTalk := ⟨p, 1023, 1200, firstLine⟩

/-- The result of the probe of this name for what came back: silent, or the
size, the first line and the first bytes of it. -/
structure J3Report.Shows (r : J3Report) (name : Bytes) (reply : Option Bytes)
    (line : Bytes → Bytes) : Prop where
  name : r.name = name
  silent : nonempty reply = none →
    r.responded = false ∧ r.bytes = 0 ∧ r.firstLine = [] ∧ r.hexHead = []
  reply : ∀ got, nonempty reply = some got → r.responded = true ∧ r.bytes = got.length ∧
    r.firstLine = line got ∧ HexText.read (r.hexHead.filter (· != chr ' ')) = some (got.take 16)

def JunkTalk.Runs (t : JunkTalk) (calls : List Call) (result : Option J3Report) : Prop :=
  ∃ replied, Exchanged t.net t.data t.max t.timeoutMs calls replied ∧
    (result = none ↔ replied = none) ∧
    ∀ r reply, result = some r → replied = some reply → r.Shows t.name reply t.line

/-- The runs of the probes, one after the other, with their results. -/
inductive Junked : List JunkTalk → List Call → Option (List J3Report) → Prop
  | done : Junked [] [] (some [])
  | next {t : JunkTalk} {talks : List JunkTalk} {calls calls' : List Call} {r : J3Report}
      {out : Option (List J3Report)} (first : t.Runs calls (some r))
      (rest : Junked talks calls' out) : Junked (t :: talks) (calls ++ calls') (out.map (r :: ·))
  /-- The probe has not come back. -/
  | waiting {t : JunkTalk} {talks : List JunkTalk} {calls : List Call}
      (first : t.Runs calls none) : Junked (t :: talks) calls none

/-- An exchange whose reply is shown is the run of a probe. -/
theorem JunkTalk.runs_bind {t : JunkTalk} (tcpTo : Int) {f : Option Bytes → Session Call J3Report}
    (hf : ∀ reply, ∃ r, f reply = Pure.pure r ∧ r.Shows t.name reply t.line) :
    t.Runs (exchange t.net tcpTo t.data t.max t.timeoutMs >>= f).calls
      (exchange t.net tcpTo t.data t.max t.timeoutMs >>= f).result := by
  have hexchanged : Exchanged t.net t.data t.max t.timeoutMs _ _ := exchange_exchanged tcpTo
  cases hr : (exchange t.net tcpTo t.data t.max t.timeoutMs).result with
  | none =>
    rw [bind_of_none hr]
    exact ⟨_, hexchanged, iff_of_true rfl hr, fun r _ h => by cases h⟩
  | some reply =>
    obtain ⟨r, heq, hshows⟩ := hf reply
    rw [bind_of_some hr, heq, show (Pure.pure r : Session Call J3Report).calls = [] from rfl,
      List.append_nil]
    refine ⟨_, hexchanged, iff_of_false (by simp [Pure.pure]) (by simp [hr]),
      fun r' reply' hr' hreply => ?_⟩
    obtain rfl : r = r' := Option.some.inj hr'
    obtain rfl := Option.some.inj (hr.symm.trans hreply)
    exact hshows

theorem j3Send_runs (q : JunkProbe) (tcpTo : Int) :
    q.talk.Runs (j3Send q.net tcpTo q.name q.data).calls
      (j3Send q.net tcpTo q.name q.data).result := by
  refine q.talk.runs_bind tcpTo fun reply => ?_
  rcases reply with _ | _ | ⟨c, got⟩
  · exact ⟨_, rfl, rfl, fun _ => ⟨rfl, rfl, rfl, rfl⟩, fun got h => by cases h⟩
  · exact ⟨_, rfl, rfl, fun _ => ⟨rfl, rfl, rfl, rfl⟩, fun got h => by cases h⟩
  · refine ⟨_, rfl, rfl, fun h => (by cases h), fun got' h => ?_⟩
    obtain rfl := Option.some.inj h
    exact ⟨rfl, rfl, rfl, read_hexS true _⟩

theorem emptyClose_runs (net : PlainNet) (tcpTo : Int) :
    (emptyTalk net).Runs (emptyClose net tcpTo).calls (emptyClose net tcpTo).result := by
  refine (emptyTalk net).runs_bind tcpTo fun reply => ?_
  cases hgot : nonempty reply with
  | none =>
    refine ⟨_, rfl, rfl, fun _ => ⟨rfl, rfl, rfl, rfl⟩, fun got h => ?_⟩
    cases hgot.symm.trans h
  | some got =>
    refine ⟨_, rfl, rfl, fun h => ?_, fun got' h => ?_⟩
    · cases hgot.symm.trans h
    · obtain rfl := Option.some.inj (hgot.symm.trans h)
      exact ⟨rfl, rfl, rfl, read_hexS true _⟩

theorem Junked.cons {t : JunkTalk} {talks : List JunkTalk} {m : Session Call J3Report}
    {rest : Session Call (List J3Report)} (first : t.Runs m.calls m.result)
    (more : Junked talks rest.calls rest.result) :
    Junked (t :: talks) (m >>= fun r => rest >>= fun out => Pure.pure (r :: out)).calls
      (m >>= fun r => rest >>= fun out => Pure.pure (r :: out)).result := by
  cases hr : m.result with
  | none =>
    rw [bind_of_none hr]
    exact .waiting (hr ▸ first)
  | some r =>
    have hnext := Junked.next (hr ▸ first) more
    rw [bind_of_some hr]
    cases hout : rest.result with
    | none =>
      rw [bind_of_none hout]
      rwa [hout] at hnext
    | some out =>
      rw [bind_of_some hout]
      rw [hout] at hnext
      simpa [Pure.pure] using hnext

theorem sendAllJunk_junked (tcpTo : Int) (probes : List JunkProbe) :
    Junked (probes.map JunkProbe.talk) (sendAllJunk tcpTo probes).calls
      (sendAllJunk tcpTo probes).result := by
  induction probes with
  | nil => exact .done
  | cons q probes ih => exact .cons (j3Send_runs q tcpTo) ih

variable {net : Nat → PlainNet} {tcpTo : Int} {host : Bytes} {random : JunkRandom}

def junkTalks (net : Nat → PlainNet) (host : Bytes) (random : JunkRandom) : List JunkTalk :=
  emptyTalk (net 0) :: (junkProbes net host random).map JunkProbe.talk

theorem j3Probes_junked :
    Junked (junkTalks net host random) (j3Probes net tcpTo host random).calls
      (j3Probes net tcpTo host random).result :=
  .cons (emptyClose_runs (net 0) tcpTo) (sendAllJunk_junked tcpTo _)

theorem length_junkProbes : (junkProbes net host random).length =
    5 + random.bytes.toList.length + random.hello.toList.length := by
  have hhello : (tlsHello random.hello random.name).toList.length =
      random.hello.toList.length := by
    unfold tlsHello
    cases random.hello <;> rfl
  simp only [junkProbes, List.length_append, List.length_map, hhello, List.length_cons,
    List.length_nil]
  omega

structure AnsweredAlike (net : Nat → PlainNet) (out : List J3Report) (reply : Bytes) : Prop where
  received : ∀ k, (net k).received = reply
  responded : ∀ r ∈ out, r.responded = true

theorem nonempty_eq_some {got : Option Bytes} {b : Bytes} :
    nonempty got = some b ↔ got = some b ∧ b ≠ [] := by
  simp [nonempty, Option.filter_eq_some_iff]

def JunkTalk.ShownBy (t : JunkTalk) (r : J3Report) : Prop :=
  r.name = t.name ∧ (r.responded = true →
    r.bytes = (t.net.received.take t.max).length ∧ r.firstLine = t.line (t.net.received.take t.max))

theorem JunkTalk.Runs.shownBy {t : JunkTalk} {calls : List Call} {r : J3Report}
    (h : t.Runs calls (some r)) : t.ShownBy r := by
  obtain ⟨replied, hexchanged, hnone, hshows⟩ := h
  obtain ⟨reply, rfl⟩ := Option.ne_none_iff_exists'.mp (hnone.not.mp (by simp))
  have hshows := hshows r reply rfl rfl
  refine ⟨hshows.name, fun hresponded => ?_⟩
  cases hgot : nonempty reply with
  | none => exact absurd ((hshows.silent hgot).1.symm.trans hresponded) Bool.false_ne_true
  | some got =>
    obtain ⟨-, hbytes, hline, -⟩ := hshows.reply got hgot
    have hreceived := hexchanged.received got (congrArg some (nonempty_eq_some.mp hgot).1)
    rw [← hreceived]
    exact ⟨hbytes, hline⟩

theorem Junked.shownBy {talks : List JunkTalk} {calls : List Call} {out : List J3Report}
    (h : Junked talks calls (some out)) : List.Forall₂ JunkTalk.ShownBy talks out := by
  generalize hresult : some out = result at h
  induction h generalizing out with
  | done =>
    obtain rfl := Option.some.inj hresult
    exact .nil
  | next first rest ih =>
    obtain ⟨out', rfl, rfl⟩ := Option.map_eq_some_iff.mp hresult.symm
    exact .cons first.shownBy (ih rfl)
  | waiting => cases hresult

def analyzed (out : List J3Report) : List J3Result := out.map J3Report.toJ3Result

theorem net_of_mem_junkProbes {q : JunkProbe} (h : q ∈ junkProbes net host random) :
    ∃ k, q.net = net k := by
  simp only [junkProbes, List.mem_append, List.mem_cons, List.mem_map, List.not_mem_nil,
    or_false] at h
  rcases h with (((rfl | rfl | rfl) | ⟨_, _, rfl⟩) | ⟨_, _, rfl⟩) | rfl | rfl
  all_goals exact ⟨_, rfl⟩

theorem exists_of_mem_right {R : α → β → Prop} {xs : List α} {ys : List β}
    (h : List.Forall₂ R xs ys) {y : β} (hy : y ∈ ys) : ∃ x ∈ xs, R x y := by
  induction h with
  | nil => cases hy
  | cons hxy hrest ih =>
    obtain rfl | hy := List.mem_cons.mp hy
    · exact ⟨_, List.mem_cons_self, hxy⟩
    · obtain ⟨x, hx, hr⟩ := ih hy
      exact ⟨x, List.mem_cons_of_mem _ hx, hr⟩

section
variable {r : J3Report} {rest : List J3Report} {reply : Bytes}

/-- Behind the first result all are the same but for their names. -/
theorem AnsweredAlike.same (h : AnsweredAlike net (r :: rest) reply)
    (hrest : List.Forall₂ (fun q r => q.talk.ShownBy r) (junkProbes net host random) rest) :
    ∀ t ∈ analyzed rest, t.responded = true ∧ t.firstLine = firstLine (reply.take 1023) ∧
      t.bytes = (reply.take 1023).length := by
  intro t ht
  obtain ⟨u, hu, rfl⟩ := List.mem_map.mp ht
  obtain ⟨q, hq, hshown⟩ := exists_of_mem_right hrest hu
  obtain ⟨k, hk⟩ := net_of_mem_junkProbes hq
  have hresponded := h.responded u (List.mem_cons_of_mem r hu)
  obtain ⟨hbytes, hline⟩ := hshown.2 hresponded
  rw [JunkProbe.talk, hk, h.received k] at hbytes hline
  exact ⟨hresponded, hline, hbytes⟩

theorem not_httpProbe_of_empty (hr : r.name = ascii "empty/close") : ¬HttpProbe r.toJ3Result := by
  rw [HttpProbe, hr, ← contains_iff, ← contains_iff]
  decide

/-- A reply can be canned only if it is the one of the other probes. -/
theorem AnsweredAlike.of_canned (h : AnsweredAlike net (r :: rest) reply)
    (hr : r.name = ascii "empty/close")
    (hrest : List.Forall₂ (fun q r => q.talk.ShownBy r) (junkProbes net host random) rest)
    {line : Bytes} {bytes : Int} (hcanned : Canned (analyzed (r :: rest)) line bytes) :
    line = firstLine (reply.take 1023) ∧ bytes = (reply.take 1023).length := by
  obtain ⟨t, ht, hhttp⟩ := hcanned.http
  obtain ⟨hmem, heq⟩ := List.mem_filter.mp ht
  simp only [Bool.and_eq_true, beq_iff_eq] at heq
  obtain rfl | hmem := List.mem_cons.mp hmem
  · exact absurd hhttp (not_httpProbe_of_empty hr)
  · obtain ⟨-, hline, hbytes⟩ := h.same hrest t hmem
    exact ⟨heq.2.1.symm.trans hline, heq.2.2.symm.trans hbytes⟩

theorem AnsweredAlike.length_le (h : AnsweredAlike net (r :: rest) reply)
    (hrest : List.Forall₂ (fun q r => q.talk.ShownBy r) (junkProbes net host random) rest) :
    rest.length ≤ (sameReply (analyzed (r :: rest)) (firstLine (reply.take 1023))
      (reply.take 1023).length).length := by
  have hall : sameReply (analyzed rest) (firstLine (reply.take 1023)) (reply.take 1023).length =
      analyzed rest :=
    List.filter_eq_self.mpr fun t ht => by
      obtain ⟨hresponded, hline, hbytes⟩ := h.same hrest t ht
      simp [hresponded, hline, hbytes]
  have hsub : (sameReply (analyzed rest) (firstLine (reply.take 1023))
      (reply.take 1023).length).Sublist (sameReply (analyzed (r :: rest))
        (firstLine (reply.take 1023)) (reply.take 1023).length) :=
    (List.sublist_cons_self r.toJ3Result (analyzed rest)).filter _
  rw [hall] at hsub
  exact (List.length_map _).symm.trans_le hsub.length_le

theorem AnsweredAlike.canned (h : AnsweredAlike net (r :: rest) reply)
    (hrest : List.Forall₂ (fun q r => q.talk.ShownBy r) (junkProbes net host random) rest)
    (hlong : 3 < (firstLine (reply.take 1023)).length) :
    Canned (analyzed (r :: rest)) (firstLine (reply.take 1023)) (reply.take 1023).length := by
  have hlen : 5 ≤ rest.length := by
    rw [← hrest.length_eq, length_junkProbes]
    omega
  refine ⟨hlong, ?_, ?_⟩
  · exact (by omega : 2 ≤ rest.length).trans (h.length_le hrest)
  · have hget : ⟨net 1, ascii "HTTP GET /", ascii "GET / HTTP/1.1\r\nHost: " ++ host ++
        ascii "\r\nUser-Agent: curl/8.4.0\r\nAccept: */*\r\n\r\n"⟩ ∈
          junkProbes net host random := by
      simp [junkProbes]
    obtain ⟨u, hu, hshown⟩ := exists_of_mem_right hrest.flip hget
    have hmem : u.toJ3Result ∈ analyzed rest := List.mem_map_of_mem hu
    obtain ⟨hresponded, hline, hbytes⟩ := h.same hrest _ hmem
    refine ⟨u.toJ3Result, List.mem_filter.mpr ⟨List.mem_cons_of_mem _ hmem, ?_⟩, .inl ?_⟩
    · simp [hresponded, hline, hbytes]
    · have hname : u.name = ascii "HTTP GET /" := hshown.1
      rw [hname]

end

/-- A server that gives one answer to everything is found out exactly if the
first line of the answer has more than three characters; then all results are
counted as the same but perhaps the one of the first probe. -/
theorem j3Probes_alike (net : Nat → PlainNet) (tcpTo : Int) (host reply : Bytes)
    (random : JunkRandom) (out : List J3Report)
    (hout : (j3Probes net tcpTo host random).result = some out)
    (h : AnsweredAlike net out reply) :
    (2 ≤ (j3Analyze (analyzed out)).cannedIdentical ↔
      3 < (firstLine (reply.take 1023)).length) ∧
    (3 < (firstLine (reply.take 1023)).length →
      (j3Analyze (analyzed out)).cannedLine = firstLine (reply.take 1023) ∧
      6 ≤ out.length ∧ out.length ≤ (j3Analyze (analyzed out)).cannedIdentical + 1 ∧
      (j3Analyze (analyzed out)).cannedIdentical ≤ out.length) := by
  have hjunked := @j3Probes_junked net tcpTo host random
  rw [hout] at hjunked
  have hshown := hjunked.shownBy
  rw [junkTalks, List.forall₂_cons_left_iff] at hshown
  obtain ⟨r, rest, hr, hrest, rfl⟩ := hshown
  rw [List.forall₂_map_left_iff] at hrest
  have hlen : 5 ≤ rest.length := by
    rw [← hrest.length_eq, length_junkProbes]
    omega
  refine ⟨(two_le_cannedIdentical_iff _).trans ⟨fun ⟨line, bytes, hc⟩ => ?_,
    fun hlong => ⟨_, _, h.canned hrest hlong⟩⟩, fun hlong => ?_⟩
  · obtain ⟨rfl, -⟩ := h.of_canned hr.1 hrest hc
    exact hc.long
  · rcases j3Analyze_cases (analyzed (r :: rest)) with ⟨hnone, -⟩ | ⟨before, t, after, hfirst, heq⟩
    · exact absurd (h.canned hrest hlong) (hnone _ _)
    · obtain ⟨hline, hbytes⟩ := h.of_canned hr.1 hrest hfirst.canned
      have hmost : (sameReply (analyzed (r :: rest)) t.firstLine t.bytes).length ≤
          (analyzed (r :: rest)).length := List.length_filter_le _ _
      have hleast := h.length_le hrest
      rw [← hline, ← hbytes] at hleast
      rw [heq]
      refine ⟨hline, ?_, ?_, ?_⟩
      · rw [List.length_cons]
        omega
      · rw [List.length_cons]
        exact Nat.succ_le_succ hleast
      · simpa [analyzed] using hmost

/-- A server that says the same to everything, behind a system that sends one
byte at a time. -/
def bannerServer (_ : Nat) : PlainNet where
  addresses := some [{
    family := .inet
    addr := []
    socket := 3
    connect := 0
    connectErr := 0
    select := 0
    exSet := false
    wrSet := false
    soError := 0 }]
  sent := List.replicate 200 1
  received := ascii "400 Bad Request\n"
  ms := 1

def bannerResults : List J3Report :=
  ((j3Probes bannerServer 800 (ascii "h") ⟨none, none, none⟩).result).getD []

theorem j3Probes_alike_example :
    2 ≤ (j3Analyze (analyzed bannerResults)).cannedIdentical ∧ bannerResults.length = 6 := by
  have hsome : (j3Probes bannerServer 800 (ascii "h") ⟨none, none, none⟩).result.isSome = true := by
    decide +kernel
  have hresponded : bannerResults.all (·.responded) = true := by decide +kernel
  have halike : AnsweredAlike bannerServer bannerResults (ascii "400 Bad Request\n") :=
    ⟨fun _ => rfl, fun r hr => List.all_eq_true.mp hresponded r hr⟩
  refine ⟨(j3Probes_alike bannerServer 800 (ascii "h") _ ⟨none, none, none⟩ bannerResults ?_
    halike).1.mpr (by decide), by decide +kernel⟩
  obtain ⟨out, hout⟩ := Option.isSome_iff_exists.mp hsome
  rw [bannerResults, hout]
  rfl

end ByeByeVpn
