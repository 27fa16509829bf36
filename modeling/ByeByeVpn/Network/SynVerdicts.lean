import ByeByeVpn.Network.SynScan

/-!
# What the verdicts of the SYN scan rest on

The machine of the scanner with a log of the probes sent, the datagrams
received and the verdicts given. The scanner attributes a segment by its
destination port alone; its verdicts are sound in the runs in which nothing
but the probed port answers to that port.
-/

namespace ByeByeVpn.SynScan

open Runs Scan

inductive Event
  | sent (port : Int) (srcPort : UInt16)
  | received (buf : Bytes)
  | judged (port : Int) (v : Verdict)
  deriving DecidableEq, Repr

def events (c : Config) (s : Scan) (a : Act) : List Event :=
  match s.point, a with
  | .send port srcPort, .sendto seqNo rc _ =>
    if sendSynPacket (fun _ => rc) c.src c.dst srcPort (.ofInt port) seqNo then
      [.sent port srcPort]
    else []
  | .recv, .recvfrom buf now =>
    if buf = [] then []
    else match s.answered c buf with
      | none => [.received buf]
      | some (e, tcp) => [.judged e.port (reply e tcp now).verdict, .received buf]
  | _, _ => []

/-- The flags that a verdict must rest on. -/
def Shows (tcp : TcpHdr) : Verdict → Prop
  | .opened => tcp.syn ∧ tcp.ack
  | .refused => tcp.rst
  | _ => False

/-- A segment from `port` of the target to `srcPort`. -/
structure From (c : Config) (port : Int) (srcPort : UInt16) (buf : Bytes) (tcp : TcpHdr) :
    Prop where
  header : tcp = TcpHdr.load (buf.drop ((IpHdr.load buf).ihl.toNat * 4))
  target : (IpHdr.load buf).saddr = c.dst
  source : ((ntohs tcp.source).toNat : Int) = port
  dest : ntohs tcp.dest = srcPort

/-- After a SYN for `port` was sent, the port answered to where it came from. -/
def Answered (c : Config) (log : List Event) (port : Int) (v : Verdict) : Prop :=
  ∃ srcPort buf tcp later earlier, log = later ++ .received buf :: earlier ∧
    .sent port srcPort ∈ earlier ∧ From c port srcPort buf tcp ∧ Shows tcp v

def judged (v : Verdict) (log : List Event) : Multiset Int :=
  (log.filterMap fun
    | .judged port v' => if v' = v then some port else none
    | _ => none : List Int)

structure Sound (c : Config) (s : Scan) (log : List Event) : Prop where
  opened : judged .opened log = s.out.openPorts
  refused : (judged .refused log).card = s.out.refused
  answered : ∀ v, v = .opened ∨ v = .refused → ∀ port ∈ judged v log, Answered c log port v

/-- A segment that meets a probe comes from the port that was probed, unless
it is neither an acceptance nor a refusal. -/
def FromProbed (c : Config) (s : Scan) : Act → Prop
  | .recvfrom buf _ => ∀ answer ∈ s.answered c buf, (answer.2.syn && answer.2.ack) || answer.2.rst →
      ((ntohs answer.2.source).toNat : Int) = answer.1.port
  | _ => True

instance (c : Config) (s : Scan) : ∀ a, Decidable (FromProbed c s a)
  | .recvfrom buf _ => inferInstanceAs (Decidable (∀ answer ∈ s.answered c buf, _ → _ = _))
  | .tick | .setup _ | .abortFlag _ | .sendto _ _ _ | .epollWait _ | .clock _ _ => .isTrue trivial

-- ---------------------------------------------------------------------------
-- What a step can do
-- ---------------------------------------------------------------------------

variable {c : Config} {s t : Scan} {a : Act} {log : List Event} {port : Int} {v : Verdict}

theorem find_of_settle (h : (s.settle p q oc).pending.find q' = some e) :
    s.pending.find q' = some e := by
  have he : (s.pending.erase q).find q' = some e := h
  rw [KeyMap.find_erase] at he
  split at he
  · cases he
  · exact he

/-- A step sends a probe, receives a datagram, or does neither: then no probe
is added and no port is reported open or counted as refused. -/
theorem step_cases (h : step c s a = some t) :
    (∃ port srcPort now, s.point = .send port srcPort ∧ events c s a = [.sent port srcPort] ∧
      t = s.sent true { port, srcPort, sent := now }) ∨
    (∃ buf now, a = .recvfrom buf now ∧ s.point = .recv ∧ buf ≠ [] ∧ t = s.receive c buf now) ∨
    (events c s a = [] ∧ t.out.openPorts = s.out.openPorts ∧ t.out.refused = s.out.refused ∧
      ∀ q e, t.pending.find q = some e → s.pending.find q = some e) := by
  cases took_of_step h with
  | @send port srcPort rc seqNo ok now hp hok =>
    simp only [events, hp, hok]
    cases ok with
    | true => exact .inl ⟨port, srcPort, now, rfl, rfl, rfl⟩
    | false =>
      refine .inr (.inr ⟨rfl, ?_⟩)
      simp [Scan.sent, WorkerResult.openPorts, WorkerResult.classify, WorkerResult.markDone]
  | recv hp hb => exact .inr (.inl ⟨_, _, rfl, hp, hb, rfl⟩)
  | take hp =>
    refine .inr (.inr ⟨by simp [events, hp], ?_⟩)
    unfold Scan.take
    dsimp only
    split <;> exact ⟨rfl, rfl, fun _ _ => id⟩
  | timedOut hp =>
    exact .inr (.inr ⟨by simp [events, hp], rfl, rfl, fun _ _ => find_of_settle⟩)
  | noPorts hp | entry hp | noSetup hp | setup hp | outerLoop hp | outerExit hp | aborted hp
  | notAborted hp | sendExit hp | readable hp | notReadable hp | noDatagram hp | clock hp
  | inTime hp | swept hp =>
    exact .inr (.inr ⟨by simp [events, hp], rfl, rfl, fun _ _ => id⟩)

-- ---------------------------------------------------------------------------
-- Every step keeps the verdicts sound
-- ---------------------------------------------------------------------------

theorem Answered.mono (h : Answered c log port v) (new : List Event) :
    Answered c (new ++ log) port v := by
  obtain ⟨srcPort, buf, tcp, later, earlier, rfl, hs, hf, hv⟩ := h
  exact ⟨srcPort, buf, tcp, new ++ later, earlier, by simp, hs, hf, hv⟩

def Probed (s : Scan) (log : List Event) : Prop :=
  ∀ q e, s.pending.find q = some e → .sent e.port q ∈ log

theorem judged_sent : judged v (.sent port q :: log) = judged v log := rfl

theorem judged_received : judged v (.received buf :: log) = judged v log := rfl

theorem judged_judged {v' : Verdict} : judged v (.judged port v' :: log) =
    if v' = v then port ::ₘ judged v log else judged v log := by
  unfold judged
  split
  · next h => simp [h]
  · next h => simp [h]

/-- Events that are no verdicts keep the verdicts sound. -/
theorem Sound.quiet (h : Sound c s log) (ho : t.out.openPorts = s.out.openPorts)
    (hr : t.out.refused = s.out.refused) (hj : ∀ v, judged v (new ++ log) = judged v log) :
    Sound c t (new ++ log) := by
  refine ⟨(hj _).trans (h.opened.trans ho.symm), ?_, ?_⟩
  · rw [hj, h.refused, hr]
  · intro v hv port hp
    exact (h.answered v hv port (hj v ▸ hp)).mono new

theorem segment_header (h : segment c buf = some tcp) :
    tcp = TcpHdr.load (buf.drop ((IpHdr.load buf).ihl.toNat * 4)) ∧
      (IpHdr.load buf).saddr = c.dst := by
  simp only [segment] at h
  split at h <;> try cases h
  split at h <;> try cases h
  split at h <;> try cases h
  split at h <;> cases h
  next ha =>
    simp only [not_or, ne_eq, not_not] at ha
    exact ⟨rfl, ha.1⟩

theorem reply_shows {e : SynPending} {tcp : TcpHdr} {now : Time}
    (hv : v = .opened ∨ v = .refused) (h : (reply e tcp now).verdict = v) :
    Shows tcp v ∧ ((tcp.syn && tcp.ack) || tcp.rst) := by
  unfold reply at h
  split at h
  · next hf =>
    subst h
    exact ⟨by simpa [Shows, Outcome.verdict] using hf, by simp [hf]⟩
  · split at h
    · next hf =>
      subst h
      exact ⟨hf, by simp [hf]⟩
    · subst h
      simp [Outcome.verdict] at hv

theorem Sound.settle (h : Sound c s log) (hpr : Probed s log)
    (ha : s.answered c buf = some (e, tcp)) (hok : FromProbed c s (.recvfrom buf now)) :
    Sound c (s.settle .recv (ntohs tcp.dest) (reply e tcp now))
      (.judged e.port (reply e tcp now).verdict :: .received buf :: log) := by
  obtain ⟨hseg, hfind⟩ := of_answered ha
  refine ⟨?_, ?_, ?_⟩
  · rw [judged_judged, judged_received, h.opened]
    exact (WorkerResult.openPorts_classify s.out _ (reply_fits e tcp now)).symm
  · rw [judged_judged, judged_received]
    have ht := WorkerResult.tally_classify s.out (reply e tcp now) .refused
    simp only [WorkerResult.tally] at ht
    rw [Scan.settle, ht, ← h.refused]
    split
    · next hr => simp [hr]
    · next hr => simp [Ne.symm hr]
  · intro v hv port hp
    rw [judged_judged, judged_received] at hp
    have old := fun hp => (h.answered v hv port hp).mono
      [.judged e.port (reply e tcp now).verdict, .received buf]
    split at hp
    · next hvr =>
      rcases Multiset.mem_cons.mp hp with rfl | hp
      · obtain ⟨hshows, hflags⟩ := reply_shows hv hvr
        obtain ⟨hheader, htarget⟩ := segment_header hseg
        exact ⟨_, buf, tcp, [_], log, rfl, hpr _ _ hfind,
          ⟨hheader, htarget, hok (e, tcp) ha hflags, rfl⟩, hshows⟩
      · exact old hp
    · exact old hp

theorem events_recv (hp : s.point = .recv) (hb : buf ≠ []) :
    events c s (.recvfrom buf now) =
      match s.answered c buf with
      | none => [.received buf]
      | some (e, tcp) => [.judged e.port (reply e tcp now).verdict, .received buf] := by
  simp [events, hp, hb]

theorem step_sound (hi : Scan.Inv c s) (hpr : Probed s log) (h : Sound c s log)
    (hok : FromProbed c s a) (hs : step c s a = some t) :
    Probed t (events c s a ++ log) ∧ Sound c t (events c s a ++ log) := by
  rcases step_cases hs with
    ⟨port, q, now, hp, hev, rfl⟩ | ⟨buf, now, rfl, hp, hb, rfl⟩ | ⟨hev, ho, hr, hsub⟩
  · rw [hev]
    simp only [Scan.Inv, hp] at hi
    refine ⟨fun q' e he => ?_, h.quiet rfl rfl fun v => judged_sent⟩
    simp only [Scan.sent, if_true, KeyMap.find_emplace hi.free] at he
    split at he
    · next hq =>
      cases he
      simp [hq]
    · exact List.mem_append_right _ (hpr q' e he)
  · rw [events_recv hp hb, Scan.receive]
    cases ha : s.answered c buf with
    | none =>
      exact ⟨fun q e he => List.mem_append_right _ (hpr q e he),
        h.quiet rfl rfl fun v => judged_received⟩
    | some answer =>
      obtain ⟨e, tcp⟩ := answer
      exact ⟨fun q e' he => List.mem_append_right _ (hpr q e' (find_of_settle he)),
        h.settle hpr ha hok⟩
  · rw [hev]
    exact ⟨fun q e he => hpr q e (hsub q e he), h.quiet ho hr fun v => rfl⟩

/-- In the runs in which only the probed port answers to a probe, every port
that is reported open or counted as refused has answered that way, to the
source port its SYN was sent from, and after it was sent. -/
theorem synVerdicts_sound (c : Config) (s : Scan) (log : List Event)
    (run : ReachableIf (fun x a => FromProbed c x.1 a) (logged (step c) (events c)) ({}, [])
      (s, log)) : Sound c s log := by
  have h : Probed s log ∧ Sound c s log := by
    refine run.invariant (P := fun x => Probed x.1 x.2 ∧ Sound c x.1 x.2) ?_ ?_
    · refine ⟨by simp [Probed], rfl, rfl, by simp [judged]⟩
    · rintro ⟨s, log⟩ a _ before ⟨hpr, h⟩ hok hs
      obtain ⟨t, ht, rfl⟩ := Option.map_eq_some_iff.mp hs
      exact step_sound (reachable_inv before.unlogged.reachable) hpr h hok ht
  exact h.2

def sampleLog : List Event :=
  [.judged 443 .opened, .received sampleAnswer, .sent 443 40000]

theorem synVerdicts_sound_sample : ∃ s, Sound sample s sampleLog ∧
    s.out.open.map TcpOpen.port = [443] := by
  let ok (x : Scan × List Event) (a : Act) := FromProbed sample x.1 a
  let machine := guarded ok (logged (step sample) (events sample))
  obtain ⟨⟨s, log⟩, hs⟩ := Option.isSome_iff_exists.mp
    (show (exec machine ({}, []) sampleRun).isSome by decide +kernel)
  have hend : (exec machine ({}, []) sampleRun).map
      (fun x => (x.1.out.open.map TcpOpen.port, x.2)) = some ([443], sampleLog) := by
    decide +kernel
  simp only [hs, Option.map_some, Option.some.injEq, Prod.mk.injEq] at hend
  obtain ⟨hopen, rfl⟩ := hend
  exact ⟨s, synVerdicts_sound sample s _ (reachable_of_exec hs).unguarded, hopen⟩

-- ---------------------------------------------------------------------------
-- A segment from another port
-- ---------------------------------------------------------------------------

def closedPort : Config :=
  { ports := [80], timeoutMs := 1000, maxInflight := .clamp 64, src := 0x0201A8C0,
    dst := 0x22D8B85D }

/-- Port 443 of the target sends SYN and ACK to the source port of the probe. -/
def strayAnswer : Bytes :=
  datagram closedPort { source := htons 443, dest := htons 40000, syn := true, ack := true }

def strayRun : List Act :=
  [.tick, .setup true, .tick, .abortFlag false, .tick, .sendto 7 40 0, .tick, .epollWait true,
    .recvfrom strayAnswer 9000000]

theorem synVerdicts_unsound : ∃ s log,
    Reachable (logged (step closedPort) (events closedPort)) ({}, []) (s, log) ∧
      s.out.open.map TcpOpen.port = [80] ∧ ¬Sound closedPort s log := by
  obtain ⟨⟨s, log⟩, hs⟩ := Option.isSome_iff_exists.mp
    (show (exec (logged (step closedPort) (events closedPort)) ({}, []) strayRun).isSome by
      decide +kernel)
  have hend : (exec (logged (step closedPort) (events closedPort)) ({}, []) strayRun).map
      (fun x => (x.1.out.open.map TcpOpen.port, x.2)) =
      some ([80], [.judged 80 .opened, .received strayAnswer, .sent 80 40000]) := by
    decide +kernel
  simp only [hs, Option.map_some, Option.some.injEq, Prod.mk.injEq] at hend
  obtain ⟨hopen, rfl⟩ := hend
  refine ⟨s, _, reachable_of_exec hs, hopen, ?_⟩
  intro h
  obtain ⟨q, buf, tcp, later, earlier, hlog, -, hfrom, -⟩ :=
    h.answered .opened (.inl rfl) 80 (by simp [judged])
  have hbuf : Event.received buf ∈ [.judged 80 .opened, .received strayAnswer, .sent 80 40000] := by
    simp [hlog]
  obtain rfl : buf = strayAnswer := by simpa using hbuf
  have hport := hfrom.source
  rw [hfrom.header] at hport
  exact absurd hport (by decide +kernel)

end ByeByeVpn.SynScan
