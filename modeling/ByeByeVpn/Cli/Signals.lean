import ByeByeVpn.Cli.Orchestrator
import Mathlib.Algebra.BigOperators.Group.List.Basic
import Mathlib.Algebra.Order.BigOperators.Group.List
import Mathlib.Algebra.Order.Group.Nat
import Mathlib.Algebra.Ring.Nat

/-!
# What the score is made of

The score book takes a penalty for each signal that it finds in the
evidence. The list of these signals determines the score and the flags that
the rules of the classification look at.
-/

namespace ByeByeVpn

inductive Signal
  | wgDefault
  | wgAlt
  | awgDefault
  | openProxy
  | oldTls
  | selfSigned
  | reality
  | realityPassthrough
  | impersonation
  | badHttpVersion
  | noHttpResponse
  | noServerHeader
  | proxyLeak
  | ctAbsentFresh
  | j3Canned
  | j3Badver
  | rawNonHttp
  deriving DecidableEq, Repr

namespace Signal

def penalty : Signal → Nat
  | .wgDefault => 22
  | .wgAlt => 4
  | .awgDefault => 18
  | .openProxy => 15
  | .oldTls => 5
  | .selfSigned => 8
  | .reality => 16
  | .realityPassthrough => 20
  | .impersonation => 18
  | .badHttpVersion => 14
  | .noHttpResponse => 8
  | .noServerHeader => 4
  | .proxyLeak => 10
  | .ctAbsentFresh => 10
  | .j3Canned => 12
  | .j3Badver => 12
  | .rawNonHttp => 6

theorem penalty_pos (x : Signal) : 0 < x.penalty := by cases x <;> decide

end Signal

def weight (T : List Signal) : Nat := (T.map Signal.penalty).sum

@[simp] theorem weight_nil : weight [] = 0 := rfl

@[simp] theorem weight_cons (x : Signal) (T : List Signal) :
    weight (x :: T) = x.penalty + weight T :=
  List.sum_cons

theorem weight_append (T U : List Signal) : weight (T ++ U) = weight T + weight U := by
  simp [weight]

theorem weight_eq_zero {T : List Signal} : weight T = 0 ↔ T = [] := by
  cases T with
  | nil => simp
  | cons x T =>
    have := x.penalty_pos
    simp only [weight_cons, reduceCtorEq, iff_false]
    omega

theorem penalty_le_weight {x : Signal} {T : List Signal} (hx : x ∈ T) : x.penalty ≤ weight T :=
  List.single_le_sum (by simp) _ (List.mem_map_of_mem hx)

theorem penalty_add_le_weight {x y : Signal} {T : List Signal} (hx : x ∈ T) (hy : y ∈ T)
    (hne : x ≠ y) : x.penalty + y.penalty ≤ weight T := by
  obtain ⟨l, r, rfl⟩ := List.append_of_mem hx
  have hy' : y ∈ l ++ r := by simpa [Ne.symm hne] using hy
  have := penalty_le_weight hy'
  simp only [weight_append, weight_cons] at this ⊢
  omega

theorem eq_singleton {x : Signal} {T : List Signal} (hx : x ∈ T) (hw : weight T ≤ x.penalty) :
    T = [x] := by
  obtain ⟨l, r, rfl⟩ := List.append_of_mem hx
  rw [weight_append, weight_cons] at hw
  have hl : l = [] := weight_eq_zero.mp (by omega)
  have hr : r = [] := weight_eq_zero.mp (by omega)
  simp [hl, hr]

-- ---------------------------------------------------------------------------
-- The signals of the evidence
-- ---------------------------------------------------------------------------

def given (b : Bool) (x : Signal) : List Signal := if b then [x] else []

def serviceSignals (pf : PortFp) : List Signal :=
  given (pf.fp.service == ascii "HTTP-PROXY" || pf.fp.service == ascii "SOCKS5") .openProxy

def tlsSignals (pf : PortFp) : List Signal :=
  match pf.tls with
  | none => []
  | some tls =>
    given (tls.ok && tls.version != ascii "TLSv1.3") .oldTls ++
      given (tls.ok && tls.selfSigned) .selfSigned

def sniSignals (asnOrgs : List Bytes) (cdnLbPort : Bool) (pf : PortFp) : List Signal :=
  match pf.sni with
  | none => []
  | some sni =>
    let steers := sni.realityLike && !cdnLbPort
    given steers (if sni.passthroughMode then .realityPassthrough else .reality) ++
      given (steers && sni.certImpersonation && !sni.brandClaimed.isEmpty &&
        !asnOwnsBrand sni.brandClaimed asnOrgs) .impersonation

def httpsSignals (cdnLbPort : Bool) (pf : PortFp) : List Signal :=
  match pf.https with
  | none => []
  | some https =>
    given (https.tlsOk && https.responded && https.versionAnomaly) .badHttpVersion ++
      given (https.tlsOk && !https.responded) .noHttpResponse ++
      given (https.tlsOk && https.responded && !https.versionAnomaly && https.serverHdr.isEmpty)
        .noServerHeader ++
      given (https.tlsOk && https.hasProxyLeak && !cdnLbPort) .proxyLeak

def ctSignals (pf : PortFp) : List Signal :=
  match pf.ct with
  | none => []
  | some ct =>
    given (ct.queried && !ct.found && ct.err.isEmpty &&
      pf.tls.any fun tls => tls.ok && (0 ≤ tls.ageDays && tls.ageDays < 30)) .ctAbsentFresh

def j3Signals (pf : PortFp) : List Signal :=
  match pf.j3a with
  | none => []
  | some j3a =>
    given (2 ≤ j3a.cannedIdentical) .j3Canned ++ given (1 ≤ j3a.httpBadVersion) .j3Badver ++
      given (2 ≤ j3a.rawNonHttp ∧ j3a.httpReal = 0) .rawNonHttp

def portSignals (asnOrgs : List Bytes) (pf : PortFp) : List Signal :=
  let cdnLbPort := looksLikeCdnLb pf asnOrgs
  serviceSignals pf ++ tlsSignals pf ++ sniSignals asnOrgs cdnLbPort pf ++
    httpsSignals cdnLbPort pf ++ ctSignals pf ++ j3Signals pf

def udpSignals (R : FullReport) : List Signal :=
  given (wgDefault R) .wgDefault ++ given (wgAlt R) .wgAlt ++ given (awgDefault R) .awgDefault

def signals (R : FullReport) : List Signal :=
  udpSignals R ++ R.fps.flatMap (portSignals (asnOrgs R))

-- ---------------------------------------------------------------------------
-- The scoring finds these signals
-- ---------------------------------------------------------------------------

/-- The score, and the flags that the rules look at. -/
structure Gist where
  score : Int
  reality : Bool
  impersonation : Bool
  proxy : Bool
  canned : Bool
  badver : Bool
  deriving DecidableEq

def Scoring.gist (s : Scoring) : Gist :=
  ⟨s.book.score, s.anyReality, s.anyImpersonation, s.anyProxyOpen, s.anyJ3Canned, s.anyJ3Badver⟩

def Gist.add (g : Gist) (x : Signal) : Gist where
  score := g.score - x.penalty
  reality := (x = .reality ∨ x = .realityPassthrough) || g.reality
  impersonation := x = .impersonation || g.impersonation
  proxy := x = .openProxy || g.proxy
  canned := x = .j3Canned || g.canned
  badver := x = .j3Badver || g.badver

def Gist.addAll (g : Gist) (T : List Signal) : Gist := T.foldl Gist.add g

@[simp] theorem Gist.addAll_nil (g : Gist) : g.addAll [] = g := rfl

theorem Gist.addAll_append (g : Gist) (T U : List Signal) :
    g.addAll (T ++ U) = (g.addAll T).addAll U := List.foldl_append ..

theorem Gist.addAll_given (g : Gist) (b : Bool) (x : Signal) :
    g.addAll (given b x) = if b then g.add x else g := by
  cases b <;> rfl

theorem gist_service (s : Scoring) (pf : PortFp) :
    (s.service pf).gist = s.gist.addAll (serviceSignals pf) := by
  simp only [Scoring.service, serviceSignals, Gist.addAll_given, Bool.or_eq_true, beq_iff_eq]
  split_ifs <;> first | rfl | simp_all

theorem gist_tls (s : Scoring) (pf : PortFp) :
    (s.tls pf).gist = s.gist.addAll (tlsSignals pf) := by
  cases h : pf.tls with
  | none => simp [Scoring.tls, tlsSignals, h]
  | some tls =>
    simp only [Scoring.tls, tlsSignals, h, Gist.addAll_append, Gist.addAll_given]
    cases tls.ok with
    | false => rfl
    | true =>
      simp only [Bool.true_and, bne_iff_ne, ne_eq, Bool.not_true, Bool.false_eq_true, if_false]
      split_ifs <;> rfl

theorem gist_sni (s : Scoring) (asnOrgs : List Bytes) (cdnLbPort : Bool) (pf : PortFp) :
    (s.sni asnOrgs cdnLbPort pf).gist = s.gist.addAll (sniSignals asnOrgs cdnLbPort pf) := by
  cases h : pf.sni with
  | none => simp [Scoring.sni, sniSignals, h]
  | some sni =>
    simp only [Scoring.sni, sniSignals, h, Gist.addAll_append, Gist.addAll_given]
    cases sni.realityLike with
    | false => rfl
    | true =>
      cases cdnLbPort with
      | true => rfl
      | false =>
        cases sni.passthroughMode <;> cases sni.certImpersonation <;>
          cases sni.brandClaimed.isEmpty <;> cases asnOwnsBrand sni.brandClaimed asnOrgs <;> rfl

theorem gist_https (s : Scoring) (cdnLbPort : Bool) (pf : PortFp) :
    (s.https cdnLbPort pf).gist = s.gist.addAll (httpsSignals cdnLbPort pf) := by
  cases h : pf.https with
  | none => simp [Scoring.https, httpsSignals, h]
  | some https =>
    simp only [Scoring.https, httpsSignals, h, Gist.addAll_append, Gist.addAll_given]
    cases https.tlsOk <;> cases https.responded <;> cases https.versionAnomaly <;>
      cases https.serverHdr.isEmpty <;> cases https.hasProxyLeak <;> cases cdnLbPort <;> rfl

theorem gist_ct (s : Scoring) (pf : PortFp) : (s.ct pf).gist = s.gist.addAll (ctSignals pf) := by
  cases h : pf.ct with
  | none => simp [Scoring.ct, ctSignals, h]
  | some ct =>
    simp only [Scoring.ct, ctSignals, h, Gist.addAll_given, Bool.and_eq_true]
    split_ifs <;> first | rfl | simp_all

theorem gist_j3 (s : Scoring) (pf : PortFp) : (s.j3 pf).gist = s.gist.addAll (j3Signals pf) := by
  cases h : pf.j3a with
  | none => simp [Scoring.j3, j3Signals, h]
  | some j3a =>
    simp only [Scoring.j3, j3Signals, h, Gist.addAll_append, Gist.addAll_given, decide_eq_true_eq]
    split_ifs <;> rfl

theorem gist_port (asnOrgs : List Bytes) (s : Scoring) (pf : PortFp) :
    (s.port asnOrgs pf).gist = s.gist.addAll (portSignals asnOrgs pf) := by
  simp only [Scoring.port, portSignals, Gist.addAll_append]
  rw [gist_j3, gist_ct, gist_https, gist_sni, gist_tls, gist_service]
  split <;> rfl

theorem gist_ports (asnOrgs : List Bytes) (fps : List PortFp) (s : Scoring) :
    (fps.foldl (Scoring.port asnOrgs) s).gist =
      s.gist.addAll (fps.flatMap (portSignals asnOrgs)) := by
  induction fps generalizing s with
  | nil => rfl
  | cons pf fps ih =>
    rw [List.foldl_cons, ih, gist_port, List.flatMap_cons, Gist.addAll_append]

/-- The scoring adds up the signals of the evidence. -/
theorem gist_scoring (R : FullReport) :
    (scoring R).gist = (Gist.addAll (Scoring.gist {}) (signals R)) := by
  simp only [scoring, signals, gist_ports, Gist.addAll_append, udpSignals, Gist.addAll_given]
  congr 1
  split_ifs <;> rfl

-- ---------------------------------------------------------------------------
-- What a list of signals adds up to
-- ---------------------------------------------------------------------------

theorem score_addAll (g : Gist) (T : List Signal) : (g.addAll T).score = g.score - weight T := by
  induction T generalizing g with
  | nil => simp
  | cons x T ih =>
    rw [Gist.addAll, List.foldl_cons, ← Gist.addAll, ih, weight_cons]
    simp only [Gist.add]
    omega

theorem flag_addAll (flag : Gist → Bool) (p : Signal → Prop) [DecidablePred p]
    (h : ∀ g x, flag (g.add x) = (decide (p x) || flag g)) (g : Gist) (T : List Signal) :
    flag (g.addAll T) = true ↔ flag g = true ∨ ∃ x ∈ T, p x := by
  induction T generalizing g with
  | nil => simp
  | cons x T ih =>
    rw [Gist.addAll, List.foldl_cons, ← Gist.addAll, ih, h]
    simp only [Bool.or_eq_true, decide_eq_true_eq, List.mem_cons, exists_eq_or_imp]
    tauto

end ByeByeVpn
