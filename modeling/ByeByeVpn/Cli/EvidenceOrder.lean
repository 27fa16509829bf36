import ByeByeVpn.Cli.Verdicts
import Mathlib.Data.List.Perm.Basic

/-!
# The order of the evidence

The verdicts depend on the ports and the providers as multisets: what one
port adds to the score and the flags commutes with what another adds. More
evidence only adds signals, and each signal costs.
-/

namespace ByeByeVpn

-- ---------------------------------------------------------------------------
-- Signals in another order
-- ---------------------------------------------------------------------------

theorem Gist.add_right_comm (g : Gist) (x y : Signal) : (g.add x).add y = (g.add y).add x := by
  simp only [Gist.add, Gist.mk.injEq, Bool.or_left_comm, and_self, and_true]
  omega

theorem Gist.addAll_perm (g : Gist) {T U : List Signal} (h : T.Perm U) : g.addAll T = g.addAll U :=
  h.foldl_eq' (fun x _ y _ z => z.add_right_comm x y) g

theorem any_perm {α : Type*} {l l' : List α} (h : l.Perm l') (p : α → Bool) : l.any p = l'.any p :=
  Bool.eq_iff_iff.mpr (by simp only [List.any_eq_true, h.mem_iff])

theorem looksLikeCdnLb_perm (pf : PortFp) {o o' : List Bytes} (h : o.Perm o') :
    looksLikeCdnLb pf o = looksLikeCdnLb pf o' := by
  rw [looksLikeCdnLb, looksLikeCdnLb, any_perm h]

theorem asnOwnsBrand_perm (brand : Bytes) {o o' : List Bytes} (h : o.Perm o') :
    asnOwnsBrand brand o = asnOwnsBrand brand o' := by
  simp only [asnOwnsBrand, h.isEmpty_eq, any_perm h]

theorem portSignals_perm {o o' : List Bytes} (h : o.Perm o') : portSignals o = portSignals o' := by
  funext pf
  simp only [portSignals, sniSignals, looksLikeCdnLb_perm pf h, asnOwnsBrand_perm _ h]

theorem asnOrgs_perm {R R' : FullReport} (h : R.geos.Perm R'.geos) :
    (asnOrgs R).Perm (asnOrgs R') :=
  (h.map GeoInfo.asnOrg).filter _

-- ---------------------------------------------------------------------------
-- What the verdicts read
-- ---------------------------------------------------------------------------

def tlsSeen (fps : List PortFp) : Bool := fps.any fun pf => pf.tls.any fun tls => tls.ok

namespace Scoring

variable (s : Scoring) (asnOrgs : List Bytes) (cdnLbPort : Bool) (pf : PortFp)

theorem anyTls_service : (s.service pf).anyTls = s.anyTls := by
  unfold service
  split_ifs <;> rfl

theorem anyTls_tls : (s.tls pf).anyTls = (s.anyTls || pf.tls.any fun tls => tls.ok) := by
  cases h : pf.tls with
  | none => simp [tls, h]
  | some tls =>
    cases hok : tls.ok with
    | false => simp [Scoring.tls, h, hok]
    | true =>
      simp only [Scoring.tls, h, hok, Option.any_some, Bool.or_true, Bool.not_true,
        Bool.false_eq_true, if_false]
      split_ifs <;> rfl

theorem anyTls_sni : (s.sni asnOrgs cdnLbPort pf).anyTls = s.anyTls := by
  unfold sni
  cases pf.sni with
  | none => rfl
  | some sni =>
    dsimp only
    split_ifs <;> rfl

theorem anyTls_https : (s.https cdnLbPort pf).anyTls = s.anyTls := by
  unfold https
  cases pf.https with
  | none => rfl
  | some https =>
    dsimp only
    split_ifs <;> rfl

theorem anyTls_ct : (s.ct pf).anyTls = s.anyTls := by
  unfold ct
  cases pf.ct with
  | none => rfl
  | some ct =>
    dsimp only
    split_ifs <;> rfl

theorem anyTls_j3 : (s.j3 pf).anyTls = s.anyTls := by
  unfold j3
  cases pf.j3a with
  | none => rfl
  | some j3a =>
    dsimp only
    split_ifs <;> rfl

theorem anyTls_port : (s.port asnOrgs pf).anyTls = (s.anyTls || pf.tls.any fun tls => tls.ok) := by
  simp only [port]
  rw [anyTls_j3, anyTls_ct, anyTls_https, anyTls_sni, anyTls_tls, anyTls_service]
  split_ifs <;> rfl

theorem anyTls_ports (fps : List PortFp) :
    (fps.foldl (port asnOrgs) s).anyTls = (s.anyTls || tlsSeen fps) := by
  induction fps generalizing s with
  | nil => simp [tlsSeen]
  | cons pf fps ih =>
    rw [List.foldl_cons, ih, anyTls_port, tlsSeen, tlsSeen, List.any_cons, Bool.or_assoc]

end Scoring

theorem anyTls_scoring (R : FullReport) : (scoring R).anyTls = tlsSeen R.fps := by
  simp only [scoring, Scoring.anyTls_ports]
  split_ifs <;> rfl

theorem datagrams_congr {R R' : FullReport} (hu : R'.udpProbes = R.udpProbes) :
    wgDefault R' = wgDefault R ∧ wgAlt R' = wgAlt R ∧ awgDefault R' = awgDefault R := by
  simp only [wgDefault, wgAlt, awgDefault, respondedOn, hu, and_self]

/-- The stack and the rules look at the gist, and at whether TLS was seen. -/
theorem judge_congr {R R' : FullReport} (hg : (scoring R').gist = (scoring R).gist)
    (ht : tlsSeen R'.fps = tlsSeen R.fps) (hu : R'.udpProbes = R.udpProbes)
    (ho : R'.openTcp.any (·.port == 443) = R.openTcp.any (·.port == 443))
    (hs : R'.guessStack = R.guessStack) :
    (judge R').1.score = (judge R).1.score ∧ (judge R').1.label = (judge R).1.label ∧
      (judge R').1.guessStack = (judge R).1.guessStack ∧ (judge R').2 = (judge R).2 := by
  obtain ⟨hwg, hwa, hawg⟩ := datagrams_congr hu
  simp only [Scoring.gist, Gist.mk.injEq] at hg
  obtain ⟨hscore, hreality, himp, hproxy, hcanned, hbadver⟩ := hg
  have htls : (scoring R').anyTls = (scoring R).anyTls := by
    rw [anyTls_scoring, anyTls_scoring, ht]
  have hrules : rules R' (scoring R') = rules R (scoring R) := by
    rw [rules, rules, hwg, hawg, hproxy, hreality, himp, hcanned, hbadver]
  have hstack : stackName R' (scoring R') = stackName R (scoring R) := by
    rw [stackName, stackName, ho, hreality, htls, hwg, hwa, hawg]
  simp only [judge, ScoreBook.clamp, hscore, hs, hrules, hstack, and_self]

theorem judge_perm (R : FullReport) (fps : List PortFp) (geos : List GeoInfo)
    (openTcp : List TcpOpen) (hf : fps.Perm R.fps) (hg : geos.Perm R.geos)
    (ho : openTcp.Perm R.openTcp) :
    (judge { R with fps, geos, openTcp }).1.score = (judge R).1.score ∧
      (judge { R with fps, geos, openTcp }).1.label = (judge R).1.label ∧
      (judge { R with fps, geos, openTcp }).1.guessStack = (judge R).1.guessStack ∧
      (judge { R with fps, geos, openTcp }).2 = (judge R).2 := by
  have hsig : (signals { R with fps, geos, openTcp }).Perm (signals R) := by
    have horgs : (asnOrgs { R with fps, geos, openTcp }).Perm (asnOrgs R) := asnOrgs_perm hg
    have hp := portSignals_perm horgs
    rw [signals, signals, hp]
    exact (hf.flatMap_right _).append_left _
  refine judge_congr ?_ (any_perm hf _) rfl (any_perm ho _) rfl
  rw [gist_scoring, gist_scoring, Gist.addAll_perm _ hsig]

-- ---------------------------------------------------------------------------
-- More evidence
-- ---------------------------------------------------------------------------

def labels : List Bytes :=
  [ascii "CLEAN", ascii "LOW-SIGNAL", ascii "SUSPICIOUS", ascii "HIGH-CONFIDENCE"]

def severity (label : Bytes) : Nat := labels.idxOf label

def tiers : List Bytes :=
  [ascii "PASS / ALLOW", ascii "MONITOR / THROTTLE", ascii "BLOCK (accumulative)",
    ascii "IMMEDIATE BLOCK"]

def Tspu.rank (t : Tspu) : Nat := tiers.idxOf t.tierName

theorem severity_labelOf (score : Int) :
    severity (labelOf score) =
      if 85 ≤ score then 0 else if 70 ≤ score then 1 else if 50 ≤ score then 2 else 3 := by
  unfold labelOf
  split_ifs <;> decide

theorem severity_antitone {a b : Int} (h : a ≤ b) :
    severity (labelOf b) ≤ severity (labelOf a) := by
  rw [severity_labelOf, severity_labelOf]
  split_ifs <;> omega

theorem rank_classify (rs : List Rule) :
    (classify rs).rank =
      if 0 < rs.countP (fun r => r.hit && r.tierA) then 3
      else min 2 (rs.countP fun r => r.hit && !r.tierA) := by
  unfold classify
  dsimp only
  split_ifs with ha hb hc
  · exact (by decide : tiers.idxOf (ascii "IMMEDIATE BLOCK") = 3)
  · rw [Nat.min_eq_left hb]
    exact (by decide : tiers.idxOf (ascii "BLOCK (accumulative)") = 2)
  · rw [hc]
    exact (by decide : tiers.idxOf (ascii "MONITOR / THROTTLE") = 1)
  · rw [show rs.countP (fun r => r.hit && !r.tierA) = 0 by omega]
    exact (by decide : tiers.idxOf (ascii "PASS / ALLOW") = 0)

theorem rank_mono {rs rs' : List Rule}
    (ha : rs.countP (fun r => r.hit && r.tierA) ≤ rs'.countP fun r => r.hit && r.tierA)
    (hb : rs.countP (fun r => r.hit && !r.tierA) ≤ rs'.countP fun r => r.hit && !r.tierA) :
    (classify rs).rank ≤ (classify rs').rank := by
  rw [rank_classify, rank_classify]
  split_ifs <;> omega

/-- The gist of more evidence: a lower score, and no flag less. -/
structure Gist.Le (g g' : Gist) : Prop where
  score : g'.score ≤ g.score
  reality : g.reality ≤ g'.reality
  impersonation : g.impersonation ≤ g'.impersonation
  proxy : g.proxy ≤ g'.proxy
  canned : g.canned ≤ g'.canned
  badver : g.badver ≤ g'.badver

theorem Gist.le_add (g : Gist) (x : Signal) : g.Le (g.add x) := by
  constructor
  · simp only [Gist.add]
    omega
  all_goals exact Bool.right_le_or _ _

theorem Gist.Le.trans {g₁ g₂ g₃ : Gist} (h : g₁.Le g₂) (h' : g₂.Le g₃) : g₁.Le g₃ where
  score := h'.score.trans h.score
  reality := h.reality.trans h'.reality
  impersonation := h.impersonation.trans h'.impersonation
  proxy := h.proxy.trans h'.proxy
  canned := h.canned.trans h'.canned
  badver := h.badver.trans h'.badver

theorem Gist.le_addAll (g : Gist) (T : List Signal) : g.Le (g.addAll T) := by
  induction T generalizing g with
  | nil => exact ⟨le_rfl, le_rfl, le_rfl, le_rfl, le_rfl, le_rfl⟩
  | cons x T ih => exact (g.le_add x).trans (ih (g.add x))

theorem hits_rules (R : FullReport) (s : Scoring) :
    (rules R s).countP (fun r => r.hit && r.tierA) =
        (wgDefault R).toNat + (awgDefault R).toNat + s.anyProxyOpen.toNat ∧
      (rules R s).countP (fun r => r.hit && !r.tierA) =
        s.anyReality.toNat + s.anyImpersonation.toNat +
          (s.anyJ3Canned || s.anyJ3Badver).toNat := by
  simp only [rules, List.countP_cons, List.countP_nil]
  constructor
  · cases wgDefault R <;> cases awgDefault R <;> cases s.anyProxyOpen <;> simp
  · cases s.anyReality <;> cases s.anyImpersonation <;>
      cases (s.anyJ3Canned || s.anyJ3Badver) <;> simp

theorem rank_judge_mono {R R' : FullReport} (hu : R'.udpProbes = R.udpProbes)
    (h : (scoring R).gist.Le (scoring R').gist) : (judge R).2.rank ≤ (judge R').2.rank := by
  obtain ⟨hwg, -, hawg⟩ := datagrams_congr hu
  obtain ⟨-, hreality, himp, hproxy, hcanned, hbadver⟩ := h
  have hj : ((scoring R).anyJ3Canned || (scoring R).anyJ3Badver) ≤
      ((scoring R').anyJ3Canned || (scoring R').anyJ3Badver) := sup_le_sup hcanned hbadver
  apply rank_mono
  · rw [(hits_rules _ _).1, (hits_rules _ _).1, hwg, hawg]
    exact Nat.add_le_add_left (Bool.toNat_le_toNat hproxy) _
  · rw [(hits_rules _ _).2, (hits_rules _ _).2]
    exact Nat.add_le_add (Nat.add_le_add (Bool.toNat_le_toNat hreality) (Bool.toNat_le_toNat himp))
      (Bool.toNat_le_toNat hj)

theorem gist_append (R : FullReport) (pf : PortFp) :
    (scoring R).gist.Le (scoring { R with fps := R.fps ++ [pf] }).gist := by
  rw [gist_scoring, gist_scoring]
  have hs : signals { R with fps := R.fps ++ [pf] } = signals R ++ portSignals (asnOrgs R) pf := by
    simp only [signals, List.flatMap_append, List.flatMap_singleton, List.append_assoc]
    rfl
  rw [hs, Gist.addAll_append]
  exact Gist.le_addAll _ _

theorem judge_append (R : FullReport) (pf : PortFp) :
    (judge { R with fps := R.fps ++ [pf] }).1.score ≤ (judge R).1.score ∧
      severity (judge R).1.label ≤ severity (judge { R with fps := R.fps ++ [pf] }).1.label ∧
      (judge R).2.rank ≤ (judge { R with fps := R.fps ++ [pf] }).2.rank := by
  have hg := gist_append R pf
  have hscore : (judge { R with fps := R.fps ++ [pf] }).1.score ≤ (judge R).1.score := by
    have := hg.score
    simp only [judge, ScoreBook.clamp, Scoring.gist] at this ⊢
    omega
  exact ⟨hscore, severity_antitone hscore, rank_judge_mono rfl hg⟩

/-- The verdicts do not depend on the order of the ports and of the geo
records, and more evidence never improves them. -/
theorem judge_perm_and_append (R : FullReport) :
    (∀ fps geos openTcp, fps.Perm R.fps → geos.Perm R.geos → openTcp.Perm R.openTcp →
        (judge { R with fps, geos, openTcp }).1.score = (judge R).1.score ∧
          (judge { R with fps, geos, openTcp }).1.label = (judge R).1.label ∧
          (judge { R with fps, geos, openTcp }).1.guessStack = (judge R).1.guessStack ∧
          (judge { R with fps, geos, openTcp }).2 = (judge R).2) ∧
      ∀ pf, (judge { R with fps := R.fps ++ [pf] }).1.score ≤ (judge R).1.score ∧
        severity (judge R).1.label ≤ severity (judge { R with fps := R.fps ++ [pf] }).1.label ∧
        (judge R).2.rank ≤ (judge { R with fps := R.fps ++ [pf] }).2.rank :=
  ⟨judge_perm R, judge_append R⟩

end ByeByeVpn
