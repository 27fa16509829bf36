import ByeByeVpn.Cli.Signals

/-!
# What the verdicts say

A report carries a score with its label, and a completed run ends with a
classification. The classification blocks on evidence that costs more than a
clean score allows, with one exception: an open proxy alone costs exactly as
much. A report that ends with the error of the resolver has no score.
-/

namespace ByeByeVpn

/-- The report of a run whose target was resolved, before the verdict. -/
def evidence (p : Probes) (target : Bytes) : FullReport :=
  gather p { target, dns := p.resolveHost target }

theorem runFullTarget_resolved {p : Probes} {target : Bytes} (h : (p.resolveHost target).err = []) :
    runFullTarget p target =
      ((judge (evidence p target)).1, some (judge (evidence p target)).2) := by
  simp [runFullTarget, h, evidence]

-- ---------------------------------------------------------------------------
-- The score and the label
-- ---------------------------------------------------------------------------

theorem score_scoring (R : FullReport) : (scoring R).book.score = 100 - weight (signals R) := by
  have h := congrArg Gist.score (gist_scoring R)
  rw [score_addAll] at h
  exact h

theorem score_judge (R : FullReport) :
    (judge R).1.score = max 0 (min (100 - (weight (signals R) : Int)) 100) := by
  rw [← score_scoring]
  rfl

theorem labelOf_clean {score : Int} : labelOf score = ascii "CLEAN" ↔ 85 ≤ score := by
  unfold labelOf
  split_ifs with h
  · simp [h]
  all_goals simp [h]; decide

theorem labelOf_high {score : Int} : labelOf score = ascii "HIGH-CONFIDENCE" ↔ score < 50 := by
  unfold labelOf
  split_ifs with h₁ h₂ h₃
  · refine iff_of_false (by decide) (by omega)
  · refine iff_of_false (by decide) (by omega)
  · refine iff_of_false (by decide) (by omega)
  · exact iff_of_true rfl (by omega)

theorem clean_iff (R : FullReport) :
    (judge R).1.label = ascii "CLEAN" ↔ weight (signals R) ≤ 15 := by
  have h : (judge R).1.label = labelOf (judge R).1.score := rfl
  rw [h, labelOf_clean, score_judge]
  omega

-- ---------------------------------------------------------------------------
-- The classification
-- ---------------------------------------------------------------------------

/-- The classification is a block: a rule of tier A is hit, or two of tier B. -/
def Tspu.Blocks (t : Tspu) : Prop := 1 ≤ t.aHits ∨ 2 ≤ t.bHits

instance (t : Tspu) : Decidable t.Blocks := inferInstanceAs (Decidable (_ ∨ _))

theorem hits_classify (rs : List Rule) :
    (classify rs).aHits = rs.countP (fun r => r.hit && r.tierA) ∧
      (classify rs).bHits = rs.countP (fun r => r.hit && !r.tierA) := by
  unfold classify
  dsimp only
  split_ifs <;> exact ⟨rfl, rfl⟩

theorem blocks_iff (R : FullReport) :
    (judge R).2.Blocks ↔ wgDefault R ∨ awgDefault R ∨ (scoring R).anyProxyOpen ∨
      2 ≤ (scoring R).anyReality.toNat + (scoring R).anyImpersonation.toNat +
        ((scoring R).anyJ3Canned || (scoring R).anyJ3Badver).toNat := by
  have h : (judge R).2 = classify (rules R (scoring R)) := rfl
  rw [Tspu.Blocks, h, (hits_classify _).1, (hits_classify _).2]
  simp only [rules, List.countP_cons, List.countP_nil]
  cases wgDefault R <;> cases awgDefault R <;> cases (scoring R).anyProxyOpen <;>
    cases (scoring R).anyReality <;> cases (scoring R).anyImpersonation <;>
    cases ((scoring R).anyJ3Canned || (scoring R).anyJ3Badver) <;> simp

theorem mem_given {b : Bool} {x : Signal} (h : b) : x ∈ given b x := by simp [given, h]

theorem wgDefault_mem {R : FullReport} (h : wgDefault R) : .wgDefault ∈ signals R := by
  simp [signals, udpSignals, mem_given h]

theorem awgDefault_mem {R : FullReport} (h : awgDefault R) : .awgDefault ∈ signals R := by
  simp [signals, udpSignals, mem_given h]

theorem flag_scoring (flag : Gist → Bool) (p : Signal → Prop) [DecidablePred p]
    (h : ∀ g x, flag (g.add x) = (decide (p x) || flag g)) (h0 : flag (Scoring.gist {}) = false)
    (R : FullReport) : flag (scoring R).gist = true ↔ ∃ x ∈ signals R, p x := by
  rw [gist_scoring, flag_addAll flag p h, h0]
  simp

theorem anyProxyOpen_iff (R : FullReport) :
    (scoring R).anyProxyOpen = true ↔ .openProxy ∈ signals R := by
  have h := flag_scoring Gist.proxy (· = .openProxy) (fun _ _ => rfl) rfl R
  simpa [Scoring.gist] using h

theorem anyReality_iff (R : FullReport) : (scoring R).anyReality = true ↔
    ∃ x ∈ signals R, x = .reality ∨ x = .realityPassthrough :=
  flag_scoring Gist.reality _ (fun _ _ => rfl) rfl R

theorem anyImpersonation_iff (R : FullReport) :
    (scoring R).anyImpersonation = true ↔ ∃ x ∈ signals R, x = .impersonation :=
  flag_scoring Gist.impersonation _ (fun _ _ => rfl) rfl R

theorem anyJ3_iff (R : FullReport) : ((scoring R).anyJ3Canned || (scoring R).anyJ3Badver) = true ↔
    ∃ x ∈ signals R, x = .j3Canned ∨ x = .j3Badver := by
  have hc := flag_scoring Gist.canned (· = .j3Canned) (fun _ _ => rfl) rfl R
  have hb := flag_scoring Gist.badver (· = .j3Badver) (fun _ _ => rfl) rfl R
  simp only [Scoring.gist] at hc hb
  simp only [Bool.or_eq_true, hc, hb]
  grind

-- ---------------------------------------------------------------------------
-- Whether the two verdicts agree
-- ---------------------------------------------------------------------------

theorem tierB_weight (R : FullReport) (h : 2 ≤ (scoring R).anyReality.toNat +
      (scoring R).anyImpersonation.toNat +
      ((scoring R).anyJ3Canned || (scoring R).anyJ3Badver).toNat) : 24 ≤ weight (signals R) := by
  have two : ∀ {x y : Signal}, x ∈ signals R → y ∈ signals R → x ≠ y → 12 ≤ x.penalty →
      12 ≤ y.penalty → 24 ≤ weight (signals R) := fun hx hy hne h₁ h₂ => by
    have := penalty_add_le_weight hx hy hne
    omega
  cases hr : (scoring R).anyReality <;> cases hi : (scoring R).anyImpersonation <;>
    cases hj : ((scoring R).anyJ3Canned || (scoring R).anyJ3Badver) <;> simp [hr, hi, hj] at h
  · obtain ⟨x, hx, rfl⟩ := (anyImpersonation_iff R).mp hi
    obtain ⟨y, hy, rfl | rfl⟩ := (anyJ3_iff R).mp hj <;>
      exact two hx hy (by decide) (by decide) (by decide)
  · obtain ⟨x, hx, rfl | rfl⟩ := (anyReality_iff R).mp hr <;>
      obtain ⟨y, hy, rfl | rfl⟩ := (anyJ3_iff R).mp hj <;>
      exact two hx hy (by decide) (by decide) (by decide)
  all_goals
    obtain ⟨x, hx, rfl | rfl⟩ := (anyReality_iff R).mp hr <;>
      obtain ⟨y, hy, rfl⟩ := (anyImpersonation_iff R).mp hi <;>
      exact two hx hy (by decide) (by decide) (by decide)

/-- Of the reports that block, one with a clean label shows an open proxy and
nothing else. -/
theorem blocks_and_clean_iff (R : FullReport) :
    (judge R).2.Blocks ∧ (judge R).1.label = ascii "CLEAN" ↔ signals R = [.openProxy] := by
  rw [blocks_iff, clean_iff]
  constructor
  · rintro ⟨hw | ha | hp | hb, hclean⟩
    · have := penalty_le_weight (wgDefault_mem hw)
      simp only [Signal.penalty] at this
      omega
    · have := penalty_le_weight (awgDefault_mem ha)
      simp only [Signal.penalty] at this
      omega
    · exact eq_singleton ((anyProxyOpen_iff R).mp hp) hclean
    · have := tierB_weight R hb
      omega
  · intro h
    refine ⟨.inr (.inr (.inl ((anyProxyOpen_iff R).mpr ?_))), ?_⟩ <;> rw [h]
    · exact List.mem_singleton.mpr rfl
    · decide

/-- The two verdicts of a completed run agree, except on an open proxy alone. -/
theorem verdicts_agree_iff (p : Probes) (target : Bytes) (h : (p.resolveHost target).err = []) :
    (∀ t, (runFullTarget p target).2 = some t → t.Blocks →
        (runFullTarget p target).1.label ≠ ascii "CLEAN") ↔
      signals (evidence p target) ≠ [.openProxy] := by
  rw [runFullTarget_resolved h]
  simp only [ne_eq, ← blocks_and_clean_iff, Option.some.injEq, forall_eq', not_and]

def silentProbes : Probes where
  resolveHost host := { host, primaryIp := ascii "192.0.2.1" }
  geo _ _ := .error none
  buildTcpPorts := [22, 443, 3128]
  scanTcp _ ports := ([], { scanned := ports.length, timeouts := ports.length })
  wireguardProbe _ _ := {}
  amneziawgProbe _ _ := {}
  fpSsh _ _ _ _ := {}
  tlsProbe _ _ _ _ := {}
  sniConsistency _ _ _ _ := {}
  httpGet _ _ _ := {}
  httpsProbe _ _ _ _ := {}
  fpHttpPlain _ _ _ := { silent := true }
  fpHttpConnect _ _ _ := {}
  fpSocks5 _ _ _ := {}
  j3Probes _ _ _ := []

def wireguardServer : Probes :=
  { silentProbes with wireguardProbe := fun _ port => ⟨port == 51820⟩ }

theorem verdicts_agree_iff_sample :
    (runFullTarget wireguardServer (ascii "a.example")).1.label ≠ ascii "CLEAN" :=
  (verdicts_agree_iff wireguardServer (ascii "a.example") rfl).mpr (by decide) _ rfl (by decide)

def loneProxy : Probes :=
  { silentProbes with
    scanTcp := fun _ ports => ([{ port := 3128 }], { scanned := ports.length })
    fpHttpConnect := fun _ _ _ => { service := ascii "HTTP-PROXY" } }

/-- The proxy is blocked, and its report is labelled clean. -/
theorem verdicts_disagree : ¬∀ t, (runFullTarget loneProxy (ascii "a.example")).2 = some t →
    t.Blocks → (runFullTarget loneProxy (ascii "a.example")).1.label ≠ ascii "CLEAN" := by
  intro h
  exact h _ rfl (by decide) (by decide)

-- ---------------------------------------------------------------------------
-- Whether a detection means what it says
-- ---------------------------------------------------------------------------

/-- The scan has found nothing: no open port, and no answer to a datagram. -/
def NoEvidence (R : FullReport) : Prop :=
  R.openTcp = [] ∧ ∀ u ∈ R.udpProbes, u.2.responded = false

/-- A report is positive if it is labelled so, and never without evidence. -/
structure DetectionSound (R : FullReport) : Prop where
  label : R.vpnDetected = true ↔ R.label = ascii "HIGH-CONFIDENCE"
  evidence : NoEvidence R → R.vpnDetected = false

theorem respondedOn_of_noEvidence {R : FullReport} (h : NoEvidence R) (port : Int) :
    respondedOn R port = false := by
  simp only [respondedOn, List.any_eq_false, Bool.and_eq_true, not_and, Bool.not_eq_true]
  exact fun u hu _ => h.2 u hu

theorem signals_of_noEvidence {p : Probes} {R : FullReport} (h : NoEvidence (gather p R)) :
    signals (gather p R) = [] := by
  have hopen : (gather p R).openTcp = [] := h.1
  have hfps : (gather p R).fps = [] := by
    simp only [gather] at hopen ⊢
    simp [hopen]
  simp [signals, udpSignals, wgDefault, wgAlt, awgDefault, respondedOn_of_noEvidence h, hfps, given]

theorem judge_sound (p : Probes) (R : FullReport) : DetectionSound (judge (gather p R)).1 where
  label := by
    have hl : (judge (gather p R)).1.label = labelOf (judge (gather p R)).1.score := rfl
    rw [hl, labelOf_high]
    simp [FullReport.vpnDetected]
  evidence := fun h => by
    have hs := score_judge (gather p R)
    rw [signals_of_noEvidence h] at hs
    simp [FullReport.vpnDetected, hs]

/-- A report whose target was not resolved has score 0 and no label. -/
theorem unresolved_not_sound (R : FullReport) (hs : R.score = 0) (hl : R.label = []) :
    ¬DetectionSound R := by
  intro h
  have hhigh := h.label.mp (by simp [FullReport.vpnDetected, hs])
  rw [hl] at hhigh
  exact absurd hhigh (by decide)

/-- A detection means what it says unless the target was not resolved. -/
theorem vpnDetected_sound_iff (p : Probes) (target : Bytes) :
    DetectionSound (runFullTarget p target).1 ↔ (p.resolveHost target).err = [] := by
  constructor
  · intro h
    by_contra herr
    have hrun : (runFullTarget p target).1 = { target, dns := p.resolveHost target } := by
      simp [runFullTarget, herr]
    rw [hrun] at h
    exact unresolved_not_sound _ rfl rfl h
  · intro herr
    rw [runFullTarget_resolved herr]
    exact judge_sound p _

def unknownHost : Probes :=
  { silentProbes with resolveHost := fun host => { host, err := ascii "dns" } }

theorem vpnDetected_not_sound :
    ¬DetectionSound (runFullTarget unknownHost (ascii "a.example")).1 := by
  intro h
  have hclear := h.evidence ⟨rfl, by decide⟩
  exact absurd hclear (by decide)

end ByeByeVpn
