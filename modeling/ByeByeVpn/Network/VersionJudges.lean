import ByeByeVpn.Network.HttpsProbe
import ByeByeVpn.Network.J3Probes

/-!
# Two judges of an HTTP version

`https_probe` looks at the first and the last digit in the text up to the
first space. `j3_analyze` looks at nine characters, the dot among them, and
does not mind what follows.
-/

namespace ByeByeVpn

open Search

-- ---------------------------------------------------------------------------
-- Versions
-- ---------------------------------------------------------------------------

def knownVersions : List Bytes := [ascii "HTTP/1.0", ascii "HTTP/1.1", ascii "HTTP/2.0"]

/-- A version text with one of the known digits in the first and the third place. -/
def LooseVersion (v : Bytes) : Prop :=
  ∃ x dot y rest, v = ascii "HTTP/" ++ x :: dot :: y :: rest ∧ (x = chr '1' ∨ x = chr '2') ∧
    (y = chr '0' ∨ y = chr '1')

variable {first : Bytes}

theorem versionText_eq (first : Bytes) : versionText first = first.takeWhile (· ≠ chr ' ') := by
  unfold versionText
  by_cases h : chr ' ' ∈ first
  · obtain ⟨a, t, rfl, ha⟩ := List.eq_append_cons_of_mem h
    rw [find_letter ha, Option.getD_some, List.take_left, List.takeWhile_append_of_pos]
    · simp
    · intro c hc
      simpa using fun hs : c = chr ' ' => ha (hs ▸ hc)
  · rw [find_eq_none h, Option.getD_none, List.take_length, eq_comm, List.takeWhile_eq_self_iff]
    intro c hc
    simpa using fun hs : c = chr ' ' => h (hs ▸ hc)

theorem versionText_prefix (first : Bytes) : versionText first <+: first :=
  List.take_prefix ..

theorem space_mem_iff : chr ' ' ∈ first ↔ versionText first ≠ first := by
  rw [versionText_eq, ne_eq, List.takeWhile_eq_self_iff]
  simp

theorem versionText_append {a : Bytes} (ha : chr ' ' ∉ a) (t : Bytes) :
    versionText (a ++ t) = a ++ versionText t := by
  rw [versionText_eq, versionText_eq, List.takeWhile_append_of_pos]
  intro c hc
  simpa using fun hs : c = chr ' ' => ha (hs ▸ hc)

theorem startsWith_iff_append {pre : Bytes} :
    startsWith first pre = true ↔ ∃ t, first = pre ++ t := by
  rw [startsWith_iff]
  exact ⟨fun ⟨t, h⟩ => ⟨t, h.symm⟩, fun ⟨t, h⟩ => ⟨t, h.symm⟩⟩

theorem http_no_space : chr ' ' ∉ ascii "HTTP/" := by decide

theorem loose_of_known {v : Bytes} (h : v ∈ knownVersions) : LooseVersion v := by
  simp only [knownVersions, List.mem_cons, List.not_mem_nil, or_false] at h
  rcases h with rfl | rfl | rfl
  · exact ⟨chr '1', chr '.', chr '0', [], rfl, .inl rfl, .inl rfl⟩
  · exact ⟨chr '1', chr '.', chr '1', [], rfl, .inl rfl, .inr rfl⟩
  · exact ⟨chr '2', chr '.', chr '0', [], rfl, .inr rfl, .inl rfl⟩

theorem known_no_space {v : Bytes} (h : v ∈ knownVersions) : chr ' ' ∉ v ∧ v.length = 8 := by
  simp only [knownVersions, List.mem_cons, List.not_mem_nil, or_false] at h
  rcases h with rfl | rfl | rfl <;> decide

-- ---------------------------------------------------------------------------
-- What each of them accepts
-- ---------------------------------------------------------------------------

theorem hasVersionAnomaly_iff :
    hasVersionAnomaly first = false ↔ LooseVersion (versionText first) := by
  unfold hasVersionAnomaly
  constructor
  · intro h
    dsimp only at h
    split_ifs at h with hstart hlen
    obtain ⟨t, rfl⟩ := startsWith_iff_append.mp hstart
    rw [versionText_append http_no_space] at hlen h ⊢
    match hv : versionText t with
    | x :: dot :: y :: rest =>
      rw [hv] at h
      have hdigits : ((x ≠ chr '1' → x = chr '2') ∧ (y ≠ chr '0' → y = chr '1')) ∧
          x ≠ chr '0' := by
        simpa [ascii] using h
      exact ⟨x, dot, y, rest, rfl, or_iff_not_imp_left.mpr hdigits.1.1,
        or_iff_not_imp_left.mpr hdigits.1.2⟩
    | [] | [_] | [_, _] => simp [hv, ascii] at hlen
  · rintro ⟨x, dot, y, rest, hv, hx, hy⟩
    have hstart : startsWith first (ascii "HTTP/") = true := by
      obtain ⟨t, ht⟩ := versionText_prefix first
      have hsplit : first = ascii "HTTP/" ++ (x :: dot :: y :: rest ++ t) := by
        rw [← ht, hv, List.append_assoc]
      exact startsWith_iff_append.mpr ⟨_, hsplit⟩
    rw [if_pos hstart]
    dsimp only
    rw [hv, if_pos (by simp [ascii])]
    rcases hx with rfl | rfl <;> rcases hy with rfl | rfl <;> rfl

def isHttpReal (first : Bytes) : Bool := looksLikeHttpLine first == (true, false)

theorem isHttpReal_iff :
    isHttpReal first = true ↔ ∃ v ∈ knownVersions, ∃ c t, first = v ++ c :: t := by
  unfold isHttpReal looksLikeHttpLine
  constructor
  · intro h
    dsimp only at h
    split_ifs at h with hshape hdot
    · cases h
    · cases h
    · simp only [Bool.or_eq_true, decide_eq_true_eq, Bool.not_eq_true', not_or, not_lt,
        Bool.not_eq_false] at hshape
      obtain ⟨hlen, hstart⟩ := hshape
      obtain ⟨t, rfl⟩ := startsWith_iff_append.mp hstart
      match t with
      | x :: dot :: y :: c :: rest =>
        refine ⟨ascii "HTTP/" ++ [x, dot, y], ?_, c, rest, by simp⟩
        have hgood : (x == chr '1' && (y == chr '0' || y == chr '1') ||
            x == chr '2' && y == chr '0') = true :=
          Bool.not_inj (congrArg Prod.snd (beq_iff_eq.mp h))
        simp only [Bool.or_eq_true, Bool.and_eq_true, beq_iff_eq] at hgood
        obtain rfl : dot = chr '.' := by simpa [ascii] using hdot
        rcases hgood with ⟨rfl, rfl | rfl⟩ | ⟨rfl, rfl⟩ <;> decide
      | [] | [_] | [_, _] | [_, _, _] => simp [ascii] at hlen
  · rintro ⟨v, hv, c, t, rfl⟩
    simp only [knownVersions, List.mem_cons, List.not_mem_nil, or_false] at hv
    rcases hv with rfl | rfl | rfl <;> rfl

-- ---------------------------------------------------------------------------
-- The two judges side by side
-- ---------------------------------------------------------------------------

theorem loose_of_isHttpReal (h : isHttpReal first = true) : LooseVersion (versionText first) := by
  obtain ⟨v, hv, c, t, rfl⟩ := isHttpReal_iff.mp h
  obtain ⟨x, dot, y, rest, rfl, hxy⟩ := loose_of_known hv
  rw [versionText_append (known_no_space hv).1]
  exact ⟨x, dot, y, rest ++ versionText (c :: t), by simp, hxy⟩

theorem isHttpReal_of_known (h : versionText first ∈ knownVersions) :
    isHttpReal first = true ↔ chr ' ' ∈ first := by
  rw [isHttpReal_iff, space_mem_iff]
  constructor
  · rintro ⟨v, hv, c, t, hfirst⟩ hsame
    have hlen := congrArg List.length hfirst
    rw [← hsame, (known_no_space h).2, List.length_append, (known_no_space hv).2] at hlen
    simp at hlen
  · intro hmore
    obtain ⟨t, ht⟩ := versionText_prefix first
    cases t with
    | nil => exact absurd (by simpa using ht) hmore
    | cons c t => exact ⟨_, h, c, t, ht.symm⟩

theorem count_httpReal (a : J3Analysis) (p : J3Result) :
    (a.count p).httpReal =
      a.httpReal + if (p.responded && isHttpReal p.firstLine) = true then 1 else 0 := by
  unfold J3Analysis.count isHttpReal
  split
  · next hresp =>
    rw [hresp]
    dsimp only
    split
    · next hlook => simp [hlook]
    · next hlook => simp [hlook]
    · next b hlook => cases b <;> simp [hlook]
  · next hresp => simp [hresp]

theorem httpReal_eq (probes : List J3Result) :
    (j3Analyze probes).httpReal = probes.countP fun p => p.responded && isHttpReal p.firstLine := by
  have hfold : ∀ a : J3Analysis, (probes.foldl .count a).httpReal =
      a.httpReal + probes.countP fun p => p.responded && isHttpReal p.firstLine := by
    induction probes with
    | nil => exact fun _ => rfl
    | cons p probes ih =>
      intro a
      rw [List.foldl_cons, ih, count_httpReal, List.countP_cons]
      omega
  have hcounts : (j3Analyze probes).httpReal = (probes.foldl J3Analysis.count {}).httpReal := by
    unfold j3Analyze
    dsimp only
    split <;> rfl
  rw [hcounts, hfold]
  exact Nat.zero_add _

def Counted (ps : List J3Result) (p : J3Result) (qs : List J3Result) : Prop :=
  (j3Analyze (ps ++ p :: qs)).httpReal = (j3Analyze (ps ++ qs)).httpReal + 1

theorem counted_iff {p : J3Result} (hp : p.responded = true) (ps qs : List J3Result) :
    Counted ps p qs ↔ isHttpReal p.firstLine = true := by
  simp only [Counted, httpReal_eq, List.countP_append, List.countP_cons, hp, Bool.true_and]
  split_ifs with h
  · simp only [h, iff_true]
    omega
  · simp [h]

/-- The judges agree on the line, and accept the three versions and no others. -/
structure JudgesAgree (anomaly : Bool) (counted : Prop) (first : Bytes) : Prop where
  same : anomaly = true ↔ ¬counted
  probe : anomaly = false ↔ versionText first ∈ knownVersions
  junk : counted ↔ versionText first ∈ knownVersions

/-- Two judges of an HTTP version. On the first line of a reply they agree, and
accept the three versions only, exactly when a version text with the known
digits is one of the three and a space follows it. -/
theorem versionJudges_iff (turn : Nat → ReadTurn) (hread : (readProbe turn 6 []).1 ≠ [])
    (ps : List J3Result) (p : J3Result) (qs : List J3Result) (hp : p.responded = true)
    (hline : p.firstLine = (httpsProbe turn).firstLine) :
    JudgesAgree (httpsProbe turn).versionAnomaly (Counted ps p qs) p.firstLine ↔
      (LooseVersion (versionText p.firstLine) →
        versionText p.firstLine ∈ knownVersions ∧ chr ' ' ∈ p.firstLine) := by
  have hanomaly : (httpsProbe turn).versionAnomaly = hasVersionAnomaly p.firstLine := by
    rw [hline, httpsProbe]
    dsimp only
    rw [analyzeReply, if_neg (by simpa using hread)]
  rw [hanomaly]
  have hprobe := @hasVersionAnomaly_iff p.firstLine
  have hjunk := counted_iff hp ps qs
  constructor
  · intro h hloose
    have hknown := h.probe.mp (hprobe.mpr hloose)
    exact ⟨hknown, (isHttpReal_of_known hknown).mp (hjunk.mp (h.junk.mpr hknown))⟩
  · intro h
    have hp : hasVersionAnomaly p.firstLine = false ↔ versionText p.firstLine ∈ knownVersions :=
      hprobe.trans ⟨fun hl => (h hl).1, loose_of_known⟩
    have hj : Counted ps p qs ↔ versionText p.firstLine ∈ knownVersions := by
      rw [hjunk]
      refine ⟨fun hr => (h (loose_of_isHttpReal hr)).1, fun hk => ?_⟩
      exact (isHttpReal_of_known hk).mpr (h (loose_of_known hk)).2
    refine ⟨?_, hp, hj⟩
    rw [hj, ← hp, Bool.not_eq_false]

def answering (line : Bytes) : Nat → ReadTurn
  | 0 => .data (line ++ Http.crlf)
  | _ => .closed

theorem versionJudges_agree :
    JudgesAgree false (Counted [] { responded := true, firstLine := ascii "HTTP/1.1 200 OK" } [])
      (ascii "HTTP/1.1 200 OK") :=
  (versionJudges_iff (answering (ascii "HTTP/1.1 200 OK")) (by decide) []
    { responded := true, firstLine := ascii "HTTP/1.1 200 OK" } [] rfl (by decide)).mpr
    fun _ => by decide

/-- `https_probe` accepts the version 2.1, and `j3_analyze` calls it a bad one. -/
theorem versionJudges_disagree :
    ¬∀ (turn : Nat → ReadTurn) (ps : List J3Result) (p : J3Result) (qs : List J3Result),
      (readProbe turn 6 []).1 ≠ [] → p.responded = true →
      p.firstLine = (httpsProbe turn).firstLine →
      JudgesAgree (httpsProbe turn).versionAnomaly (Counted ps p qs) p.firstLine := by
  intro h
  have hagree := h (answering (ascii "HTTP/2.1 200 OK")) []
    { responded := true, firstLine := ascii "HTTP/2.1 200 OK" } [] (by decide) rfl (by decide)
  exact absurd (hagree.probe.mp (by decide)) (by decide)

end ByeByeVpn
