import ByeByeVpn.Network.J3Probes
import Mathlib.Data.List.Perm.Basic

/-!
# Canned replies

`j3_analyze` counts the replies to the junk probes by their kinds, and looks
for a reply that several probes got. Replies are the same when their first
lines and their lengths are.
-/

namespace ByeByeVpn

def sameReply (probes : List J3Result) (line : Bytes) (bytes : Int) : List J3Result :=
  probes.filter fun p => p.responded && (p.firstLine == line && p.bytes == bytes)

def HttpProbe (p : J3Result) : Prop :=
  ascii "HTTP GET /" <:+: p.name ∨ ascii "HTTP abs-URI" <:+: p.name

/-- A reply of some length that several probes got, and one of them was HTTP. -/
structure Canned (probes : List J3Result) (line : Bytes) (bytes : Int) : Prop where
  long : 3 < line.length
  shared : 2 ≤ (sameReply probes line bytes).length
  http : ∃ p ∈ sameReply probes line bytes, HttpProbe p

variable {probes probes' : List J3Result} {line : Bytes} {bytes : Int}

theorem isValidHttpProbe_iff {p : J3Result} : isValidHttpProbe p.name = true ↔ HttpProbe p := by
  rw [isValidHttpProbe, Bool.or_eq_true, contains_iff, contains_iff, HttpProbe]

theorem sameAnswer_eq (k : J3Result) :
    sameAnswer (probes.filter (·.responded)) k = sameReply probes k.firstLine k.bytes := by
  simp only [sameAnswer, sameReply, List.filter_filter]
  refine List.filter_congr fun p _ => ?_
  rw [Bool.and_comm, Bool.beq_comm (a := k.firstLine), Bool.beq_comm (a := k.bytes)]

theorem isCanned_iff (k : J3Result) :
    isCanned (probes.filter (·.responded)) k = true ↔ Canned probes k.firstLine k.bytes := by
  simp only [isCanned, sameAnswer_eq, Bool.and_eq_true, decide_eq_true_eq, List.any_eq_true,
    isValidHttpProbe_iff]
  exact ⟨fun ⟨⟨hs, hl⟩, hh⟩ => ⟨hl, hs, hh⟩, fun ⟨hl, hs, hh⟩ => ⟨⟨hs, hl⟩, hh⟩⟩

theorem Canned.perm (hp : probes.Perm probes') (h : Canned probes line bytes) :
    Canned probes' line bytes := by
  have hs : (sameReply probes line bytes).Perm (sameReply probes' line bytes) := hp.filter _
  obtain ⟨p, hm, hh⟩ := h.http
  exact ⟨h.long, hs.length_eq ▸ h.shared, p, hs.mem_iff.mp hm, hh⟩

-- ---------------------------------------------------------------------------
-- The counters
-- ---------------------------------------------------------------------------

/-- The counters of `n` results. -/
structure J3Analysis.Balanced (a : J3Analysis) (n : Nat) : Prop where
  total : a.silent + a.resp = n
  kinds : a.httpReal + a.httpBadVersion + a.rawNonHttp = a.resp

theorem J3Analysis.Balanced.count {a : J3Analysis} {n : Nat} (h : a.Balanced n) (p : J3Result) :
    (a.count p).Balanced (n + 1) := by
  obtain ⟨htotal, hkinds⟩ := h
  unfold J3Analysis.count
  split
  · dsimp only
    split
    all_goals
      constructor
      all_goals
        dsimp only
        omega
  · constructor
    all_goals
      dsimp only
      omega

theorem J3Analysis.Balanced.foldl {a : J3Analysis} {n : Nat} (h : a.Balanced n)
    (probes : List J3Result) : (probes.foldl .count a).Balanced (n + probes.length) := by
  induction probes generalizing a n with
  | nil => exact h
  | cons p probes ih =>
    have hrest := ih (h.count p)
    rwa [Nat.add_right_comm] at hrest

theorem J3Analysis.count_right_comm (a : J3Analysis) (p q : J3Result) :
    (a.count p).count q = (a.count q).count p := by
  unfold J3Analysis.count
  cases p.responded <;> cases q.responded <;>
    rcases looksLikeHttpLine p.firstLine with ⟨_ | _, _ | _⟩ <;>
    rcases looksLikeHttpLine q.firstLine with ⟨_ | _, _ | _⟩ <;> rfl

-- ---------------------------------------------------------------------------
-- The canned reply
-- ---------------------------------------------------------------------------

structure FirstCanned (probes before : List J3Result) (p : J3Result) (after : List J3Result) :
    Prop where
  split : probes = before ++ p :: after
  responded : p.responded = true
  canned : Canned probes p.firstLine p.bytes
  first : ∀ q ∈ before, q.responded = true → ¬Canned probes q.firstLine q.bytes

theorem Canned.exists_mem (h : Canned probes line bytes) :
    ∃ p ∈ probes, p.responded = true ∧ Canned probes p.firstLine p.bytes := by
  obtain ⟨p, hm, -⟩ := h.http
  have hp := List.of_mem_filter hm
  simp only [Bool.and_eq_true, beq_iff_eq] at hp
  exact ⟨p, List.mem_of_mem_filter hm, hp.1, hp.2.1 ▸ hp.2.2 ▸ h⟩

/-- What the search over the replies comes to. -/
theorem j3Analyze_cases (probes : List J3Result) :
    ((∀ line bytes, ¬Canned probes line bytes) ∧
      j3Analyze probes = probes.foldl J3Analysis.count {}) ∨
    ∃ before p after, FirstCanned probes before p after ∧
      j3Analyze probes = { probes.foldl J3Analysis.count {} with
        cannedIdentical := (sameReply probes p.firstLine p.bytes).length
        cannedLine := p.firstLine
        cannedBytes := p.bytes } := by
  have hsearch : (probes.filter (·.responded)).find? (isCanned (probes.filter (·.responded))) =
      probes.find? fun p => p.responded && isCanned (probes.filter (·.responded)) p := by
    simp only [List.find?_filter, Bool.decide_and, Bool.decide_eq_true]
  simp only [j3Analyze, hsearch]
  cases hfind : probes.find? fun p => p.responded && isCanned (probes.filter (·.responded)) p with
  | none =>
    refine .inl ⟨fun line bytes h => ?_, rfl⟩
    obtain ⟨p, hm, hr, hc⟩ := h.exists_mem
    have hno := List.find?_eq_none.mp hfind p hm
    simp [hr, (isCanned_iff p).mpr hc] at hno
  | some p =>
    obtain ⟨hp, before, after, hsplit, hbefore⟩ := List.find?_eq_some_iff_append.mp hfind
    obtain ⟨hr, hc⟩ := (Bool.and_eq_true _ _).mp hp
    refine .inr ⟨before, p, after, ⟨hsplit, hr, (isCanned_iff p).mp hc, ?_⟩, ?_⟩
    · intro q hq hrq hcq
      have hno := hbefore q hq
      simp [hrq, (isCanned_iff q).mpr hcq] at hno
    · simp only [sameAnswer_eq]

theorem cannedIdentical_foldl (probes : List J3Result) (a : J3Analysis) :
    (probes.foldl J3Analysis.count a).cannedIdentical = a.cannedIdentical := by
  induction probes generalizing a with
  | nil => rfl
  | cons p probes ih =>
    rw [List.foldl_cons, ih]
    unfold J3Analysis.count
    split
    · dsimp only
      split <;> rfl
    · rfl

theorem two_le_cannedIdentical_iff (probes : List J3Result) :
    2 ≤ (j3Analyze probes).cannedIdentical ↔ ∃ line bytes, Canned probes line bytes := by
  rcases j3Analyze_cases probes with ⟨hnone, heq⟩ | ⟨before, p, after, h, heq⟩
  · refine iff_of_false ?_ fun ⟨line, bytes, hc⟩ => hnone line bytes hc
    simp [heq, cannedIdentical_foldl]
  · refine iff_of_true ?_ ⟨_, _, h.canned⟩
    rw [heq]
    exact h.canned.shared

theorem cannedIdentical_ne_zero_iff (probes : List J3Result) :
    (j3Analyze probes).cannedIdentical ≠ 0 ↔ 2 ≤ (j3Analyze probes).cannedIdentical := by
  rcases j3Analyze_cases probes with ⟨-, heq⟩ | ⟨before, p, after, h, heq⟩
  · simp [heq, cannedIdentical_foldl]
  · have hshared := h.canned.shared
    simp only [heq]
    omega

theorem counters_j3Analyze (probes : List J3Result) :
    (j3Analyze probes).silent = (probes.foldl J3Analysis.count {}).silent ∧
      (j3Analyze probes).resp = (probes.foldl J3Analysis.count {}).resp ∧
      (j3Analyze probes).httpReal = (probes.foldl J3Analysis.count {}).httpReal ∧
      (j3Analyze probes).httpBadVersion = (probes.foldl J3Analysis.count {}).httpBadVersion ∧
      (j3Analyze probes).rawNonHttp = (probes.foldl J3Analysis.count {}).rawNonHttp := by
  rcases j3Analyze_cases probes with ⟨-, heq⟩ | ⟨before, p, after, -, heq⟩ <;> simp [heq]

theorem j3Analyze_perm {probes probes' : List J3Result} (hp : probes.Perm probes') :
    (j3Analyze probes').silent = (j3Analyze probes).silent ∧
      (j3Analyze probes').resp = (j3Analyze probes).resp ∧
      (j3Analyze probes').httpReal = (j3Analyze probes).httpReal ∧
      (j3Analyze probes').httpBadVersion = (j3Analyze probes).httpBadVersion ∧
      (j3Analyze probes').rawNonHttp = (j3Analyze probes).rawNonHttp ∧
      (j3Analyze probes').suspicious = (j3Analyze probes).suspicious := by
  have hfold : probes'.foldl J3Analysis.count {} = probes.foldl J3Analysis.count {} :=
    hp.symm.foldl_eq' (fun x _ y _ a => a.count_right_comm x y) ({} : J3Analysis)
  obtain ⟨hsilent, hresp, hreal, hbad, hraw⟩ := counters_j3Analyze probes
  obtain ⟨hsilent', hresp', hreal', hbad', hraw'⟩ := counters_j3Analyze probes'
  rw [hfold] at hsilent' hresp' hreal' hbad' hraw'
  have hcanned : 2 ≤ (j3Analyze probes').cannedIdentical ↔
      2 ≤ (j3Analyze probes).cannedIdentical := by
    rw [two_le_cannedIdentical_iff, two_le_cannedIdentical_iff]
    exact ⟨fun ⟨l, b, h⟩ => ⟨l, b, h.perm hp.symm⟩, fun ⟨l, b, h⟩ => ⟨l, b, h.perm hp⟩⟩
  have hsuspicious : (j3Analyze probes').suspicious = (j3Analyze probes).suspicious := by
    rw [J3Analysis.suspicious, J3Analysis.suspicious, decide_eq_decide.mpr hcanned, hbad', hbad]
  exact ⟨by rw [hsilent', hsilent], by rw [hresp', hresp], by rw [hreal', hreal],
    by rw [hbad', hbad], by rw [hraw', hraw], hsuspicious⟩

/-- `j3_analyze` counts every result once, and reports the first canned reply.
The counters and the suspicion do not depend on the order of the results. -/
theorem j3Analyze_counts (probes : List J3Result) :
    ((j3Analyze probes).silent + (j3Analyze probes).resp = probes.length ∧
      (j3Analyze probes).httpReal + (j3Analyze probes).httpBadVersion +
        (j3Analyze probes).rawNonHttp = (j3Analyze probes).resp) ∧
    ((j3Analyze probes).cannedIdentical ≠ 0 ↔ ∃ line bytes, Canned probes line bytes) ∧
    ((j3Analyze probes).cannedIdentical ≠ 0 → ∃ before p after,
      FirstCanned probes before p after ∧
      (j3Analyze probes).cannedIdentical = (sameReply probes p.firstLine p.bytes).length ∧
      (j3Analyze probes).cannedLine = p.firstLine ∧ (j3Analyze probes).cannedBytes = p.bytes) ∧
    ∀ probes', probes.Perm probes' →
      (j3Analyze probes').silent = (j3Analyze probes).silent ∧
      (j3Analyze probes').resp = (j3Analyze probes).resp ∧
      (j3Analyze probes').httpReal = (j3Analyze probes).httpReal ∧
      (j3Analyze probes').httpBadVersion = (j3Analyze probes).httpBadVersion ∧
      (j3Analyze probes').rawNonHttp = (j3Analyze probes).rawNonHttp ∧
      (j3Analyze probes').suspicious = (j3Analyze probes).suspicious := by
  refine ⟨?_, ?_, fun hne => ?_, fun probes' hp => j3Analyze_perm hp⟩
  · obtain ⟨hsilent, hresp, hreal, hbad, hraw⟩ := counters_j3Analyze probes
    have hb := J3Analysis.Balanced.foldl (a := {}) (n := 0) ⟨rfl, rfl⟩ probes
    rw [hsilent, hresp, hreal, hbad, hraw]
    exact ⟨by rw [hb.total, Nat.zero_add], hb.kinds⟩
  · rw [cannedIdentical_ne_zero_iff, two_le_cannedIdentical_iff]
  · obtain ⟨line, bytes, hc⟩ := (two_le_cannedIdentical_iff probes).mp
      ((cannedIdentical_ne_zero_iff probes).mp hne)
    rcases j3Analyze_cases probes with ⟨hnone, -⟩ | ⟨before, p, after, h, heq⟩
    · exact absurd hc (hnone line bytes)
    · exact ⟨before, p, after, h, by rw [heq], by rw [heq], by rw [heq]⟩

/-- The first line of the reply to probe 2 comes first, but no HTTP probe got it. -/
example :
    j3Analyze [{ name := ascii "silent" },
      { name := ascii "0xFF x128", responded := true, bytes := 9, firstLine := ascii "SSH-2.0" },
      { name := ascii "random", responded := true, bytes := 9, firstLine := ascii "SSH-2.0" },
      { name := ascii "HTTP GET /", responded := true, bytes := 8, firstLine := ascii "nope" },
      { name := ascii "HTTP abs-URI", responded := true, bytes := 8, firstLine := ascii "nope" }] =
    { silent := 1, resp := 4, rawNonHttp := 4, cannedIdentical := 2, cannedLine := ascii "nope",
      cannedBytes := 8 } := by
  decide

end ByeByeVpn
