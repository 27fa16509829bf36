import ByeByeVpn.Analysis.SniConsistency
import Mathlib.Data.Finset.Filter
import Mathlib.Data.List.Count

/-!
# What the SNI flags say

The counters of the check are facts about the probes: how many foreign names
were answered, how many of the answers show the certificate of the target,
and how many certificates there are. The flags follow from them by one of two
branches.
-/

namespace ByeByeVpn

-- ---------------------------------------------------------------------------
-- The counters
-- ---------------------------------------------------------------------------

def completed (xs : List (Bytes × TlsProbeCert)) : List TlsProbeCert :=
  (xs.map Prod.snd).filter fun p => p.ok

def digests (ps : List TlsProbeCert) : Finset Bytes :=
  (ps.map TlsProbeCert.certSha256).toFinset.filter (· ≠ [])

def answers (tlsProbe : Nat → Bytes → TlsProbeCert) : List TlsProbeCert :=
  completed (altProbes tlsProbe)

theorem completed_cons (x : Bytes × TlsProbeCert) (xs : List (Bytes × TlsProbeCert)) :
    completed (x :: xs) = if x.2.ok then x.2 :: completed xs else completed xs := by
  simp only [completed, List.map_cons, List.filter_cons]

theorem digests_cons (p : TlsProbeCert) (ps : List TlsProbeCert) :
    digests (p :: ps) =
      if p.certSha256 = [] then digests ps else insert p.certSha256 (digests ps) := by
  unfold digests
  rw [List.map_cons, List.toFinset_cons, Finset.filter_insert]
  split_ifs <;> simp_all

namespace Survey

variable (v : Survey) (baseSha : Bytes) (xs : List (Bytes × TlsProbeCert))

theorem distinct_see (sha : Bytes) :
    (v.see sha).distinct = if sha = [] then v.distinct else insert sha v.distinct := by
  cases sha <;> rfl

@[simp] theorem total_see (sha : Bytes) : (v.see sha).total = v.total := by
  cases sha <;> rfl

@[simp] theorem same_see (sha : Bytes) : (v.see sha).same = v.same := by
  cases sha <;> rfl

@[simp] theorem entries_see (sha : Bytes) : (v.see sha).entries = v.entries := by
  cases sha <;> rfl

theorem total_probe (x : Bytes × TlsProbeCert) :
    (v.probe baseSha x).total = v.total + if x.2.ok then 1 else 0 := by
  unfold probe
  split_ifs <;> simp [record]

theorem same_probe (x : Bytes × TlsProbeCert) :
    (v.probe baseSha x).same =
      v.same + if x.2.ok && x.2.certSha256 == baseSha then 1 else 0 := by
  unfold probe
  split_ifs <;> simp_all [record]

theorem distinct_probe (x : Bytes × TlsProbeCert) :
    (v.probe baseSha x).distinct =
      if x.2.ok = true ∧ x.2.certSha256 ≠ [] then insert x.2.certSha256 v.distinct
      else v.distinct := by
  unfold probe
  split_ifs <;> simp_all [record, distinct_see]

theorem entries_probe (x : Bytes × TlsProbeCert) :
    (v.probe baseSha x).entries =
      v.entries ++ [⟨x.1, x.2.ok, x.2.certSha256, x.2.certSubject⟩] := by
  unfold probe
  split_ifs <;> simp [record]

theorem total_survey : (xs.foldl (probe baseSha) v).total = v.total + (completed xs).length := by
  induction xs generalizing v with
  | nil => rfl
  | cons x xs ih =>
    rw [List.foldl_cons, ih, total_probe, completed_cons]
    split_ifs
    · rw [List.length_cons]
      omega
    · rfl

theorem same_survey :
    (xs.foldl (probe baseSha) v).same =
      v.same + (completed xs).countP fun p => p.certSha256 == baseSha := by
  induction xs generalizing v with
  | nil => rfl
  | cons x xs ih =>
    rw [List.foldl_cons, ih, same_probe, completed_cons]
    cases x.2.ok with
    | false => simp
    | true =>
      rw [if_pos rfl, List.countP_cons, Bool.true_and]
      omega

theorem distinct_survey :
    (xs.foldl (probe baseSha) v).distinct = v.distinct ∪ digests (completed xs) := by
  induction xs generalizing v with
  | nil => simp [completed, digests]
  | cons x xs ih =>
    rw [List.foldl_cons, ih, distinct_probe, completed_cons]
    cases x.2.ok with
    | false => simp
    | true =>
      rw [if_pos rfl, digests_cons]
      by_cases hs : x.2.certSha256 = []
      · simp [hs]
      · simp [hs, Finset.insert_union, Finset.union_insert]

theorem entries_survey :
    (xs.foldl (probe baseSha) v).entries =
      v.entries ++ xs.map fun x => ⟨x.1, x.2.ok, x.2.certSha256, x.2.certSubject⟩ := by
  induction xs generalizing v with
  | nil => simp
  | cons x xs ih =>
    rw [List.foldl_cons, ih, entries_probe, List.map_cons, List.append_assoc, List.singleton_append]

end Survey

-- ---------------------------------------------------------------------------
-- The two branches
-- ---------------------------------------------------------------------------

structure SameAlways (base : TlsProbeCert) (ps : List TlsProbeCert) : Prop where
  enough : 3 ≤ ps.length
  same : ∀ p ∈ ps, p.certSha256 = base.certSha256

/-- Enough foreign names are answered, not all with the certificate of the
target; if none of them with it, then with several certificates. -/
structure CertVaries (base : TlsProbeCert) (ps : List TlsProbeCert) : Prop where
  enough : 3 ≤ ps.length
  differs : ∃ p ∈ ps, p.certSha256 ≠ base.certSha256
  mixed : (∃ p ∈ ps, p.certSha256 = base.certSha256) ∨ 3 ≤ (digests (base :: ps)).card

theorem sameAlways_iff {base : TlsProbeCert} {ps : List TlsProbeCert} :
    SameAlways base ps ↔
      3 ≤ ps.length ∧ (ps.countP fun p => p.certSha256 == base.certSha256) = ps.length := by
  rw [List.countP_eq_length]
  simp only [beq_iff_eq]
  exact ⟨fun h => ⟨h.enough, h.same⟩, fun h => ⟨h.1, h.2⟩⟩

theorem certVaries_iff {base : TlsProbeCert} {ps : List TlsProbeCert} :
    CertVaries base ps ↔
      3 ≤ ps.length ∧
        ((ps.countP fun p => p.certSha256 == base.certSha256) = 0 ∧
            3 ≤ (digests (base :: ps)).card ∨
          0 < (ps.countP fun p => p.certSha256 == base.certSha256) ∧
            (ps.countP fun p => p.certSha256 == base.certSha256) < ps.length) := by
  have hle := List.countP_le_length (p := fun p => p.certSha256 == base.certSha256) (l := ps)
  have hpos := List.countP_pos_iff (p := fun p => p.certSha256 == base.certSha256) (l := ps)
  have hall := List.countP_eq_length (p := fun p => p.certSha256 == base.certSha256) (l := ps)
  simp only [beq_iff_eq] at hpos hall hle ⊢
  constructor
  · rintro ⟨h3, ⟨q, hq, hne⟩, hmix⟩
    have hlt := Nat.lt_of_le_of_ne hle fun he => hne (hall.mp he q hq)
    rcases Nat.eq_zero_or_pos (ps.countP fun p => p.certSha256 == base.certSha256) with h0 | h0
    · refine ⟨h3, .inl ⟨h0, hmix.resolve_left fun hs => ?_⟩⟩
      have := hpos.mpr hs
      omega
    · exact ⟨h3, .inr ⟨h0, hlt⟩⟩
  · rintro ⟨h3, hmix⟩
    refine ⟨h3, ?_, hmix.symm.imp (fun h => hpos.mp h.1) And.right⟩
    by_contra hnone
    have heq := hall.mpr fun q hq => not_not.mp fun hne => hnone ⟨q, hq, hne⟩
    omega

def surveyed (tlsProbe : Nat → Bytes → TlsProbeCert) (baseSni : Bytes) : SniReport :=
  let base := tlsProbe 0 baseSni
  { baseSni
    baseSha := base.certSha256
    baseSubject := base.certSubject
    baseSan := base.san
    entries := (altProbes tlsProbe).map fun x =>
      ⟨x.1, x.2.ok, x.2.certSha256, x.2.certSubject⟩
    distinctCerts := (digests (base :: answers tlsProbe)).card
    brandClaimed := certClaimsBrand base.subjectCn base.san }

section

variable {tlsProbe : Nat → Bytes → TlsProbeCert} {baseSni : Bytes}

theorem sniConsistency_failed (h : (tlsProbe 0 baseSni).ok = false) :
    sniConsistency tlsProbe baseSni = { baseSni } := by
  simp [sniConsistency, h]

open Classical in
theorem sniConsistency_eq (h : (tlsProbe 0 baseSni).ok = true) :
    sniConsistency tlsProbe baseSni =
      if SameAlways (tlsProbe 0 baseSni) (answers tlsProbe) then
        (surveyed tlsProbe baseSni).sameCert baseSni (tlsProbe 0 baseSni)
      else if CertVaries (tlsProbe 0 baseSni) (answers tlsProbe) then
        (surveyed tlsProbe baseSni).certVaries
      else surveyed tlsProbe baseSni := by
  have hd : (Survey.see {} (tlsProbe 0 baseSni).certSha256).distinct ∪
      digests (completed (altProbes tlsProbe)) =
      digests (tlsProbe 0 baseSni :: completed (altProbes tlsProbe)) := by
    rw [Survey.distinct_see, digests_cons]
    split_ifs <;> simp
  simp only [sniConsistency, h, Survey.total_survey, Survey.same_survey, Survey.distinct_survey,
    Survey.entries_survey, Survey.total_see, Survey.same_see, Survey.entries_see, hd,
    sameAlways_iff, certVaries_iff, surveyed, answers, Nat.zero_add, List.nil_append]
  rfl

end

-- ---------------------------------------------------------------------------
-- The flags
-- ---------------------------------------------------------------------------

namespace SniReport

structure Open (c : SniReport) : Prop where
  sameCertAlways : c.sameCertAlways = false
  realityLike : c.realityLike = false
  defaultCertOnly : c.defaultCertOnly = false
  certImpersonation : c.certImpersonation = false
  passthroughMode : c.passthroughMode = false

/-- What the conclusions of a record say about each other. -/
structure Consistent (c : SniReport) : Prop where
  same : c.sameCertAlways = true → c.realityLike = !c.defaultCertOnly
  default : c.defaultCertOnly = true → c.sameCertAlways = true
  passthrough : c.passthroughMode = true →
    c.realityLike = true ∧ c.certImpersonation = true ∧ c.sameCertAlways = false
  reality : c.realityLike = true → c.matchedForeignSni ≠ []
  impersonation : c.certImpersonation = true → c.brandClaimed ≠ []

variable {c : SniReport} {baseSni : Bytes} {base : TlsProbeCert}

theorem Open.consistent (h : c.Open) : c.Consistent := by
  obtain ⟨h₁, h₂, h₃, h₄, h₅⟩ := h
  constructor <;> simp_all

theorem matchedForeignSni_ne_nil {cn : Bytes} {san : List Bytes} {s : Bytes}
    (h : ByeByeVpn.matchedForeignSni baseSni cn san = some s) : s ≠ [] := by
  have hm := List.mem_of_find?_eq_some h
  have hall := List.all_eq_true.mp (by decide : kAltSnis.all fun s => !s.isEmpty) s hm
  simpa using hall

/-- The foreign name that a certificate is for, if it is for one: a name of the
list, or else the brand that it claims. -/
def foreignName (c : SniReport) (baseSni : Bytes) (base : TlsProbeCert) : Option Bytes :=
  if certCoversName baseSni base.subjectCn base.san then none
  else
    (ByeByeVpn.matchedForeignSni baseSni base.subjectCn base.san).or
      (if c.brandClaimed.isEmpty then none else some c.brandClaimed)

theorem foreignName_ne_nil {s : Bytes} (h : c.foreignName baseSni base = some s) : s ≠ [] := by
  unfold foreignName at h
  split_ifs at h with _ hb
  · exact matchedForeignSni_ne_nil (by simpa using h)
  · rcases Option.or_eq_some_iff.mp h with hm | ⟨-, hs⟩
    · exact matchedForeignSni_ne_nil hm
    · simpa [← Option.some.inj hs] using hb

theorem sameCert_eq (h : c.Open) :
    c.sameCert baseSni base =
      { c with
        sameCertAlways := true
        realityLike := (c.foreignName baseSni base).isSome
        matchedForeignSni := (c.foreignName baseSni base).getD c.matchedForeignSni
        certImpersonation := !c.brandClaimed.isEmpty
        defaultCertOnly := (c.foreignName baseSni base).isNone } := by
  obtain ⟨-, hr, hd, hi, -⟩ := h
  obtain ⟨⟨_, _, brand, _, _⟩, _⟩ := c
  subst hr hd hi
  unfold sameCert foreignName
  cases certCoversName baseSni base.subjectCn base.san with
  | true => cases brand <;> rfl
  | false =>
    cases ByeByeVpn.matchedForeignSni baseSni base.subjectCn base.san <;> cases brand <;> rfl

theorem certVaries_eq (h : c.Open) :
    c.certVaries =
      { c with
        certImpersonation := !c.brandClaimed.isEmpty
        realityLike := !c.brandClaimed.isEmpty
        matchedForeignSni := if c.brandClaimed.isEmpty then c.matchedForeignSni else c.brandClaimed
        passthroughMode := !c.brandClaimed.isEmpty } := by
  obtain ⟨-, hr, -, hi, hp⟩ := h
  obtain ⟨⟨_, _, brand, _, _⟩, _⟩ := c
  subst hr hi hp
  cases brand <;> rfl

theorem consistent_sameCert (h : c.Open) : (c.sameCert baseSni base).Consistent := by
  rw [sameCert_eq h]
  constructor
  · intro _
    simp
  · intro _
    rfl
  · intro hp
    exact absurd (h.passthroughMode.symm.trans hp) (by decide)
  · intro hr
    obtain ⟨s, hs⟩ := Option.isSome_iff_exists.mp hr
    simpa [hs] using foreignName_ne_nil hs
  · intro hi
    simpa using hi

theorem consistent_certVaries (h : c.Open) : c.certVaries.Consistent := by
  rw [certVaries_eq h]
  constructor
  · intro hs
    exact absurd (h.sameCertAlways.symm.trans hs) (by decide)
  · intro hd
    exact absurd (h.defaultCertOnly.symm.trans hd) (by decide)
  · intro hp
    exact ⟨hp, hp, h.sameCertAlways⟩
  · intro hr
    simp_all
  · intro hi
    simpa using hi

end SniReport

section

variable {tlsProbe : Nat → Bytes → TlsProbeCert} {baseSni : Bytes}

theorem open_surveyed : (surveyed tlsProbe baseSni).Open := ⟨rfl, rfl, rfl, rfl, rfl⟩

theorem consistent_sniConsistency : (sniConsistency tlsProbe baseSni).Consistent := by
  cases h : (tlsProbe 0 baseSni).ok with
  | false =>
    rw [sniConsistency_failed h]
    exact SniReport.Open.consistent ⟨rfl, rfl, rfl, rfl, rfl⟩
  | true =>
    rw [sniConsistency_eq h]
    split_ifs
    · exact SniReport.consistent_sameCert open_surveyed
    · exact SniReport.consistent_certVaries open_surveyed
    · exact open_surveyed.consistent

theorem open_sniConsistency
    (h : (tlsProbe 0 baseSni).ok = false ∨ (answers tlsProbe).length < 3) :
    (sniConsistency tlsProbe baseSni).Open := by
  cases hok : (tlsProbe 0 baseSni).ok with
  | false =>
    rw [sniConsistency_failed hok]
    exact ⟨rfl, rfl, rfl, rfl, rfl⟩
  | true =>
    have hlt := h.resolve_left (by simp [hok])
    rw [sniConsistency_eq hok, if_neg fun hs => absurd hs.enough (by omega),
      if_neg fun hv => absurd hv.enough (by omega)]
    exact open_surveyed

theorem distinctCerts_sniConsistency (h : (tlsProbe 0 baseSni).ok = true) :
    (sniConsistency tlsProbe baseSni).distinctCerts =
      (digests (tlsProbe 0 baseSni :: answers tlsProbe)).card := by
  rw [sniConsistency_eq h]
  split_ifs
  · rw [SniReport.sameCert_eq open_surveyed, surveyed]
  · rw [SniReport.certVaries_eq open_surveyed, surveyed]
  · rw [surveyed]

/-- For all outcomes of the probes, the flags agree with each other and with
the names, they are not set on too little evidence, and the certificates are
counted. -/
theorem sniConsistency_flags (tlsProbe : Nat → Bytes → TlsProbeCert) (baseSni : Bytes) :
    (sniConsistency tlsProbe baseSni).Consistent ∧
      ((tlsProbe 0 baseSni).ok = false ∨ (answers tlsProbe).length < 3 →
        (sniConsistency tlsProbe baseSni).Open) ∧
      ((tlsProbe 0 baseSni).ok = true →
        (sniConsistency tlsProbe baseSni).distinctCerts =
          (digests (tlsProbe 0 baseSni :: answers tlsProbe)).card) :=
  ⟨consistent_sniConsistency, open_sniConsistency, distinctCerts_sniConsistency⟩

-- ---------------------------------------------------------------------------
-- Certificates that cover the name
-- ---------------------------------------------------------------------------

/-- The branch for varying certificates never asks whether the certificate
covers the name: any brand that it claims is taken for a foreign one. -/
theorem reality_of_covered_iff (tlsProbe : Nat → Bytes → TlsProbeCert) (baseSni : Bytes)
    (hcov : DnsName.Covers baseSni (tlsProbe 0 baseSni).subjectCn (tlsProbe 0 baseSni).san) :
    ((sniConsistency tlsProbe baseSni).realityLike = false ∧
        (sniConsistency tlsProbe baseSni).passthroughMode = false) ↔
      ¬((tlsProbe 0 baseSni).ok = true ∧
        CertVaries (tlsProbe 0 baseSni) (answers tlsProbe) ∧
        certClaimsBrand (tlsProbe 0 baseSni).subjectCn (tlsProbe 0 baseSni).san ≠ []) := by
  cases h : (tlsProbe 0 baseSni).ok with
  | false => simp [sniConsistency_failed h]
  | true =>
    rw [sniConsistency_eq h]
    split_ifs with hs hv
    · have hn : ¬CertVaries (tlsProbe 0 baseSni) (answers tlsProbe) := by
        rintro ⟨-, ⟨p, hp, hne⟩, -⟩
        exact hne (hs.same p hp)
      rw [SniReport.sameCert_eq open_surveyed]
      simp [SniReport.foreignName, certCoversName_iff.mpr hcov, hn, surveyed]
    · rw [SniReport.certVaries_eq open_surveyed]
      simp [hv, surveyed]
    · simp [hv, surveyed]

end

def manyCerts (i : Nat) (sni : Bytes) : TlsProbeCert where
  ok := true
  certSha256 := List.replicate 64 ((ascii "0123456789abcdef").getD i 0)
  subjectCn := sni

theorem reality_of_covered_manyCerts :
    ((sniConsistency manyCerts (ascii "mail.google.com")).realityLike = false ∧
        (sniConsistency manyCerts (ascii "mail.google.com")).passthroughMode = false) ↔
      ¬((manyCerts 0 (ascii "mail.google.com")).ok = true ∧
        CertVaries (manyCerts 0 (ascii "mail.google.com")) (answers manyCerts) ∧
        certClaimsBrand (manyCerts 0 (ascii "mail.google.com")).subjectCn
          (manyCerts 0 (ascii "mail.google.com")).san ≠ []) :=
  reality_of_covered_iff manyCerts (ascii "mail.google.com")
    ⟨_, List.mem_cons_self, .same (by decide) rfl⟩

/-- A site of a brand with several certificates is taken for Reality. -/
theorem covered_but_reality :
    ¬∀ (tlsProbe : Nat → Bytes → TlsProbeCert) (baseSni : Bytes),
      DnsName.Covers baseSni (tlsProbe 0 baseSni).subjectCn (tlsProbe 0 baseSni).san →
        (sniConsistency tlsProbe baseSni).realityLike = false ∧
          (sniConsistency tlsProbe baseSni).passthroughMode = false := by
  intro h
  have hf := h manyCerts (ascii "mail.google.com") ⟨_, List.mem_cons_self, .same (by decide) rfl⟩
  revert hf
  decide +kernel

end ByeByeVpn
