import ByeByeVpn.Analysis.BrandCert
import ByeByeVpn.Analysis.Verdict
import ByeByeVpn.Lib.DnsName
import Mathlib.Data.Finset.Card
import Mathlib.Data.Finset.Insert

/-!
# The SNI consistency check (`analysis/sni_consistency.cpp`)

`sni_consistency` opens one TLS connection with the name that was asked for
and one for each of ten foreign names, and compares the certificates. The TLS
probes are a parameter; each call also gets its position, as a server may
answer the same name differently.
-/

namespace ByeByeVpn

structure TlsProbeCert extends TlsProbe where
  certSubject : Bytes := []
  certSha256 : Bytes := []
  san : List Bytes := []
  subjectCn : Bytes := []

structure SniEntry where
  sni : Bytes
  ok : Bool := false
  sha : Bytes := []
  subject : Bytes := []

structure SniReport extends SniConsistency where
  baseSni : Bytes := []
  baseSubject : Bytes := []
  baseSan : List Bytes := []
  entries : List SniEntry := []
  sameCertAlways : Bool := false
  defaultCertOnly : Bool := false
  matchedForeignSni : Bytes := []
  distinctCerts : Nat := 0

def iequalsAscii (a b : Bytes) : Bool := tolowerS a == tolowerS b

def dnsNameMatch (name pat : Bytes) : Bool :=
  if name.isEmpty || pat.isEmpty then false
  else if startsWith pat (ascii "*.") then
    let suffix := pat.drop 1
    if name.length ≤ suffix.length then false
    else
      let off := name.length - suffix.length
      iequalsAscii (name.drop off) suffix && name.idxOf (chr '.') == off
  else iequalsAscii name pat

def certCoversName (sni subjectCn : Bytes) (san : List Bytes) : Bool :=
  if dnsNameMatch sni subjectCn then true else san.any fun s => dnsNameMatch sni s

def kAltSnis : List Bytes :=
  ["www.microsoft.com", "www.apple.com", "www.amazon.com", "www.google.com", "www.cloudflare.com",
    "www.bing.com", "addons.mozilla.org", "www.yandex.ru", "www.github.com",
    "random-domain-that-does-not-exist.invalid"].map ascii

/-- The counters of the loop over the foreign names, with its entries. -/
structure Survey where
  same : Nat := 0
  total : Nat := 0
  distinct : Finset Bytes := ∅
  entries : List SniEntry := []

/-- `distinct.insert(sha)` unless there is no certificate. -/
def Survey.see (v : Survey) (sha : Bytes) : Survey :=
  if !sha.isEmpty then { v with distinct := insert sha v.distinct } else v

def Survey.record (v : Survey) (s : Bytes) (p : TlsProbeCert) : Survey :=
  { v with entries := v.entries ++ [⟨s, p.ok, p.certSha256, p.certSubject⟩] }

/-- The body of the loop. -/
def Survey.probe (baseSha : Bytes) (v : Survey) (x : Bytes × TlsProbeCert) : Survey :=
  let v :=
    if x.2.ok then
      let v := { v with total := v.total + 1 }
      let v := if x.2.certSha256 == baseSha then { v with same := v.same + 1 } else v
      v.see x.2.certSha256
    else v
  v.record x.1 x.2

def matchedForeignSni (baseSni subjectCn : Bytes) (san : List Bytes) : Option Bytes :=
  kAltSnis.find? fun s => !iequalsAscii s baseSni && certCoversName s subjectCn san

namespace SniReport

/-- The branch for a server that always shows the same certificate. -/
def sameCert (c : SniReport) (baseSni : Bytes) (base : TlsProbeCert) : SniReport :=
  let c := { c with sameCertAlways := true }
  let certCoversBase := certCoversName baseSni base.subjectCn base.san
  let c :=
    if !certCoversBase then
      match ByeByeVpn.matchedForeignSni baseSni base.subjectCn base.san with
      | some s => { c with realityLike := true, matchedForeignSni := s }
      | none => c
    else c
  let c :=
    if !c.brandClaimed.isEmpty then
      let c := { c with certImpersonation := true }
      if !c.realityLike && !certCoversBase then
        { c with realityLike := true, matchedForeignSni := c.brandClaimed }
      else c
    else c
  if !c.realityLike then { c with defaultCertOnly := true } else c

/-- The branch for a server whose certificate varies. -/
def certVaries (c : SniReport) : SniReport :=
  if !c.brandClaimed.isEmpty then
    { c with
      certImpersonation := true
      realityLike := true
      matchedForeignSni := c.brandClaimed
      passthroughMode := true }
  else c

end SniReport

def altProbes (tlsProbe : Nat → Bytes → TlsProbeCert) : List (Bytes × TlsProbeCert) :=
  kAltSnis.mapIdx fun i s => (s, tlsProbe (i + 1) s)

def sniConsistency (tlsProbe : Nat → Bytes → TlsProbeCert) (baseSni : Bytes) : SniReport :=
  let c : SniReport := { baseSni }
  let base := tlsProbe 0 baseSni
  if !base.ok then c
  else
    let c := { c with
      baseSha := base.certSha256, baseSubject := base.certSubject, baseSan := base.san }
    let v : Survey := {}
    let v := (altProbes tlsProbe).foldl (Survey.probe base.certSha256) (v.see base.certSha256)
    let c := { c with
      entries := v.entries
      distinctCerts := v.distinct.card
      brandClaimed := certClaimsBrand base.subjectCn base.san }
    if 3 ≤ v.total ∧ v.same = v.total then c.sameCert baseSni base
    else if 3 ≤ v.total ∧ (v.same = 0 ∧ 3 ≤ c.distinctCerts ∨ 0 < v.same ∧ v.same < v.total) then
      c.certVaries
    else c

-- ---------------------------------------------------------------------------
-- The names that a certificate covers
-- ---------------------------------------------------------------------------

theorem iequalsAscii_iff {a b : Bytes} : iequalsAscii a b = true ↔ DnsName.Same a b := beq_iff_eq

theorem startsWith_wildcard {pat : Bytes} :
    startsWith pat (ascii "*.") = true ↔ ∃ suffix, pat = chr '*' :: chr '.' :: suffix := by
  rw [startsWith_iff]
  exact ⟨fun ⟨suffix, h⟩ => ⟨suffix, h.symm⟩, fun ⟨suffix, h⟩ => ⟨suffix, h.symm⟩⟩

theorem dnsNameMatch_wildcard {name suffix : Bytes} :
    dnsNameMatch name (chr '*' :: chr '.' :: suffix) = true ↔
      ∃ label rest, name = label ++ chr '.' :: rest ∧ label ≠ [] ∧ chr '.' ∉ label ∧
        DnsName.Same rest suffix := by
  have hw : startsWith (chr '*' :: chr '.' :: suffix) (ascii "*.") = true :=
    startsWith_wildcard.mpr ⟨_, rfl⟩
  constructor
  · intro h
    simp only [dnsNameMatch, hw, if_true, List.isEmpty_cons, Bool.or_false, List.drop_succ_cons,
      List.drop_zero, List.length_cons] at h
    split_ifs at h with _ hl
    obtain ⟨hs, hi⟩ := Bool.and_eq_true_iff.mp h
    obtain ⟨rest, hd, hr⟩ :=
      (DnsName.same_cons (by decide) (by decide)).mp (iequalsAscii_iff.mp hs)
    refine ⟨name.take (name.length - (suffix.length + 1)), rest, ?_, ?_, ?_, hr⟩
    · rw [← hd, List.take_append_drop]
    · intro hn
      have := congrArg List.length hn
      simp at this
      omega
    · -- the first dot of the name is the one that the suffix begins with
      intro hm
      have hlt := List.idxOf_lt_length_iff.mpr hm
      have ha : (name.take (name.length - (suffix.length + 1)) ++
          name.drop (name.length - (suffix.length + 1))).idxOf (chr '.') =
          (name.take (name.length - (suffix.length + 1))).idxOf (chr '.') :=
        List.idxOf_append_of_mem hm
      rw [List.take_append_drop, eq_of_beq hi] at ha
      rw [← ha, List.length_take] at hlt
      omega
  · rintro ⟨label, rest, rfl, hl, hd, hs⟩
    have hn := hs.length_eq
    have h0 : 0 < label.length := List.length_pos_iff.mpr hl
    simp only [dnsNameMatch, hw, if_true, List.isEmpty_cons, Bool.or_false, List.drop_succ_cons,
      List.drop_zero, List.length_cons, List.length_append, hn]
    rw [if_neg (by simp), if_neg (by omega), Nat.add_sub_cancel, List.drop_left,
      List.idxOf_append_of_notMem hd]
    simp only [List.idxOf_cons_self, Nat.add_zero, beq_self_eq_true, Bool.and_true]
    exact iequalsAscii_iff.mpr (congrArg (tolower (chr '.') :: ·) hs)

theorem dnsNameMatch_iff {name pat : Bytes} :
    dnsNameMatch name pat = true ↔ DnsName.Matches name pat := by
  by_cases hw : startsWith pat (ascii "*.") = true
  · obtain ⟨suffix, rfl⟩ := startsWith_wildcard.mp hw
    rw [dnsNameMatch_wildcard, DnsName.matches_wildcard]
  · constructor
    · intro h
      rw [dnsNameMatch] at h
      split_ifs at h with he
      refine .same ?_ (iequalsAscii_iff.mp h)
      rintro rfl
      exact he rfl
    · intro h
      cases h with
      | same hn hs =>
        have hp : pat ≠ [] := by
          rintro rfl
          exact hn hs.eq_nil
        simp [dnsNameMatch, hw, hn, hp, iequalsAscii_iff.mpr hs]
      | wildcard => exact absurd (startsWith_wildcard.mpr ⟨_, rfl⟩) hw

theorem certCoversName_iff {sni subjectCn : Bytes} {san : List Bytes} :
    certCoversName sni subjectCn san = true ↔ DnsName.Covers sni subjectCn san := by
  rw [DnsName.Covers, List.exists_mem_cons_iff, ← dnsNameMatch_iff, certCoversName]
  split_ifs with h
  · simp [h]
  · simp [h, dnsNameMatch_iff]

end ByeByeVpn
