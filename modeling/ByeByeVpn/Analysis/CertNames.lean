import ByeByeVpn.Analysis.SniConsistency
import Mathlib.Data.List.Forall2

/-!
# One-label wildcards

`dns_name_match` decides a wildcard by the length of its suffix and by the
first dot of the name. That is the label in the place of the asterisk, in
names of any bytes. Which names a certificate covers depends neither on their
case nor on the order of the alternative names.
-/

namespace ByeByeVpn

open DnsName (Same)

/-- `iequals_ascii` sets the bit that tells a lower-case letter. -/
def foldAscii (c : UInt8) : UInt8 := if chr 'A' ≤ c && c ≤ chr 'Z' then c ||| 0x20 else c

def iequalsLoop : Bytes → Bytes → Bool
  | ca :: a, cb :: b => if foldAscii ca ≠ foldAscii cb then false else iequalsLoop a b
  | _, _ => true

/-- The name is the pattern, or has one label in the place of its asterisk. -/
def OneLabelMatch (name pat : Bytes) : Prop :=
  (name ≠ [] ∧ pat ≠ []) ∧
    (¬ascii "*." <+: pat ∧ Same name pat ∨
      ∃ suffix label rest, pat = ascii "*." ++ suffix ∧ name = label ++ chr '.' :: rest ∧
        label ≠ [] ∧ chr '.' ∉ label ∧ Same rest suffix)

-- ---------------------------------------------------------------------------
-- Equal up to case
-- ---------------------------------------------------------------------------

theorem foldAscii_eq (c : UInt8) : foldAscii c = tolower c := by
  have hall : ∀ n < 256, foldAscii (.ofNat n) = tolower (.ofNat n) := by decide +kernel
  have hc := hall c.toNat c.toNat_lt
  rwa [UInt8.ofNat_toNat] at hc

theorem iequalsLoop_iff {a b : Bytes} (h : a.length = b.length) :
    iequalsLoop a b = true ↔ Same a b := by
  induction a generalizing b with
  | nil =>
    obtain rfl := List.eq_nil_of_length_eq_zero h.symm
    exact iff_of_true rfl rfl
  | cons c a ih =>
    cases b with
    | nil => cases h
    | cons d b =>
      have hrest := ih (Nat.succ.inj h)
      rw [iequalsLoop, foldAscii_eq, foldAscii_eq, Same, List.map_cons, List.map_cons,
        List.cons.injEq]
      split_ifs with hcd
      · simp [hcd]
      · rw [not_not] at hcd
        rw [hrest, Same, and_iff_right hcd]

theorem iequalsAscii_eq_loop (a b : Bytes) :
    iequalsAscii a b = if a.length ≠ b.length then false else iequalsLoop a b := by
  rw [Bool.eq_iff_iff, iequalsAscii_iff]
  split_ifs with hlen
  · exact iff_of_false (fun h => hlen h.length_eq) not_false
  · exact (iequalsLoop_iff (not_not.mp hlen)).symm

-- ---------------------------------------------------------------------------
-- The names that a certificate covers
-- ---------------------------------------------------------------------------

theorem matches_iff_oneLabelMatch {name pat : Bytes} :
    DnsName.Matches name pat ↔ OneLabelMatch name pat := by
  by_cases hw : ascii "*." <+: pat
  · obtain ⟨suffix, rfl⟩ := hw
    have hne (label rest : Bytes) : label ++ chr '.' :: rest ≠ [] := by simp
    constructor
    · intro h
      obtain ⟨label, rest, rfl, hl, hd, hs⟩ := DnsName.matches_wildcard.mp h
      exact ⟨⟨hne label rest, List.cons_ne_nil _ _⟩,
        .inr ⟨suffix, label, rest, rfl, rfl, hl, hd, hs⟩⟩
    · rintro ⟨-, ⟨hno, -⟩ | ⟨suffix', label, rest, heq, rfl, hl, hd, hs⟩⟩
      · exact absurd (List.prefix_append _ _) hno
      · rw [List.append_cancel_left heq]
        exact .wildcard hl hd hs
  · constructor
    · intro h
      cases h with
      | same hne hs =>
        refine ⟨⟨hne, ?_⟩, .inl ⟨hw, hs⟩⟩
        rintro rfl
        exact hne hs.eq_nil
      | wildcard => exact absurd (List.prefix_append (ascii "*.") _) hw
    · rintro ⟨⟨hne, -⟩, ⟨-, hs⟩ | ⟨suffix, label, rest, rfl, -⟩⟩
      · exact .same hne hs
      · exact absurd (List.prefix_append _ _) hw

theorem exists_same_of_forall₂ {san san' : List Bytes} (h : List.Forall₂ Same san san') :
    ∀ s ∈ san, ∃ s' ∈ san', Same s s' := by
  induction h with
  | nil => exact fun s hs => nomatch hs
  | @cons s s' san san' hs _ ih =>
    rw [List.forall_mem_cons]
    refine ⟨⟨s', List.mem_cons_self, hs⟩, fun t ht => ?_⟩
    obtain ⟨t', ht', hsame⟩ := ih t ht
    exact ⟨t', List.mem_cons_of_mem s' ht', hsame⟩

theorem certCoversName_congr {sni sni' cn cn' : Bytes} {san san' : List Bytes}
    (hsni : Same sni sni') (hcn : Same cn cn') (hsan : ∀ s ∈ san, ∃ s' ∈ san', Same s s')
    (hsan' : ∀ s ∈ san', ∃ s' ∈ san, Same s s') :
    certCoversName sni cn san = certCoversName sni' cn' san' := by
  rw [Bool.eq_iff_iff, certCoversName_iff, certCoversName_iff]
  exact ⟨fun h => h.congr hsni hcn hsan, fun h => h.congr hsni.symm hcn.symm hsan'⟩

/-- `dns_name_match` is matching with one label for a wildcard. What a
certificate covers does not depend on the case of a name, nor on the order
and the number of the alternative names. -/
theorem dnsNameMatch_oneLabel :
    (∀ name pat, dnsNameMatch name pat = true ↔ OneLabelMatch name pat) ∧
    (∀ sni sni' cn cn' san san', Same sni sni' → Same cn cn' → List.Forall₂ Same san san' →
      certCoversName sni cn san = certCoversName sni' cn' san') ∧
    ∀ sni cn san san', (∀ s, s ∈ san ↔ s ∈ san') →
      certCoversName sni cn san = certCoversName sni cn san' := by
  refine ⟨fun name pat => dnsNameMatch_iff.trans matches_iff_oneLabelMatch,
    fun sni sni' cn cn' san san' hsni hcn hsan => ?_, fun sni cn san san' hmem => ?_⟩
  · have hflip : List.Forall₂ Same san' san := hsan.flip.imp fun _ _ h => h.symm
    exact certCoversName_congr hsni hcn (exists_same_of_forall₂ hsan)
      (exists_same_of_forall₂ hflip)
  · exact certCoversName_congr rfl rfl (fun s hs => ⟨s, (hmem s).mp hs, rfl⟩)
      fun s hs => ⟨s, (hmem s).mpr hs, rfl⟩

theorem dnsNameMatch_oneLabel_example :
    (dnsNameMatch (ascii "www.example.org") (ascii "*.example.org") = true ↔
      OneLabelMatch (ascii "www.example.org") (ascii "*.example.org")) ∧
    certCoversName (ascii "www.example.org") (ascii "cn") [ascii "*.example.org"] =
      certCoversName (ascii "WWW.example.org") (ascii "CN") [ascii "*.Example.ORG"] ∧
    certCoversName (ascii "www.example.org") [] [ascii "example.org", ascii "*.example.org"] =
      certCoversName (ascii "www.example.org") []
        [ascii "*.example.org", ascii "example.org", ascii "*.example.org"] := by
  refine ⟨dnsNameMatch_oneLabel.1 _ _, dnsNameMatch_oneLabel.2.1 _ _ _ _ _ _ ?_ ?_ ?_,
    dnsNameMatch_oneLabel.2.2 _ _ _ _ fun s => ?_⟩
  · decide
  · decide
  · exact .cons (by decide) .nil
  · simp only [List.mem_cons, List.not_mem_nil, or_false]
    tauto

/-- One label, and not none or two; a suffix without a name is matched as well. -/
example :
    dnsNameMatch (ascii "www.example.org") (ascii "*.example.org") = true ∧
    dnsNameMatch (ascii ".example.org") (ascii "*.example.org") = false ∧
    dnsNameMatch (ascii "example.org") (ascii "*.example.org") = false ∧
    dnsNameMatch (ascii "a.www.example.org") (ascii "*.example.org") = false ∧
    dnsNameMatch (ascii "www.") (ascii "*.") = true := by
  decide

end ByeByeVpn
