import ByeByeVpn.Analysis.SniConsistency

/-!
# The names of a brand

A name claims a brand of the table if it is the brand's domain or lies below
it. The networks of a brand are those of its own entry: the second lookup of
`asn_owns_brand` finds the entry that the first one was from.
-/

namespace ByeByeVpn

/-- The name without the wildcard in the place of its first label. -/
def unstarred (name : Bytes) : Bytes :=
  if startsWith name (ascii "*.") then name.drop 2 else name

/-- The name, a wildcard apart, is the brand's. -/
def BrandMarker.Exact (entry : BrandMarker) (name : Bytes) : Prop :=
  DnsName.Same (unstarred name) entry.brand

def BrandMarker.Suffix (entry : BrandMarker) (name : Bytes) : Prop :=
  DnsName.Below (unstarred name) entry.brand

def BrandName (name : Bytes) : Prop :=
  ∃ entry ∈ kBrandTable, entry.Exact name ∨ entry.Suffix name

def BrandMarker.markers (entry : BrandMarker) : List Bytes := split entry.asnMarkers (chr ',')

theorem iequals_iff {a b : Bytes} : iequals a b = true ↔ DnsName.Same a b := beq_iff_eq

theorem iendsWithDot_iff {s suffix : Bytes} :
    iendsWithDot s suffix = true ↔ DnsName.Below s suffix := by
  constructor
  · intro h
    unfold iendsWithDot at h
    split_ifs at h with hlen hdot
    have hk : s.length - suffix.length - 1 < s.length := by omega
    rw [not_not, List.getD_eq_getElem?_getD, List.getElem?_eq_getElem hk, Option.getD_some] at hdot
    have hnext : s.length - suffix.length - 1 + 1 = s.length - suffix.length := by omega
    refine ⟨s.take (s.length - suffix.length - 1), s.drop (s.length - suffix.length), ?_, ?_,
      iequals_iff.mp h⟩
    · conv_lhs => rw [← List.take_append_drop (s.length - suffix.length - 1) s]
      rw [List.drop_eq_getElem_cons hk, hdot, hnext]
    · rw [Ne, List.take_eq_nil_iff, not_or]
      exact ⟨by omega, List.ne_nil_of_length_pos (by omega)⟩
  · rintro ⟨labels, rest, rfl, hne, hsame⟩
    have hrest := hsame.length_eq
    have hpos := List.length_pos_iff.mpr hne
    have hlen : (labels ++ chr '.' :: rest).length = labels.length + rest.length + 1 := by
      simp only [List.length_append, List.length_cons]
      omega
    have hat : labels.length + rest.length + 1 - suffix.length - 1 = labels.length := by omega
    have hnext : labels.length + rest.length + 1 - suffix.length = labels.length + 1 := by omega
    rw [iendsWithDot, hlen, hat, hnext, if_neg (by omega), if_neg, ← List.drop_drop,
      List.drop_left]
    · exact iequals_iff.mpr hsame
    · simp

-- ---------------------------------------------------------------------------
-- The table
-- ---------------------------------------------------------------------------

def BrandMarker.tidy (entry : BrandMarker) : Bool :=
  !entry.brand.isEmpty && !startsWith entry.brand (ascii "*.") &&
    split (tolowerS entry.asnMarkers) (chr ',') == entry.markers &&
    entry.markers.all fun m => !m.isEmpty && trim m == m

theorem tidy_of_mem : ∀ entry ∈ kBrandTable, entry.tidy = true :=
  List.all_iff_forall_prop.mp (by decide +kernel)

theorem nodup_brands : (kBrandTable.map fun entry => tolowerS entry.brand).Nodup := by
  decide +kernel

theorem BrandMarker.tidy_iff {entry : BrandMarker} :
    entry.tidy = true ↔ ((entry.brand ≠ [] ∧ startsWith entry.brand (ascii "*.") = false) ∧
      split (tolowerS entry.asnMarkers) (chr ',') = entry.markers) ∧
      ∀ m ∈ entry.markers, m.isEmpty = false ∧ trim m = m := by
  simp only [BrandMarker.tidy, Bool.and_eq_true, Bool.not_eq_true', List.isEmpty_eq_false_iff,
    beq_iff_eq, List.all_eq_true]

theorem brand_ne_nil {entry : BrandMarker} (he : entry ∈ kBrandTable) : entry.brand ≠ [] :=
  (BrandMarker.tidy_iff.mp (tidy_of_mem entry he)).1.1.1

theorem find?_brand {entry : BrandMarker} (he : entry ∈ kBrandTable) {p : BrandMarker → Bool}
    (hp : p entry = true)
    (honly : ∀ e ∈ kBrandTable, p e = true → DnsName.Same entry.brand e.brand) :
    kBrandTable.find? p = some entry := by
  have hinj := List.inj_on_of_nodup_map nodup_brands
  cases hfind : kBrandTable.find? p with
  | none => exact absurd hp (List.find?_eq_none.mp hfind entry he)
  | some e =>
    have hsame := honly e (List.mem_of_find?_eq_some hfind) (List.find?_some hfind)
    rw [hinj he (List.mem_of_find?_eq_some hfind) hsame]

-- ---------------------------------------------------------------------------
-- One name
-- ---------------------------------------------------------------------------

theorem isBrand_eq (name : Bytes) :
    isBrand name =
      match kBrandTable.find? fun entry => iequals (unstarred name) entry.brand with
      | some exact => some exact.brand
      | none =>
        (kBrandTable.find? fun entry => iendsWithDot (unstarred name) entry.brand).map
          BrandMarker.brand := by
  cases name with
  | nil =>
    have hexact : kBrandTable.find? (fun entry => iequals [] entry.brand) = none :=
      List.find?_eq_none.mpr fun entry he h =>
        brand_ne_nil he (iequals_iff.mp h).symm.eq_nil
    have hsuffix : kBrandTable.find? (fun entry => iendsWithDot [] entry.brand) = none :=
      List.find?_eq_none.mpr fun entry _ h => by cases h
    rw [show unstarred [] = [] from rfl, hexact, hsuffix]
    rfl
  | cons c name => rfl

/-- The brand found is that of an entry that the name equals, or of one that it
lies below if it equals none. -/
theorem isBrand_eq_some {name brand : Bytes} (h : isBrand name = some brand) :
    ∃ entry ∈ kBrandTable, brand = entry.brand ∧
      (entry.Exact name ∨ entry.Suffix name ∧ ∀ e ∈ kBrandTable, ¬e.Exact name) := by
  rw [isBrand_eq] at h
  split at h
  · next entry hfind =>
    have hp := List.find?_some hfind
    exact ⟨entry, List.mem_of_find?_eq_some hfind, (Option.some.inj h).symm,
      .inl (iequals_iff.mp hp)⟩
  · next hnone =>
    obtain ⟨entry, hfind, rfl⟩ := Option.map_eq_some_iff.mp h
    have hp := List.find?_some hfind
    refine ⟨entry, List.mem_of_find?_eq_some hfind, rfl,
      .inr ⟨iendsWithDot_iff.mp hp, fun e he hexact => ?_⟩⟩
    exact List.find?_eq_none.mp hnone e he (iequals_iff.mpr hexact)

theorem isBrand_eq_none_iff {name : Bytes} : isBrand name = none ↔ ¬BrandName name := by
  constructor
  · rintro h ⟨entry, he, hname⟩
    rw [isBrand_eq] at h
    split at h
    · cases h
    · next hnone =>
      rw [Option.map_eq_none_iff] at h
      rcases hname with hexact | hsuffix
      · exact List.find?_eq_none.mp hnone entry he (iequals_iff.mpr hexact)
      · exact List.find?_eq_none.mp h entry he (iendsWithDot_iff.mpr hsuffix)
  · intro hno
    cases h : isBrand name with
    | none => rfl
    | some brand =>
      obtain ⟨entry, he, -, hname⟩ := isBrand_eq_some h
      exact absurd ⟨entry, he, hname.imp_right And.left⟩ hno

theorem isBrand_ne_nil {name brand : Bytes} (h : isBrand name = some brand) : brand ≠ [] := by
  obtain ⟨entry, he, rfl, -⟩ := isBrand_eq_some h
  exact brand_ne_nil he

theorem unstarred_brand {entry : BrandMarker} (he : entry ∈ kBrandTable) :
    unstarred entry.brand = entry.brand := by
  obtain ⟨⟨⟨-, hstar⟩, -⟩, -⟩ := BrandMarker.tidy_iff.mp (tidy_of_mem entry he)
  rw [unstarred, hstar, if_neg Bool.false_ne_true]

theorem isBrand_brand {entry : BrandMarker} (he : entry ∈ kBrandTable) :
    isBrand entry.brand = some entry.brand := by
  rw [isBrand_eq, unstarred_brand he, find?_brand he (iequals_iff.mpr rfl)]
  exact fun e _ heq => iequals_iff.mp heq

-- ---------------------------------------------------------------------------
-- The names of a certificate
-- ---------------------------------------------------------------------------

theorem certClaimsBrand_eq (subjectCn : Bytes) (san : List Bytes) :
    certClaimsBrand subjectCn san = ((subjectCn :: san).findSome? isBrand).getD [] := by
  rw [certClaimsBrand, List.findSome?_cons]
  cases isBrand subjectCn <;> rfl

theorem certClaimsBrand_ne_nil_iff {subjectCn : Bytes} {san : List Bytes} :
    certClaimsBrand subjectCn san ≠ [] ↔ ∃ name ∈ subjectCn :: san, BrandName name := by
  rw [certClaimsBrand_eq]
  cases h : (subjectCn :: san).findSome? isBrand with
  | none =>
    refine iff_of_false (fun hne => hne rfl) ?_
    rintro ⟨name, hm, hname⟩
    exact isBrand_eq_none_iff.mp (List.findSome?_eq_none_iff.mp h name hm) hname
  | some brand =>
    obtain ⟨name, hm, hb⟩ := List.exists_of_findSome?_eq_some h
    refine iff_of_true (isBrand_ne_nil hb) ⟨name, hm, ?_⟩
    by_contra hno
    rw [isBrand_eq_none_iff.mpr hno] at hb
    cases hb

theorem asnOwnsBrand_brand {entry : BrandMarker} (he : entry ∈ kBrandTable) (orgs : List Bytes) :
    asnOwnsBrand entry.brand orgs = true ↔
      ∃ org ∈ orgs, ∃ marker ∈ entry.markers, marker <:+: tolowerS org := by
  have hb : entry.brand.isEmpty = false := List.isEmpty_eq_false_iff.mpr (brand_ne_nil he)
  have htable : kBrandTable.find? (fun e => entry.brand == e.brand) = some entry := by
    refine find?_brand he (beq_self_eq_true _) fun e _ heq => ?_
    rw [eq_of_beq heq, DnsName.Same]
  obtain ⟨⟨-, hsplit⟩, htidy⟩ := BrandMarker.tidy_iff.mp (tidy_of_mem entry he)
  simp only [asnOwnsBrand, hb, Bool.false_or, isBrand_brand he, htable, hsplit]
  cases orgs with
  | nil => simp
  | cons org orgs =>
    simp only [List.isEmpty_cons, Bool.false_eq_true, if_false, List.any_eq_true]
    refine exists_congr fun org => and_congr_right fun _ => exists_congr fun marker =>
      and_congr_right fun hm => ?_
    obtain ⟨hne, htrim⟩ := htidy marker hm
    rw [htrim, hne, Bool.not_false, Bool.true_and, contains_iff]

/-- A certificate claims a brand if one of its names does, and the first one
that does decides. The networks of the brand are those of its one entry. -/
theorem certClaimsBrand_spec (subjectCn : Bytes) (san : List Bytes) :
    (certClaimsBrand subjectCn san ≠ [] ↔ ∃ name ∈ subjectCn :: san, BrandName name) ∧
    (certClaimsBrand subjectCn san ≠ [] → ∃ before name after entry,
      subjectCn :: san = before ++ name :: after ∧ (∀ earlier ∈ before, ¬BrandName earlier) ∧
      entry ∈ kBrandTable ∧ certClaimsBrand subjectCn san = entry.brand ∧
      (entry.Exact name ∨ entry.Suffix name ∧ ∀ e ∈ kBrandTable, ¬e.Exact name) ∧
      (∀ e ∈ kBrandTable, e.brand = entry.brand → e = entry) ∧
      ∀ orgs, asnOwnsBrand (certClaimsBrand subjectCn san) orgs = true ↔
        ∃ org ∈ orgs, ∃ marker ∈ entry.markers, marker <:+: tolowerS org) := by
  refine ⟨certClaimsBrand_ne_nil_iff, fun hne => ?_⟩
  cases h : (subjectCn :: san).findSome? isBrand with
  | none => exact absurd (by rw [certClaimsBrand_eq, h]; rfl) hne
  | some brand =>
    have hclaims : certClaimsBrand subjectCn san = brand := by rw [certClaimsBrand_eq, h]; rfl
    obtain ⟨before, name, after, hsplit, hbrand, hbefore⟩ := List.findSome?_eq_some_iff.mp h
    obtain ⟨entry, he, rfl, hname⟩ := isBrand_eq_some hbrand
    refine ⟨before, name, after, entry, hsplit, fun earlier hm => ?_, he, hclaims, hname,
      fun e hm heq => ?_, ?_⟩
    · exact isBrand_eq_none_iff.mp (hbefore earlier hm)
    · exact List.inj_on_of_nodup_map nodup_brands hm he (by rw [heq])
    · rw [hclaims]
      exact asnOwnsBrand_brand he

end ByeByeVpn
