import ByeByeVpn.Analysis.GeoBlocks
import ByeByeVpn.Core.JsonPieces

/-!
# The country's code (`geo_sypex`)

The code is looked up as `iso` in the whole reply, and in the block of the
country only if that found nothing.
-/

namespace ByeByeVpn

open JSON JsonText Search

def ReportsCode (httpGet : Bytes → Int → HttpResp) (ip code : Bytes) : Prop :=
  ∃ fuel₀, ∀ fuel, fuel₀ ≤ fuel →
    ∃ g, geoSypex fuel httpGet ip = some g ∧ g.countryCode = code

-- ---------------------------------------------------------------------------
-- The first one that is met
-- ---------------------------------------------------------------------------

/-- The search below the members, in the order in which their names appear,
comes to the text first. -/
def MetFirst (key text : Bytes) (members : List (Bytes × Doc)) : Prop :=
  ∃ before k after, firstAppearance (members.map Prod.fst) = before ++ k :: after ∧
    (∀ k' ∈ before, ∀ d, lastNamed k' members = some d → Doc.lookup key d = []) ∧
    ∃ d, lastNamed k members = some d ∧ Doc.lookup key d = text

section
variable {names : List Bytes} {hit : Bytes → Option Bytes} {k s : Bytes}

theorem firstNonEmpty_skip (h : ∀ t, hit k = some t → t = []) :
    firstNonEmpty ((k :: names).filterMap hit) = firstNonEmpty (names.filterMap hit) := by
  cases hk : hit k with
  | none => rw [List.filterMap_cons_none hk]
  | some t =>
    obtain rfl := h t hk
    rw [List.filterMap_cons_some hk]
    rfl

theorem firstNonEmpty_filterMap_iff (hs : s ≠ []) :
    firstNonEmpty (names.filterMap hit) = s ↔
      ∃ before k after, names = before ++ k :: after ∧
        (∀ k' ∈ before, ∀ t, hit k' = some t → t = []) ∧ hit k = some s := by
  induction names with
  | nil => simp [firstNonEmpty, hs.symm]
  | cons k names ih =>
    by_cases hk : ∀ t, hit k = some t → t = []
    · rw [firstNonEmpty_skip hk, ih]
      constructor
      · rintro ⟨before, k', after, rfl, hbefore, hs⟩
        exact ⟨k :: before, k', after, rfl, List.forall_mem_cons.mpr ⟨hk, hbefore⟩, hs⟩
      · rintro ⟨before, k', after, hnames, hbefore, hhit⟩
        cases before with
        | nil =>
          obtain ⟨rfl, -⟩ := List.cons.inj hnames
          exact absurd (hk s hhit) hs
        | cons k'' before =>
          obtain ⟨rfl, rfl⟩ := List.cons.inj hnames
          exact ⟨before, k', after, rfl, (List.forall_mem_cons.mp hbefore).2, hhit⟩
    · obtain ⟨t, ht⟩ := not_forall.mp hk
      obtain ⟨ht, hne⟩ := Classical.not_imp.mp ht
      have hfirst : firstNonEmpty ((k :: names).filterMap hit) = t := by
        rw [List.filterMap_cons_some ht]
        cases t with
        | nil => exact absurd rfl hne
        | cons c t => rfl
      rw [hfirst]
      constructor
      · rintro rfl
        exact ⟨[], k, names, rfl, List.forall_mem_nil _, ht⟩
      · rintro ⟨before, k', after, hnames, hbefore, hhit⟩
        cases before with
        | nil =>
          obtain ⟨rfl, -⟩ := List.cons.inj hnames
          exact Option.some.inj (ht.symm.trans hhit)
        | cons k'' before =>
          obtain ⟨rfl, -⟩ := List.cons.inj hnames
          exact absurd (hbefore _ List.mem_cons_self t ht) hne

end

/-- Without a member of that name the lookup is the search below the members. -/
theorem lookup_eq_iff_metFirst {key text : Bytes} {members : List (Bytes × Doc)}
    (hnone : lastNamed key members = none) (htext : text ≠ []) :
    Doc.lookup key (.object members) = text ↔ MetFirst key text members := by
  rw [Doc.lookup, hnone, lookupMembers_eq, MetFirst]
  simp only [lastNamed_map_snd]
  rw [firstNonEmpty_filterMap_iff htext]
  simp only [Option.map_eq_some_iff, forall_exists_index, and_imp, forall_apply_eq_imp_iff₂]

-- ---------------------------------------------------------------------------
-- What is reported
-- ---------------------------------------------------------------------------

theorem returned {fuel : Nat} {body key text : Bytes} (h : jsonGetStr fuel body key = some text) :
    closersFit body = true ∧ ∃ answer : Bytes → Bytes,
      ∀ key, jsonGetStr fuel body key = some (answer key) := by
  obtain ⟨⟨v, j⟩, hv, -⟩ := Option.map_eq_some_iff.mp h
  refine ⟨Parses.closersFit ⟨fuel, hv⟩, fun key => findKey key v, fun key => ?_⟩
  rw [jsonGetStr, hv]
  rfl

theorem jsonGetStr_unique {fuel fuel' : Nat} {body key text text' : Bytes}
    (h : jsonGetStr fuel body key = some text) (h' : jsonGetStr fuel' body key = some text') :
    text = text' := by
  obtain ⟨⟨v, j⟩, hv, rfl⟩ := Option.map_eq_some_iff.mp h
  obtain ⟨⟨v', j'⟩, hv', rfl⟩ := Option.map_eq_some_iff.mp h'
  have heq := (parse_mono (Nat.le_max_left fuel fuel') hv).symm.trans
    (parse_mono (Nat.le_max_right fuel fuel') hv')
  obtain ⟨rfl, -⟩ := Prod.mk.inj (Option.some.inj heq)
  rfl

def Cut.block (cut : Cut) (body : Bytes) : Option Bytes := (cut.place body).map (blockText body)

def sypexCuts : List Cut := [.sypexCountry, .sypexCity]

section
variable {cut : Cut} {fuel : Nat} {body : Bytes} {whole : Bytes → Bytes} {g g' : GeoInfo}

theorem mem_sypexCuts : cut ∈ sypexCuts ↔ cut = .sypexCountry ∨ cut = .sypexCity := by
  simp [sypexCuts]

theorem sypexStep_none (hcut : cut ∈ sypexCuts) (hplace : cut.place body = none) (g : GeoInfo) :
    cut.step fuel body g = some g := by
  rcases mem_sypexCuts.mp hcut with rfl | rfl
  · have hplace : blockPlace (ascii "country") body = none := hplace
    simp only [Cut.step, sypexCountry, hplace]
  · have hplace : blockPlace (ascii "city") body = none := hplace
    simp only [Cut.step, sypexCity, hplace]

theorem sypexStep_reads {place : Nat × Nat} (hcut : cut ∈ sypexCuts)
    (hplace : cut.place body = some place) (h : cut.step fuel body g = some g') :
    ∃ text, jsonGetStr fuel (blockText body place) (ascii "name_en") = some text := by
  rcases mem_sypexCuts.mp hcut with rfl | rfl
  · have hplace : blockPlace (ascii "country") body = some place := hplace
    simp only [Cut.step, sypexCountry, hplace] at h
    obtain ⟨text, hread, -⟩ := Option.bind_eq_some_iff.mp h
    exact ⟨text, hread⟩
  · have hplace : blockPlace (ascii "city") body = some place := hplace
    simp only [Cut.step, sypexCity, hplace] at h
    obtain ⟨text, hread, -⟩ := Option.bind_eq_some_iff.mp h
    exact ⟨text, hread⟩

theorem sypexStep_iff (hcut : cut ∈ sypexCuts)
    (hbody : ∀ key, jsonGetStr fuel body key = some (whole key)) :
    cut.step fuel body g = some g' ↔
      (cut.block body = none ∧ g' = g) ∨
        ∃ sb part, cut.block body = some sb ∧ (∀ key, jsonGetStr fuel sb key = some (part key)) ∧
          g' = cut.taken whole part g := by
  cases hplace : cut.place body with
  | none => simp [Cut.block, hplace, sypexStep_none hcut hplace, eq_comm]
  | some place =>
    have hblock : cut.block body = some (blockText body place) := by
      rw [Cut.block, hplace]
      rfl
    have hstep {part : Bytes → Bytes}
        (hpart : ∀ key, jsonGetStr fuel (blockText body place) key = some (part key)) :=
      cut.step_eq hplace (fun h => absurd (h ▸ hcut) (by decide)) hbody hpart g
    rw [hblock]
    constructor
    · intro h
      obtain ⟨text, hread⟩ := sypexStep_reads hcut hplace h
      obtain ⟨-, part, hpart⟩ := returned hread
      exact .inr ⟨_, part, rfl, hpart, Option.some.inj (h.symm.trans (hstep hpart))⟩
    · rintro (⟨hnone, -⟩ | ⟨sb, part, hsb, hpart, rfl⟩)
      · cases hnone
      · obtain rfl := Option.some.inj hsb
        exact hstep hpart

end

-- ---------------------------------------------------------------------------
-- Where the blocks stand
-- ---------------------------------------------------------------------------

/-- The quoted name stands in the text, and no brace is opened behind the first
one. -/
def EndsBehind (name pre : Bytes) : Prop :=
  ∃ ap, find (quotedName name) pre = some ap ∧ chr '\x7b' ∉ pre.drop ap

def OutsideStrings (pre : Bytes) : Prop :=
  ∃ stack, pre.foldl Scan.feed (.reading .token []) = .reading .token stack

/-- The first brace behind the name is one of the document, or what follows it
up to the next closing brace has no closing bracket of the wrong kind. -/
def BraceFits (text name : Bytes) : Prop :=
  ∀ pre mid post, text = pre ++ chr '\x7b' :: (mid ++ chr '\x7d' :: post) →
    EndsBehind name pre → chr '\x7d' ∉ mid →
      OutsideStrings pre ∨ closersFit (chr '\x7b' :: (mid ++ [chr '\x7d'])) = true

theorem blockPlace_some {name body : Bytes} {ob ce : Nat} (hname : chr '\x7b' ∉ quotedName name)
    (h : blockPlace name body = some (ob, ce)) :
    ∃ pre mid post, body = pre ++ chr '\x7b' :: (mid ++ chr '\x7d' :: post) ∧
      ob = pre.length ∧ ce = pre.length + mid.length + 1 ∧ EndsBehind name pre ∧
      chr '\x7d' ∉ mid := by
  obtain ⟨ap, ⟨hap, hob⟩, hce⟩ := blockPlace_iff.mp h
  have hlen := length_of_find hap
  obtain ⟨pre, rest, rfl, rfl⟩ := of_findFrom_letter (by omega) hob
  obtain ⟨k, hk, rfl⟩ := Option.map_eq_some_iff.mp hce
  rw [List.drop_left, find_cons (by simp; decide)] at hk
  obtain ⟨j, hj, rfl⟩ := Option.map_eq_some_iff.mp hk
  obtain ⟨mid, post, rfl, rfl, hmid⟩ := of_find_letter hj
  exact ⟨pre, mid, post, rfl, rfl, by omega, ⟨ap, (find_name_iff hname).mp ⟨hap, hob⟩⟩, hmid⟩

theorem Cut.block_eq_some_iff {cut : Cut} {text sb : Bytes} (hcut : cut ∈ sypexCuts) :
    cut.block text = some sb ↔
      ∃ pre mid post, text = pre ++ chr '\x7b' :: (mid ++ chr '\x7d' :: post) ∧
        EndsBehind cut.name pre ∧ chr '\x7d' ∉ mid ∧
        sb = chr '\x7b' :: (mid ++ [chr '\x7d']) := by
  have hne : cut ≠ iplocate := fun h => absurd (h ▸ hcut) (by decide)
  have hblock (pre mid post : Bytes) :
      blockText (pre ++ chr '\x7b' :: (mid ++ chr '\x7d' :: post))
        (pre.length, pre.length + mid.length + 1) = chr '\x7b' :: (mid ++ [chr '\x7d']) := by
    have hvalue := blockText_value pre (chr '\x7b' :: (mid ++ [chr '\x7d'])) post
      (List.cons_ne_nil _ _)
    rw [List.length_cons, List.length_append, List.length_singleton] at hvalue
    simpa [Nat.add_assoc] using hvalue
  rw [block, Option.map_eq_some_iff]
  constructor
  · rintro ⟨⟨ob, ce⟩, hplace, rfl⟩
    rw [place, if_neg hne] at hplace
    obtain ⟨pre, mid, post, rfl, rfl, rfl, hname, hmid⟩ := blockPlace_some cut.no_brace hplace
    exact ⟨pre, mid, post, rfl, hname, hmid, hblock pre mid post⟩
  · rintro ⟨pre, mid, post, rfl, ⟨ap, hap, hbrace⟩, hmid, rfl⟩
    refine ⟨_, (cut.place_iff post).mpr ⟨ap, hap, hbrace, fun h => absurd h hne, ?_⟩,
      hblock pre mid post⟩
    rw [← List.cons_append, List.dropLast_concat, List.mem_cons, not_or]
    exact ⟨by decide, hmid⟩

theorem Cut.block_fits_iff {cut : Cut} {text : Bytes} (hcut : cut ∈ sypexCuts)
    (htext : closersFit text = true) :
    (∀ sb, cut.block text = some sb → closersFit sb = true) ↔ BraceFits text cut.name := by
  constructor
  · intro h pre mid post hsplit hname hmid
    exact .inr (h _ ((block_eq_some_iff hcut).mpr ⟨pre, mid, post, hsplit, hname, hmid, rfl⟩))
  · intro h sb hsb
    obtain ⟨pre, mid, post, rfl, hname, hmid, rfl⟩ := (block_eq_some_iff hcut).mp hsb
    rcases h pre mid post rfl hname hmid with ⟨stack, hstack⟩ | hfits
    · exact Scan.fits_object hmid hstack htext
    · exact hfits

-- ---------------------------------------------------------------------------
-- When it is the country's
-- ---------------------------------------------------------------------------

def OwnIsoEmpty (root : List (Bytes × Doc)) : Prop :=
  ∃ d, lastNamed (ascii "iso") root = some d ∧ Doc.text d = []

def CountryPlain (text : Bytes) (root country : List (Bytes × Doc)) : Prop :=
  ∃ pre value post, text = pre ++ value ++ post ∧
    RootMember standardSpace pre value post (ascii "country") (.object country) root ∧
    Cut.sypexCountry.Plain pre value

/-- The reply leads to the code: by an `iso` of its own, or without a text in
that by a plain block of the country, or else by the first `iso` below. -/
def CodeFound (text : Bytes) (root country : List (Bytes × Doc)) (code : Bytes) : Prop :=
  match lastNamed (ascii "iso") root with
  | some d => Doc.text d = code ∨ Doc.text d = [] ∧ CountryPlain text root country
  | none => MetFirst (ascii "iso") code root

def CountryReads (text code : Bytes) : Prop :=
  ∃ sb, Cut.sypexCountry.block text = some sb ∧ ∃ fuel, jsonGetStr fuel sb (ascii "iso") = some code

theorem firstNonEmpty_ne_nil {results : List Bytes} {s : Bytes} (hmem : s ∈ results)
    (hs : s ≠ []) : firstNonEmpty results ≠ [] := by
  rw [firstNonEmpty]
  cases hfind : results.find? (!·.isEmpty) with
  | none =>
    have := List.find?_eq_none.mp hfind s hmem
    simp [hs] at this
  | some t =>
    have := List.find?_some hfind
    simpa using this

section
variable {text code : Bytes} {root country : List (Bytes × Doc)}

theorem lookup_iso_ne_nil (hcountry : lastNamed (ascii "country") root = some (.object country))
    (hiso : lastNamed (ascii "iso") country = some (.string code)) (hcode : code ≠ [])
    (hnone : lastNamed (ascii "iso") root = none) :
    Doc.lookup (ascii "iso") (.object root) ≠ [] := by
  have hcut : Doc.lookup (ascii "iso") (.object country) = code := by
    rw [Doc.lookup, hiso]
    rfl
  rw [Doc.lookup, hnone, lookupMembers_eq]
  simp only [lastNamed_map_snd]
  refine firstNonEmpty_ne_nil (List.mem_filterMap.mpr ⟨ascii "country", ?_, ?_⟩) hcode
  · exact mem_firstAppearance.mpr (List.mem_map.mpr ⟨_, mem_of_lastNamed hcountry, rfl⟩)
  · rw [hcountry, Option.map_some, hcut]

theorem CountryPlain.reads (hiso : lastNamed (ascii "iso") country = some (.string code))
    (h : CountryPlain text root country) : CountryReads text code := by
  obtain ⟨pre, value, post, rfl, hroot, hplain⟩ := h
  have ⟨_, _, _, _, hcloser⟩ := hplain
  obtain ⟨fuel, hanswer⟩ := answers_object hroot.value hcloser
  refine ⟨value, ?_, fuel, ?_⟩
  · have hplace : Cut.sypexCountry.place (pre ++ value ++ post) = some _ :=
      (Cut.place_value_iff hroot).mpr hplain
    have hmember : RootMember standardSpace pre value post Cut.sypexCountry.name
        (.object country) root := hroot
    have hne := ne_nil_of_root hmember
    rw [Cut.block, hplace, Option.map_some, blockText_value pre value post hne]
  · rw [hanswer fuel (Nat.le_refl fuel)]
    simp [memberText, hiso, Doc.text]

theorem lookup_of_found (hiso : lastNamed (ascii "iso") country = some (.string code))
    (hcode : code ≠ []) (h : CodeFound text root country code) :
    Doc.lookup (ascii "iso") (.object root) = code ∨
      Doc.lookup (ascii "iso") (.object root) = [] ∧ CountryReads text code := by
  rw [CodeFound] at h
  cases hroot : lastNamed (ascii "iso") root with
  | none =>
    rw [hroot] at h
    exact .inl ((lookup_eq_iff_metFirst hroot hcode).mpr h)
  | some d =>
    rw [hroot] at h
    rw [Doc.lookup, hroot]
    exact h.imp id fun ⟨hnil, hplain⟩ => ⟨hnil, hplain.reads hiso⟩

theorem found_of_lookup (hcountry : lastNamed (ascii "country") root = some (.object country))
    (hiso : lastNamed (ascii "iso") country = some (.string code)) (hcode : code ≠ [])
    (h : Doc.lookup (ascii "iso") (.object root) = code ∨
      Doc.lookup (ascii "iso") (.object root) = []) :
    OwnIsoEmpty root ∨ CodeFound text root country code := by
  cases hroot : lastNamed (ascii "iso") root with
  | none =>
    have hne := lookup_iso_ne_nil hcountry hiso hcode hroot
    refine .inr ?_
    rw [CodeFound, hroot]
    exact (lookup_eq_iff_metFirst hroot hcode).mp (h.resolve_right hne)
  | some d =>
    rw [Doc.lookup, hroot] at h
    rcases h with hcode | hnil
    · refine .inr ?_
      rw [CodeFound, hroot]
      exact .inl hcode
    · exact .inl ⟨d, hroot, hnil⟩

end

section
variable {httpGet : Bytes → Int → HttpResp} {ip text code : Bytes}
  {root country : List (Bytes × Doc)} {fuel : Nat} {g : GeoInfo}

theorem geoSypex_eq {whole : Bytes → Bytes} (hok : (httpGet (sypexUrl ip) 7000).ok = true)
    (hreply : (httpGet (sypexUrl ip) 7000).body = text)
    (hbody : ∀ key, jsonGetStr fuel text key = some (whole key)) :
    ∃ g₀ : GeoInfo, g₀.countryCode = whole (ascii "iso") ∧
      geoSypex fuel httpGet ip =
        (Cut.sypexCountry.step fuel text g₀).bind (Cut.sypexCity.step fuel text) := by
  refine ⟨{ source := ascii "sypexgeo.net (RU)"
            ip := firstNonEmpty [ip, whole (ascii "ip")]
            countryCode := whole (ascii "iso") }, rfl, ?_⟩
  simp only [geoSypex, hok, hreply, hbody, orIfEmpty_some, Bool.not_true, Bool.false_eq_true,
    if_false, bind, Option.bind_some]
  rfl

theorem firstNonEmpty_pair_eq_iff {s t : Bytes} (hcode : code ≠ []) :
    firstNonEmpty [s, t] = code ↔ s = code ∨ s = [] ∧ t = code := by
  rw [firstNonEmpty_pair]
  cases s with
  | nil => simp [hcode.symm]
  | cons c s => simp

theorem country_code_iff {whole : Bytes → Bytes} {g₀ : GeoInfo} (hcode : code ≠ [])
    (hbody : ∀ key, jsonGetStr fuel text key = some (whole key))
    (hstep : Cut.sypexCountry.step fuel text g₀ = some g) :
    g.countryCode = code ↔
      g₀.countryCode = code ∨ g₀.countryCode = [] ∧ CountryReads text code := by
  rw [CountryReads]
  rcases (sypexStep_iff (by decide) hbody).mp hstep with ⟨hnone, rfl⟩ | ⟨sb, part, hsb, hpart, rfl⟩
  · simp [hnone]
  · have hread : (∃ fuel, jsonGetStr fuel sb (ascii "iso") = some code) ↔
        part (ascii "iso") = code := by
      constructor
      · rintro ⟨fuel', h⟩
        exact jsonGetStr_unique (hpart _) h
      · rintro rfl
        exact ⟨fuel, hpart _⟩
    simp only [hsb, Option.some.injEq, exists_eq_left', hread]
    exact firstNonEmpty_pair_eq_iff hcode

theorem city_keeps_code {whole : Bytes → Bytes} {g₀ : GeoInfo}
    (hbody : ∀ key, jsonGetStr fuel text key = some (whole key))
    (hstep : Cut.sypexCity.step fuel text g₀ = some g) : g.countryCode = g₀.countryCode := by
  rcases (sypexStep_iff (by decide) hbody).mp hstep with ⟨-, rfl⟩ | ⟨sb, part, -, -, rfl⟩ <;> rfl

theorem fits_of_sypexStep {cut : Cut} {whole : Bytes → Bytes} {sb : Bytes} {g₀ : GeoInfo}
    (hcut : cut ∈ sypexCuts) (hbody : ∀ key, jsonGetStr fuel text key = some (whole key))
    (hstep : cut.step fuel text g₀ = some g) (hsb : cut.block text = some sb) :
    closersFit sb = true := by
  rcases (sypexStep_iff hcut hbody).mp hstep with ⟨hnone, -⟩ | ⟨sb', part, hsb', hpart, -⟩
  · cases hnone.symm.trans hsb
  · obtain rfl := Option.some.inj (hsb'.symm.trans hsb)
    exact (returned (hpart [])).1

theorem sypexStep_of_fits {cut : Cut} (hcut : cut ∈ sypexCuts)
    (hfits : ∀ sb, cut.block text = some sb → closersFit sb = true) :
    ∃ fuel₀, ∀ fuel, fuel₀ ≤ fuel → ∀ whole : Bytes → Bytes,
      (∀ key, jsonGetStr fuel text key = some (whole key)) →
        ∀ g, ∃ g', cut.step fuel text g = some g' := by
  cases hblock : cut.block text with
  | none =>
    exact ⟨0, fun _ _ _ hbody g => ⟨g, (sypexStep_iff hcut hbody).mpr (.inl ⟨hblock, rfl⟩)⟩⟩
  | some sb =>
    obtain ⟨part, fuel₀, hpart⟩ := exists_answers_iff.mpr (hfits sb hblock)
    refine ⟨fuel₀, fun fuel hle whole hbody g => ⟨cut.taken whole part g, ?_⟩⟩
    exact (sypexStep_iff hcut hbody).mpr (.inr ⟨sb, part, hblock, hpart fuel hle, rfl⟩)

/-- The code is reported if the lookup, or then the block of the country, gives
it, and the reader gets through both blocks. -/
theorem reportsCode_iff (hok : (httpGet (sypexUrl ip) 7000).ok = true)
    (hreply : (httpGet (sypexUrl ip) 7000).body = text)
    (htext : Text standardSpace text (.object root)) (hcode : code ≠ []) :
    ReportsCode httpGet ip code ↔
      (Doc.lookup (ascii "iso") (.object root) = code ∨
        Doc.lookup (ascii "iso") (.object root) = [] ∧ CountryReads text code) ∧
      ∀ cut ∈ sypexCuts, BraceFits text cut.name := by
  obtain ⟨fuel₁, hbody⟩ := answers_text htext
  have hcountryCut : Cut.sypexCountry ∈ sypexCuts := by decide
  have hcityCut : Cut.sypexCity ∈ sypexCuts := by decide
  have hfit := (returned (hbody fuel₁ (Nat.le_refl _) [])).1
  have hfits : (∀ cut ∈ sypexCuts, BraceFits text cut.name) ↔
      ∀ cut ∈ sypexCuts, ∀ sb, cut.block text = some sb → closersFit sb = true :=
    forall₂_congr fun cut hcut => (Cut.block_fits_iff hcut hfit).symm
  rw [hfits]
  constructor
  · rintro ⟨fuel₀, hreport⟩
    have hbody := hbody (max fuel₀ fuel₁) (Nat.le_max_right ..)
    obtain ⟨g, hg, hgcode⟩ := hreport (max fuel₀ fuel₁) (Nat.le_max_left ..)
    obtain ⟨g₀, hg₀, heq⟩ := geoSypex_eq hok hreply hbody
    obtain ⟨g₁, hstep₁, hstep₂⟩ := Option.bind_eq_some_iff.mp (heq.symm.trans hg)
    constructor
    · rw [← hg₀]
      exact (country_code_iff hcode hbody hstep₁).mp
        ((city_keeps_code hbody hstep₂).symm.trans hgcode)
    · intro cut hcut sb hsb
      rcases mem_sypexCuts.mp hcut with rfl | rfl
      · exact fits_of_sypexStep hcut hbody hstep₁ hsb
      · exact fits_of_sypexStep hcut hbody hstep₂ hsb
  · rintro ⟨hfound, hfits⟩
    obtain ⟨fuel₂, hstep₁⟩ := sypexStep_of_fits hcountryCut (hfits _ hcountryCut)
    obtain ⟨fuel₃, hstep₂⟩ := sypexStep_of_fits hcityCut (hfits _ hcityCut)
    refine ⟨max fuel₁ (max fuel₂ fuel₃), fun fuel hle => ?_⟩
    have hbody := hbody fuel (by omega)
    obtain ⟨g₀, hg₀, heq⟩ := geoSypex_eq hok hreply hbody
    obtain ⟨g₁, hstep₁⟩ := hstep₁ fuel (by omega) _ hbody g₀
    obtain ⟨g, hstep₂⟩ := hstep₂ fuel (by omega) _ hbody g₁
    refine ⟨g, by rw [heq, hstep₁]; exact hstep₂, ?_⟩
    rwa [city_keeps_code hbody hstep₂, country_code_iff hcode hbody hstep₁, hg₀]

/-- The country's code is reported on the replies that lead to it first and
whose braces fit, and, where the root object has no empty `iso` of its own, on
no others. -/
theorem geoSypex_reportsCode (hok : (httpGet (sypexUrl ip) 7000).ok = true)
    (hreply : (httpGet (sypexUrl ip) 7000).body = text)
    (htext : Text standardSpace text (.object root))
    (hcountry : lastNamed (ascii "country") root = some (.object country))
    (hiso : lastNamed (ascii "iso") country = some (.string code)) (hcode : code ≠ []) :
    (CodeFound text root country code ∧ (∀ cut ∈ sypexCuts, BraceFits text cut.name) →
      ReportsCode httpGet ip code) ∧
    (ReportsCode httpGet ip code →
      (OwnIsoEmpty root ∨ CodeFound text root country code) ∧
        ∀ cut ∈ sypexCuts, BraceFits text cut.name) := by
  rw [reportsCode_iff hok hreply htext hcode]
  constructor
  · rintro ⟨hfound, hbraces⟩
    exact ⟨lookup_of_found hiso hcode hfound, hbraces⟩
  · rintro ⟨hlookup, hbraces⟩
    exact ⟨found_of_lookup hcountry hiso hcode (hlookup.imp id And.left), hbraces⟩

end

-- ---------------------------------------------------------------------------
-- A reply with a region
-- ---------------------------------------------------------------------------

def isoObject (iso : Bytes) : Doc := .object [(ascii "iso", .string iso)]

def isoText (iso : Bytes) : Bytes := ascii "\x7b\"iso\":\"" ++ iso ++ ascii "\"\x7d"

theorem value_isoText {iso : Bytes} (h : PlainString iso) :
    JsonText.Value standardSpace (isoText iso) (isoObject iso) := by
  have hname : PlainString (ascii "iso") := by decide
  have hnil := Spaces.nil standardSpace
  have hvalue := JsonText.Value.object hnil (.last (hname.member h.value) hnil)
  simpa [isoText, isoObject, ascii] using hvalue

def twoIsos (first second iso iso' : Bytes) : Bytes :=
  chr '\x7b' :: (quotedName first ++ chr ':' :: isoText iso ++ chr ',' ::
    (quotedName second ++ chr ':' :: isoText iso') ++ [chr '\x7d'])

theorem text_twoIsos (first second iso iso' : Bytes) (hfirst : PlainString first)
    (hsecond : PlainString second) (hiso : PlainString iso) (hiso' : PlainString iso') :
    Text standardSpace (twoIsos first second iso iso')
      (.object [(first, isoObject iso), (second, isoObject iso')]) := by
  have hnil := Spaces.nil standardSpace
  have hmembers := Members.cons (hfirst.member (value_isoText hiso)) hnil hnil
    (.last (hsecond.member (value_isoText hiso')) hnil)
  have htext := Text.mk hnil (.object hnil hmembers) hnil
  simpa [twoIsos, quotedName] using htext

def countryReply : Bytes := twoIsos (ascii "country") (ascii "region") (ascii "RU") (ascii "RU-MOW")

def regionReply : Bytes := twoIsos (ascii "region") (ascii "country") (ascii "RU-MOW") (ascii "RU")

theorem geoSypex_reportsCode_country :
    ReportsCode (fun _ _ => { status := 200, body := countryReply }) [] (ascii "RU") := by
  have htext := text_twoIsos (ascii "country") (ascii "region") (ascii "RU") (ascii "RU-MOW")
    (by decide) (by decide) (by decide) (by decide)
  refine (geoSypex_reportsCode rfl rfl htext rfl rfl (by decide)).1 ⟨?_, fun cut hcut => ?_⟩
  · exact ⟨[], ascii "country", [ascii "region"], by decide, List.forall_mem_nil _, _, rfl,
      by decide⟩
  · refine (Cut.block_fits_iff hcut (by decide)).mp fun sb hsb => ?_
    rcases mem_sypexCuts.mp hcut with rfl | rfl
    · have hblock : Cut.sypexCountry.block countryReply = some (isoText (ascii "RU")) := by decide
      obtain rfl := Option.some.inj (hblock.symm.trans hsb)
      decide
    · have hblock : Cut.sypexCity.block countryReply = none := by decide
      cases hblock.symm.trans hsb

/-- The region comes first, and its code is taken for the country's. -/
theorem geoSypex_region :
    Text standardSpace regionReply
        (.object [(ascii "region", isoObject (ascii "RU-MOW")),
          (ascii "country", isoObject (ascii "RU"))]) ∧
      ¬ ReportsCode (fun _ _ => { status := 200, body := regionReply }) [] (ascii "RU") := by
  have htext := text_twoIsos (ascii "region") (ascii "country") (ascii "RU-MOW") (ascii "RU")
    (by decide) (by decide) (by decide) (by decide)
  refine ⟨htext, fun h => ?_⟩
  rcases ((reportsCode_iff rfl rfl htext (by decide)).mp h).1 with hcode | ⟨hnil, -⟩
  · exact absurd hcode (by decide)
  · exact absurd hnil (by decide)

end ByeByeVpn
