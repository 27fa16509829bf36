import ByeByeVpn.Analysis.Geoip
import ByeByeVpn.Core.JsonLookup
import ByeByeVpn.Lib.JsonMember

/-!
# The objects in a GeoIP reply

The lookups cut an object out of the text of a reply by searching for its name
and for braces. The cut follows the structure of the document where nothing
between the name and the value, and nothing inside of the value, looks like
what is searched for.
-/

namespace ByeByeVpn

open JSON JsonText Search

-- ---------------------------------------------------------------------------
-- What is to be taken
-- ---------------------------------------------------------------------------

inductive Cut
  | ipapiIs
  | iplocate
  | ipwhoIs
  | sypexCountry
  | sypexCity
  deriving DecidableEq

namespace Cut

def name : Cut → Bytes
  | ipapiIs | iplocate => ascii "asn"
  | ipwhoIs => ascii "connection"
  | sypexCountry => ascii "country"
  | sypexCity => ascii "city"

/-- The first and the last byte of the block. -/
def place (cut : Cut) (body : Bytes) : Option (Nat × Nat) :=
  if cut = iplocate then blockPlaceNoComma cut.name body else blockPlace cut.name body

/-- The part of the lookup that cuts the block out and reads it. -/
def step : Cut → Nat → Bytes → GeoInfo → Option GeoInfo
  | ipapiIs => ipapiIsAsn
  | iplocate => iplocateAsn
  | ipwhoIs => ipwhoIsConnection
  | sypexCountry => ByeByeVpn.sypexCountry
  | sypexCity => ByeByeVpn.sypexCity

end Cut

def memberText (k : Bytes) (members : List (Bytes × Doc)) : Bytes :=
  ((lastNamed k members).map Doc.text).getD []

/-- What is known then, where the whole reply answers `whole` and the block
answers `part`. -/
def Cut.taken (whole part : Bytes → Bytes) (g : GeoInfo) : Cut → GeoInfo
  | ipapiIs =>
    { g with
      asn := firstNonEmpty [part (ascii "asn"), whole (ascii "asn")]
      asnOrg := part (ascii "org") }
  | iplocate =>
    { g with
      asn := part (ascii "asn")
      asnOrg := firstNonEmpty [part (ascii "name"), part (ascii "org")] }
  | ipwhoIs =>
    { g with
      asn := part (ascii "asn")
      asnOrg := firstNonEmpty [part (ascii "isp"), part (ascii "org")] }
  | sypexCountry =>
    { g with
      country := firstNonEmpty [part (ascii "name_en"), part (ascii "name_ru")]
      countryCode := firstNonEmpty [g.countryCode, part (ascii "iso")] }
  | sypexCity =>
    { g with city := firstNonEmpty [part (ascii "name_en"), part (ascii "name_ru")] }

/-- The block is the value behind `pre`, and the reader takes the members of
that object from it. -/
def Cut.Follows (cut : Cut) (pre value post : Bytes) (root object : List (Bytes × Doc)) : Prop :=
  cut.place (pre ++ value ++ post) = some (pre.length, pre.length + value.length - 1) ∧
    blockText (pre ++ value ++ post) (pre.length, pre.length + value.length - 1) = value ∧
    ∀ g, ∃ fuel₀, ∀ fuel, fuel₀ ≤ fuel →
      cut.step fuel (pre ++ value ++ post) g =
        some (cut.taken (Doc.lookup · (.object root)) (memberText · object) g)

/-- The quoted name is in front of the value, and the first one is not
followed by a brace (or a comma, where that counts) before the value. In the
value only the last byte closes a brace. -/
def Cut.Plain (cut : Cut) (pre value : Bytes) : Prop :=
  ∃ ap, find (quotedName cut.name) pre = some ap ∧ chr '\x7b' ∉ pre.drop ap ∧
    (cut = iplocate → chr ',' ∉ pre.drop ap) ∧ chr '\x7d' ∉ value.dropLast

-- ---------------------------------------------------------------------------
-- The place of the block
-- ---------------------------------------------------------------------------

section
variable {name pre mid post : Bytes} {ap : Nat}

theorem find_name_iff (hname : chr '\x7b' ∉ quotedName name) :
    find (quotedName name) (pre ++ chr '\x7b' :: post) = some ap ∧
      findFrom [chr '\x7b'] (pre ++ chr '\x7b' :: post) ap = some pre.length ↔
    find (quotedName name) pre = some ap ∧ chr '\x7b' ∉ pre.drop ap := by
  constructor
  · rintro ⟨hap, hob⟩
    have hle := le_of_findFrom hob
    have hpre : quotedName name <+: pre.drop ap := by
      have hfound := prefix_of_find hap
      rw [List.drop_append_of_le_length hle] at hfound
      exact prefix_of_not_mem hfound hname
    have hlen : ap + (quotedName name).length ≤ pre.length := by
      have := hpre.length_le
      rw [List.length_drop] at this
      omega
    exact ⟨(find_append_iff hlen).mp hap, (findFrom_letter_iff hle).mp hob⟩
  · rintro ⟨hap, hob⟩
    have hlen := length_of_find hap
    exact ⟨(find_append_iff hlen).mpr hap, (findFrom_letter_iff (by omega)).mpr hob⟩

theorem find_closer_iff :
    findFrom [chr '\x7d'] (pre ++ chr '\x7b' :: (mid ++ chr '\x7d' :: post)) pre.length =
        some (pre.length + mid.length + 1) ↔
      chr '\x7d' ∉ chr '\x7b' :: mid := by
  have hcloser : findFrom [chr '\x7d'] ((pre ++ chr '\x7b' :: mid) ++ chr '\x7d' :: post)
      pre.length = some (pre ++ chr '\x7b' :: mid).length ↔
        chr '\x7d' ∉ (pre ++ chr '\x7b' :: mid).drop pre.length :=
    findFrom_letter_iff (by simp)
  rw [List.drop_left, List.append_assoc, List.cons_append, List.length_append,
    List.length_cons] at hcloser
  exact hcloser

theorem comma_iff (post : Bytes) (hap : ap ≤ pre.length) {limit : Nat}
    (hlimit : pre.length < limit) :
    pre.length < (findFrom [chr ','] (pre ++ chr '\x7b' :: post) ap).getD limit ↔
      chr ',' ∉ pre.drop ap := by
  rw [findFrom, List.drop_append_of_le_length hap]
  have hlen := List.length_drop (i := ap) (l := pre)
  constructor
  · intro h hc
    obtain ⟨u, v, hu, hcu⟩ := List.eq_append_cons_of_mem hc
    rw [hu, List.length_append, List.length_cons] at hlen
    rw [hu, List.append_assoc, List.cons_append, find_letter hcu, Option.map_some,
      Option.getD_some] at h
    omega
  · intro hc
    have hskip : chr ',' ∉ pre.drop ap ++ [chr '\x7b'] :=
      List.not_mem_append hc (by decide)
    have hfind : find [chr ','] ((pre.drop ap ++ [chr '\x7b']) ++ post) =
        (find [chr ','] post).map (· + (pre.drop ap ++ [chr '\x7b']).length) := find_skip hskip
    rw [List.append_assoc, List.singleton_append, List.length_append, hlen,
      List.length_singleton] at hfind
    rw [hfind]
    cases find [chr ','] post with
    | none => exact hlimit
    | some k =>
      simp only [Option.map_some, Option.getD_some]
      omega

theorem blockPlace_iff {body : Bytes} {ob ce : Nat} :
    blockPlace name body = some (ob, ce) ↔
      ∃ ap, (find (quotedName name) body = some ap ∧
        findFrom [chr '\x7b'] body ap = some ob) ∧ findFrom [chr '\x7d'] body ob = some ce := by
  simp only [blockPlace, bind, Option.bind_eq_some_iff, pure, Option.some.injEq, Prod.mk.injEq]
  constructor
  · rintro ⟨ap, hap, _, hob, _, hce, rfl, rfl⟩
    exact ⟨ap, ⟨hap, hob⟩, hce⟩
  · rintro ⟨ap, ⟨hap, hob⟩, hce⟩
    exact ⟨ap, hap, ob, hob, ce, hce, rfl, rfl⟩

theorem blockPlaceNoComma_iff {body : Bytes} {ob ce : Nat} :
    blockPlaceNoComma name body = some (ob, ce) ↔
      ∃ ap, (find (quotedName name) body = some ap ∧
        findFrom [chr '\x7b'] body ap = some ob) ∧ findFrom [chr '\x7d'] body ob = some ce ∧
        ob < (findFrom [chr ','] body ap).getD (ce + 1) := by
  simp only [blockPlaceNoComma, bind, Option.bind_eq_some_iff, Option.ite_none_right_eq_some,
    Option.some.injEq, Prod.mk.injEq]
  constructor
  · rintro ⟨ap, hap, _, hob, _, hce, hcomma, rfl, rfl⟩
    exact ⟨ap, ⟨hap, hob⟩, hce, hcomma⟩
  · rintro ⟨ap, ⟨hap, hob⟩, hce, hcomma⟩
    exact ⟨ap, hap, ob, hob, ce, hce, hcomma, rfl, rfl⟩

end

theorem Cut.no_brace (cut : Cut) : chr '\x7b' ∉ quotedName cut.name := by
  cases cut <;> decide

theorem Cut.place_iff (cut : Cut) {pre mid : Bytes} (post : Bytes) :
    cut.place (pre ++ chr '\x7b' :: (mid ++ chr '\x7d' :: post)) =
        some (pre.length, pre.length + mid.length + 1) ↔
      cut.Plain pre (chr '\x7b' :: (mid ++ [chr '\x7d'])) := by
  have hdrop : (chr '\x7b' :: (mid ++ [chr '\x7d'])).dropLast = chr '\x7b' :: mid := by
    rw [← List.cons_append, List.dropLast_concat]
  rw [place, Plain, hdrop]
  split_ifs with hcut
  · rw [blockPlaceNoComma_iff]
    refine exists_congr fun ap => ?_
    rw [find_name_iff cut.no_brace, find_closer_iff]
    have hcomma (hap : find (quotedName cut.name) pre = some ap) :=
      comma_iff (mid ++ chr '\x7d' :: post)
        ((Nat.le_add_right ..).trans (length_of_find hap))
        (show pre.length < pre.length + mid.length + 1 + 1 by omega)
    constructor
    · rintro ⟨⟨hap, hob⟩, hce, hlt⟩
      exact ⟨hap, hob, fun _ => (hcomma hap).mp hlt, hce⟩
    · rintro ⟨hap, hob, hnone, hce⟩
      exact ⟨⟨hap, hob⟩, hce, (hcomma hap).mpr (hnone hcut)⟩
  · rw [blockPlace_iff]
    refine exists_congr fun ap => ?_
    rw [find_name_iff cut.no_brace, find_closer_iff]
    tauto

-- ---------------------------------------------------------------------------
-- The members of the block
-- ---------------------------------------------------------------------------

theorem firstNonEmpty_eq_nil {results : List Bytes} (h : ∀ s ∈ results, s = []) :
    firstNonEmpty results = [] := by
  rw [firstNonEmpty, List.find?_eq_none.mpr fun s hs => by simp [h s hs]]
  rfl

theorem firstNonEmpty_pair (s t : Bytes) :
    firstNonEmpty [s, t] = if s.isEmpty then t else s := by
  cases s <;> cases t <;> rfl

section
variable {ws : UInt8 → Bool} (key : Bytes)

mutual

/-- Where no brace is closed there is no object to look a key up in. -/
theorem lookup_of_no_closer {t : Bytes} {d : Doc} (h : JsonText.Value ws t d)
    (ht : chr '\x7d' ∉ t) : Doc.lookup key d = [] := by
  cases h with
  | string _ => rw [Doc.lookup]; all_goals simp
  | number _ => rw [Doc.lookup]; all_goals simp
  | name _ => rw [Doc.lookup]; all_goals simp
  | emptyArray _ =>
    rw [Doc.lookup]
    rfl
  | array _ hds =>
    rw [Doc.lookup]
    exact firstNonEmpty_eq_nil (lookupElements_of_no_closer hds fun hmem => ht (by simp [hmem]))
  | emptyObject _ => exact absurd (by simp) ht
  | object _ _ => exact absurd (by simp) ht

theorem lookupElements_of_no_closer {t : Bytes} {ds : List Doc} (h : Elements ws t ds)
    (ht : chr '\x7d' ∉ t) : ∀ s ∈ lookupElements key ds, s = [] := by
  cases h with
  | last hv _ =>
    have hd := lookup_of_no_closer hv fun hmem => ht (by simp [hmem])
    simpa [lookupElements] using hd
  | cons hv _ _ hds =>
    have hd := lookup_of_no_closer hv fun hmem => ht (by simp [hmem])
    have hds := lookupElements_of_no_closer hds fun hmem => ht (by simp [hmem])
    simpa [lookupElements, hd] using hds

end

theorem lookup_member_of_no_closer {t : Bytes} {m : Bytes × Doc} (h : Member ws t m)
    (ht : chr '\x7d' ∉ t) : Doc.lookup key m.2 = [] := by
  cases h with
  | mk _ _ _ hv => exact lookup_of_no_closer key hv fun hmem => ht (by simp [hmem])

theorem lookup_members_of_no_closer {t : Bytes} {ms : List (Bytes × Doc)} (h : Members ws t ms)
    (ht : chr '\x7d' ∉ t) : ∀ m ∈ ms, Doc.lookup key m.2 = [] := by
  cases h with
  | last hm _ =>
    have hd := lookup_member_of_no_closer key hm fun hmem => ht (by simp [hmem])
    simpa using hd
  | cons hm _ _ hms =>
    have hd := lookup_member_of_no_closer key hm fun hmem => ht (by simp [hmem])
    have hds := lookup_members_of_no_closer hms fun hmem => ht (by simp [hmem])
    simpa [hd] using hds

theorem lookup_object_of_no_closer {ms : List (Bytes × Doc)}
    (h : ∀ m ∈ ms, Doc.lookup key m.2 = []) :
    Doc.lookup key (.object ms) = memberText key ms := by
  rw [Doc.lookup, memberText]
  cases hlast : lastNamed key ms with
  | some d => rfl
  | none =>
    refine firstNonEmpty_eq_nil fun s hs => ?_
    obtain ⟨k, -, hk⟩ := List.mem_filterMap.mp hs
    rw [lookupMembers_eq, lastNamed_map_snd] at hk
    obtain ⟨d, hd, rfl⟩ := Option.map_eq_some_iff.mp hk
    exact h _ (mem_of_lastNamed hd)

end

theorem value_object {ws : UInt8 → Bool} {t : Bytes} {ms : List (Bytes × Doc)}
    (h : JsonText.Value ws t (.object ms)) :
    ∃ mid, t = chr '\x7b' :: (mid ++ [chr '\x7d']) ∧
      (chr '\x7d' ∉ mid → ∀ key, Doc.lookup key (.object ms) = memberText key ms) := by
  cases h with
  | emptyObject _ =>
    exact ⟨_, rfl, fun _ key => lookup_object_of_no_closer key fun _ hm => by cases hm⟩
  | object _ hms =>
    refine ⟨_, rfl, fun hmid key => lookup_object_of_no_closer key ?_⟩
    exact lookup_members_of_no_closer key hms fun hmem => hmid (by simp [hmem])

-- ---------------------------------------------------------------------------
-- What is taken
-- ---------------------------------------------------------------------------

theorem orIfEmpty_some (s t : Bytes) : orIfEmpty s (some t) = some (firstNonEmpty [s, t]) := by
  rw [orIfEmpty, firstNonEmpty_pair]
  split_ifs <;> rfl

theorem Cut.step_eq (cut : Cut) {fuel : Nat} {body : Bytes} {place : Nat × Nat}
    {whole part : Bytes → Bytes} (hplace : cut.place body = some place)
    (hne : cut = iplocate → blockText body place ≠ [])
    (hbody : ∀ key, jsonGetStr fuel body key = some (whole key))
    (hblock : ∀ key, jsonGetStr fuel (blockText body place) key = some (part key)) (g : GeoInfo) :
    cut.step fuel body g = some (cut.taken whole part g) := by
  cases cut with
  | ipapiIs =>
    have hplace : blockPlace (ascii "asn") body = some place := hplace
    simp [step, taken, ipapiIsAsn, hplace, hblock, hbody, orIfEmpty_some]
  | iplocate =>
    have hplace : blockPlaceNoComma (ascii "asn") body = some place := hplace
    simp [step, taken, iplocateAsn, hplace, hblock, hne rfl, orIfEmpty_some]
  | ipwhoIs =>
    have hplace : blockPlace (ascii "connection") body = some place := hplace
    simp [step, taken, ipwhoIsConnection, hplace, hblock, orIfEmpty_some]
  | sypexCountry =>
    have hplace : blockPlace (ascii "country") body = some place := hplace
    simp [step, taken, ByeByeVpn.sypexCountry, hplace, hblock, orIfEmpty_some]
  | sypexCity =>
    have hplace : blockPlace (ascii "city") body = some place := hplace
    simp [step, taken, ByeByeVpn.sypexCity, hplace, hblock, orIfEmpty_some]

theorem blockText_value (pre value post : Bytes) (hne : value ≠ []) :
    blockText (pre ++ value ++ post) (pre.length, pre.length + value.length - 1) = value := by
  have hlen := List.length_pos_iff.mpr hne
  have hcount : pre.length + value.length - 1 - pre.length + 1 = value.length := by omega
  rw [blockText, hcount, List.append_assoc, List.drop_left, List.take_left]

theorem answers_object {value : Bytes} {object : List (Bytes × Doc)}
    (h : JsonText.Value standardSpace value (.object object))
    (hplain : chr '\x7d' ∉ value.dropLast) : Answers value (memberText · object) := by
  obtain ⟨mid, rfl, hmembers⟩ := value_object h
  rw [← List.cons_append, List.dropLast_concat, List.mem_cons, not_or] at hplain
  have htext := Text.mk (Spaces.nil _) h (Spaces.nil _)
  rw [List.nil_append, List.append_nil] at htext
  rw [← funext (hmembers hplain.2)]
  exact answers_text htext

section
variable {cut : Cut} {pre value post : Bytes} {root object : List (Bytes × Doc)}

theorem Cut.place_value_iff
    (h : RootMember standardSpace pre value post cut.name (.object object) root) :
    cut.place (pre ++ value ++ post) = some (pre.length, pre.length + value.length - 1) ↔
      cut.Plain pre value := by
  obtain ⟨mid, hvalue, -⟩ := value_object h.value
  have hlen : pre.length + value.length - 1 = pre.length + mid.length + 1 := by
    simp only [hvalue, List.length_cons, List.length_append, List.length_nil]
    omega
  rw [hlen, hvalue, ← cut.place_iff post]
  simp only [List.append_assoc, List.cons_append, List.nil_append]

theorem ne_nil_of_root
    (h : RootMember standardSpace pre value post cut.name (.object object) root) : value ≠ [] := by
  obtain ⟨mid, rfl, -⟩ := value_object h.value
  exact List.cons_ne_nil _ _

theorem Cut.steps_of_plain
    (h : RootMember standardSpace pre value post cut.name (.object object) root)
    (hplain : cut.Plain pre value) :
    ∃ fuel₀, ∀ fuel, fuel₀ ≤ fuel →
      (∀ key, jsonGetStr fuel (pre ++ value ++ post) key = some (Doc.lookup key (.object root))) ∧
        ∀ g, cut.step fuel (pre ++ value ++ post) g =
          some (cut.taken (Doc.lookup · (.object root)) (memberText · object) g) := by
  have hne := ne_nil_of_root h
  have hblock := blockText_value pre value post hne
  have ⟨_, _, _, _, hcloser⟩ := hplain
  obtain ⟨fuel₁, hbody⟩ := answers_text h.text
  obtain ⟨fuel₂, hanswer⟩ := answers_object h.value hcloser
  refine ⟨max fuel₁ fuel₂, fun fuel hle => ?_⟩
  have hbody := hbody fuel ((Nat.le_max_left ..).trans hle)
  have hanswer := hanswer fuel ((Nat.le_max_right ..).trans hle)
  rw [← hblock] at hanswer
  exact ⟨hbody, fun g => cut.step_eq ((Cut.place_value_iff h).mpr hplain)
    (fun _ => by rwa [hblock]) hbody hanswer g⟩

end

/-- The block that is cut out is the member's value, and what is taken from it
are the members of that object, on exactly the replies that are plain. -/
theorem Cut.follows_iff (cut : Cut) (pre value post : Bytes) (root object : List (Bytes × Doc))
    (h : RootMember standardSpace pre value post cut.name (.object object) root) :
    cut.Follows pre value post root object ↔ cut.Plain pre value := by
  have hblock := blockText_value pre value post (ne_nil_of_root h)
  have hplace := Cut.place_value_iff h
  refine ⟨fun hf => hplace.mp hf.1, fun hplain => ⟨hplace.mpr hplain, hblock, fun g => ?_⟩⟩
  obtain ⟨fuel₀, hsteps⟩ := Cut.steps_of_plain h hplain
  exact ⟨fuel₀, fun fuel hle => (hsteps fuel hle).2 g⟩

def connectionPre : Bytes := ascii "\x7b\"ip\":\"1.1.1.1\",\"connection\":"

def connectionValue : Bytes := ascii "\x7b\"asn\":13335,\"isp\":\"A\"\x7d"

def connectionPost : Bytes := ascii ",\"timezone\":\x7b\"id\":\"UTC\"\x7d\x7d"

def connectionMembers : List (Bytes × Doc) :=
  [(ascii "asn", .scalar (ascii "13335")), (ascii "isp", .string (ascii "A"))]

def connectionRoot : List (Bytes × Doc) :=
  [(ascii "ip", .string (ascii "1.1.1.1")), (ascii "connection", .object connectionMembers),
    (ascii "timezone", .object [(ascii "id", .string (ascii "UTC"))])]

theorem rootMember_connection : RootMember standardSpace connectionPre connectionValue
    connectionPost (ascii "connection") (.object connectionMembers) connectionRoot := by
  have hnil := Spaces.nil standardSpace
  have plain {k t : Bytes} (hk : PlainString k) (ht : PlainString t) :
      Member standardSpace (chr '"' :: (k ++ [chr '"']) ++ chr ':' :: (chr '"' :: (t ++ [chr '"'])))
        (k, .string t) := hk.member ht.value
  have hip := plain (k := ascii "ip") (t := ascii "1.1.1.1") (by decide) (by decide)
  have hisp := plain (k := ascii "isp") (t := ascii "A") (by decide) (by decide)
  have hid := plain (k := ascii "id") (t := ascii "UTC") (by decide) (by decide)
  have hasn : PlainString (ascii "asn") := by decide
  have hconnection : PlainString (ascii "connection") := by decide
  have hzone : PlainString (ascii "timezone") := by decide
  have hint : IntPart (ascii "13335") :=
    .digits ⟨by decide, List.all_eq_true.mp (by decide)⟩ (by decide)
  have hnumber : JsonText.Value standardSpace (ascii "13335") (.scalar (ascii "13335")) := by
    simpa using JsonText.Value.number (.mk (List.mem_cons_self ..) hint .none .none)
  have hvalue := JsonText.Value.object hnil
    (.cons (hasn.member hnumber) hnil hnil (.last hisp hnil))
  have hafter := After.cons hnil hnil (.last (hzone.member (.object hnil (.last hid hnil))) hnil)
  exact hconnection.rootMember (.cons hip hnil hnil .nil) hvalue hafter

theorem plain_connection : Cut.ipwhoIs.Plain connectionPre connectionValue :=
  ⟨16, by decide, by decide, by decide, by decide⟩

theorem Cut.follows_iff_connection :
    Cut.ipwhoIs.Follows connectionPre connectionValue connectionPost connectionRoot
      connectionMembers :=
  (Cut.ipwhoIs.follows_iff _ _ _ _ _ rootMember_connection).mpr plain_connection

def nestedAsn : Bytes := ascii "\x7b\"abuse\":\x7b\x7d,\"org\":\"A\"\x7d"

def nestedAsnMembers : List (Bytes × Doc) :=
  [(ascii "abuse", .object []), (ascii "org", .string (ascii "A"))]

/-- An object in the object ends the block, and the organisation is lost. -/
theorem Cut.not_follows_nested :
    RootMember standardSpace (ascii "\x7b\"asn\":") nestedAsn (ascii "\x7d") (ascii "asn")
        (.object nestedAsnMembers) [(ascii "asn", .object nestedAsnMembers)] ∧
      (Cut.ipapiIs.place (ascii "\x7b\"asn\":" ++ nestedAsn ++ ascii "\x7d")).map
          (blockText (ascii "\x7b\"asn\":" ++ nestedAsn ++ ascii "\x7d")) =
        some (ascii "\x7b\"abuse\":\x7b\x7d") ∧
      ¬ Cut.ipapiIs.Follows (ascii "\x7b\"asn\":") nestedAsn (ascii "\x7d")
        [(ascii "asn", .object nestedAsnMembers)] nestedAsnMembers := by
  have hnil := Spaces.nil standardSpace
  have hasn : PlainString (ascii "asn") := by decide
  have habuse : PlainString (ascii "abuse") := by decide
  have horg : PlainString (ascii "org") := by decide
  have ha : PlainString (ascii "A") := by decide
  have hvalue : JsonText.Value standardSpace nestedAsn (.object nestedAsnMembers) :=
    .object hnil (.cons (habuse.member (.emptyObject hnil)) hnil hnil
      (.last (horg.member ha.value) hnil))
  exact ⟨hasn.rootMember .nil hvalue (.nil hnil), by decide, fun h => absurd h.1 (by decide)⟩

-- ---------------------------------------------------------------------------
-- The services
-- ---------------------------------------------------------------------------

def Cut.url : Cut → Bytes → Bytes
  | ipapiIs => ipapiIsUrl
  | iplocate => iplocateUrl
  | ipwhoIs => ipwhoIsUrl
  | sypexCountry | sypexCity => sypexUrl

def Cut.service : Cut → Nat → (Bytes → Int → HttpResp) → Bytes → Option GeoInfo
  | ipapiIs => geoIpapiIs
  | iplocate => geoIplocate
  | ipwhoIs => geoIpwhoIs
  | sypexCountry | sypexCity => geoSypex

def networkCuts : List Cut := [.ipapiIs, .iplocate, .ipwhoIs]

section
variable {cut : Cut} {httpGet : Bytes → Int → HttpResp} {ip : Bytes}

theorem Cut.service_network {fuel : Nat} {body : Bytes} {whole part : Bytes → Bytes}
    (hcut : cut ∈ networkCuts) (hok : (httpGet (cut.url ip) 7000).ok = true)
    (hreply : (httpGet (cut.url ip) 7000).body = body)
    (hbody : ∀ key, jsonGetStr fuel body key = some (whole key))
    (hstep : ∀ g, cut.step fuel body g = some (cut.taken whole part g)) :
    ∃ g, cut.service fuel httpGet ip = some g ∧ g.asn = (cut.taken whole part {}).asn ∧
      g.asnOrg = (cut.taken whole part {}).asnOrg := by
  simp only [networkCuts, List.mem_cons, List.not_mem_nil, or_false] at hcut
  rcases hcut with rfl | rfl | rfl <;> simp only [step, url, taken] at hstep hok hreply
  · simp [service, geoIpapiIs, geoMembers, geoFlag, hok, hreply, hbody, hstep, taken]
  · simp [service, geoIplocate, geoMembers, geoFlag, hok, hreply, hbody, hstep, taken]
  · simp [service, geoIpwhoIs, geoMembers, hok, hreply, hbody, hstep, taken]

/-- On a plain reply the network that is reported is that of the object. -/
theorem Cut.network_of_plain (httpGet : Bytes → Int → HttpResp) (ip : Bytes)
    (hcut : cut ∈ networkCuts) {pre value post : Bytes} {root object : List (Bytes × Doc)}
    (h : RootMember standardSpace pre value post cut.name (.object object) root)
    (hplain : cut.Plain pre value) (hok : (httpGet (cut.url ip) 7000).ok = true)
    (hreply : (httpGet (cut.url ip) 7000).body = pre ++ value ++ post) :
    ∃ fuel₀, ∀ fuel, fuel₀ ≤ fuel → ∃ g, cut.service fuel httpGet ip = some g ∧
      g.asn = (cut.taken (Doc.lookup · (.object root)) (memberText · object) {}).asn ∧
      g.asnOrg = (cut.taken (Doc.lookup · (.object root)) (memberText · object) {}).asnOrg := by
  obtain ⟨fuel₀, hsteps⟩ := Cut.steps_of_plain h hplain
  refine ⟨fuel₀, fun fuel hle => ?_⟩
  obtain ⟨hbody, hstep⟩ := hsteps fuel hle
  exact Cut.service_network hcut hok hreply hbody hstep

end

def connectionReply : HttpResp where
  status := 200
  body := connectionPre ++ connectionValue ++ connectionPost

theorem Cut.network_of_plain_connection : ∃ fuel g,
    geoIpwhoIs fuel (fun _ _ => connectionReply) [] = some g ∧ g.asn = ascii "13335" ∧
      g.asnOrg = ascii "A" := by
  have hcut : Cut.ipwhoIs ∈ networkCuts := by decide
  obtain ⟨fuel, hnetwork⟩ := Cut.network_of_plain (fun _ _ => connectionReply) [] hcut
    rootMember_connection plain_connection rfl rfl
  obtain ⟨g, hservice, hasn, horg⟩ := hnetwork fuel le_rfl
  exact ⟨fuel, g, hservice, hasn.trans (by decide), horg.trans (by decide)⟩

end ByeByeVpn
