import ByeByeVpn.Analysis.GeoBlocks
import ByeByeVpn.Core.Encoders
import ByeByeVpn.Network.HttpSession

/-!
# GeoIP services without blocks (`analysis/geoip.cpp`)

Three services answer with members that are looked up in the whole reply, so
that a record follows from the document. All seven put the address into a URL;
only one of them encodes it.
-/

namespace ByeByeVpn

open JSON JsonText Search

-- ---------------------------------------------------------------------------
-- The services
-- ---------------------------------------------------------------------------

def ipinfoIoUrl (ip : Bytes) : Bytes := ascii "https://ipinfo.io/" ++ ip ++ ascii "/json"

def freeipapiUrl (ip : Bytes) : Bytes := ascii "https://freeipapi.com/api/json/" ++ ip

def geo2ipUrl (ip : Bytes) : Bytes :=
  ascii "https://api.2ip.me/geo.json" ++ if ip.isEmpty then [] else ascii "?ip=" ++ urlEncode ip

/-- "Parse org field (format: "AS12345 Org Name")" -/
def parseOrg (orgraw : Bytes) (g : GeoInfo) : GeoInfo :=
  if orgraw.isEmpty then g
  else if startsWith orgraw (ascii "AS") then
    match find [chr ' '] orgraw with
    | some sp => { g with asn := orgraw.take sp, asnOrg := orgraw.drop (sp + 1) }
    | none => { g with asn := orgraw }
  else { g with asnOrg := orgraw }

section
variable (fuel : Nat) (httpGet : Bytes → Int → HttpResp) (ip : Bytes)

def geoIpinfoIo : Option GeoInfo :=
  let g : GeoInfo := { source := ascii "ipinfo.io" }
  let r := httpGet (ipinfoIoUrl ip) 7000
  if !r.ok then some { g with err := geoHttpErr r }
  else do
    let ip ← jsonGetStr fuel r.body (ascii "ip")
    let countryCode ← jsonGetStr fuel r.body (ascii "country")
    let city ← jsonGetStr fuel r.body (ascii "city")
    let orgraw ← jsonGetStr fuel r.body (ascii "org")
    return parseOrg orgraw { g with ip, countryCode, city }

def geoFreeipapi : Option GeoInfo :=
  let g : GeoInfo := { source := ascii "freeipapi.com" }
  let r := httpGet (freeipapiUrl ip) 7000
  if !r.ok then some { g with err := geoHttpErr r }
  else do
    let ip ← jsonGetStr fuel r.body (ascii "ipAddress")
    let country ← jsonGetStr fuel r.body (ascii "countryName")
    let countryCode ← jsonGetStr fuel r.body (ascii "countryCode")
    let city ← jsonGetStr fuel r.body (ascii "cityName")
    return { g with ip, country, countryCode, city }

def geo2ipRu : Option GeoInfo :=
  let g : GeoInfo := { source := ascii "2ip.me (RU)" }
  let r := httpGet (geo2ipUrl ip) 7000
  if !r.ok then some { g with err := geoHttpErr r }
  else do
    let replyIp ← jsonGetStr fuel r.body (ascii "ip")
    let country ← jsonGetStr fuel r.body (ascii "country")
    let country ← orIfEmpty country (jsonGetStr fuel r.body (ascii "country_rus"))
    let country ← orIfEmpty country (jsonGetStr fuel r.body (ascii "countryName"))
    let countryCode ← jsonGetStr fuel r.body (ascii "country_code")
    let countryCode ← orIfEmpty countryCode (jsonGetStr fuel r.body (ascii "countryCode"))
    let city ← jsonGetStr fuel r.body (ascii "city")
    let city ← orIfEmpty city (jsonGetStr fuel r.body (ascii "city_rus"))
    let city ← orIfEmpty city (jsonGetStr fuel r.body (ascii "cityName"))
    let org ← jsonGetStr fuel r.body (ascii "org")
    let g := { g with ip := if replyIp.isEmpty then ip else replyIp, country, countryCode, city }
    return if !org.isEmpty then { g with asnOrg := org } else g

end

-- ---------------------------------------------------------------------------
-- The record of a document
-- ---------------------------------------------------------------------------

/-- The services whose record is looked up in the whole reply. -/
inductive WholeReply
  | ipinfoIo
  | freeipapi
  | twoIpRu

namespace WholeReply

def url : WholeReply → Bytes → Bytes
  | ipinfoIo => ipinfoIoUrl
  | freeipapi => freeipapiUrl
  | twoIpRu => geo2ipUrl

def source : WholeReply → Bytes
  | ipinfoIo => ascii "ipinfo.io"
  | freeipapi => ascii "freeipapi.com"
  | twoIpRu => ascii "2ip.me (RU)"

def run : WholeReply → Nat → (Bytes → Int → HttpResp) → Bytes → Option GeoInfo
  | ipinfoIo => geoIpinfoIo
  | freeipapi => geoFreeipapi
  | twoIpRu => geo2ipRu

end WholeReply

def firstOf (answer : Bytes → Bytes) (names : List String) : Bytes :=
  firstNonEmpty (names.map fun name => answer (ascii name))

def WholeReply.record (answer : Bytes → Bytes) (ip : Bytes) : WholeReply → GeoInfo
  | ipinfoIo =>
    parseOrg (answer (ascii "org"))
      { source := ascii "ipinfo.io"
        ip := answer (ascii "ip")
        countryCode := answer (ascii "country")
        city := answer (ascii "city") }
  | freeipapi =>
    { source := ascii "freeipapi.com"
      ip := answer (ascii "ipAddress")
      country := answer (ascii "countryName")
      countryCode := answer (ascii "countryCode")
      city := answer (ascii "cityName") }
  | twoIpRu =>
    { source := ascii "2ip.me (RU)"
      ip := firstNonEmpty [answer (ascii "ip"), ip]
      country := firstOf answer ["country", "country_rus", "countryName"]
      countryCode := firstOf answer ["country_code", "countryCode"]
      city := firstOf answer ["city", "city_rus", "cityName"]
      asnOrg := answer (ascii "org") }

section
variable {fuel : Nat} {httpGet : Bytes → Int → HttpResp} {ip : Bytes} {answer : Bytes → Bytes}

theorem WholeReply.run_failed (service : WholeReply)
    (h : (httpGet (service.url ip) 7000).ok = false) :
    service.run fuel httpGet ip =
      some { source := service.source, err := geoHttpErr (httpGet (service.url ip) 7000) } := by
  cases service with
  | ipinfoIo =>
    replace h : (httpGet (ipinfoIoUrl ip) 7000).ok = false := h
    simp [run, geoIpinfoIo, h, url, source]
  | freeipapi =>
    replace h : (httpGet (freeipapiUrl ip) 7000).ok = false := h
    simp [run, geoFreeipapi, h, url, source]
  | twoIpRu =>
    replace h : (httpGet (geo2ipUrl ip) 7000).ok = false := h
    simp [run, geo2ipRu, h, url, source]

theorem firstNonEmpty_triple (a b c : Bytes) :
    firstNonEmpty [firstNonEmpty [a, b], c] = firstNonEmpty [a, b, c] := by
  cases a <;> cases b <;> cases c <;> rfl

theorem WholeReply.run_answers (service : WholeReply)
    (hok : (httpGet (service.url ip) 7000).ok = true)
    (h : ∀ key, jsonGetStr fuel (httpGet (service.url ip) 7000).body key = some (answer key)) :
    service.run fuel httpGet ip = some (service.record answer ip) := by
  cases service with
  | ipinfoIo =>
    replace hok : (httpGet (ipinfoIoUrl ip) 7000).ok = true := hok
    simp only [url] at h
    simp [run, geoIpinfoIo, hok, h, record]
  | freeipapi =>
    replace hok : (httpGet (freeipapiUrl ip) 7000).ok = true := hok
    simp only [url] at h
    simp [run, geoFreeipapi, hok, h, record]
  | twoIpRu =>
    replace hok : (httpGet (geo2ipUrl ip) 7000).ok = true := hok
    simp only [url] at h
    have hip : firstNonEmpty [answer (ascii "ip"), ip] =
        if (answer (ascii "ip")).isEmpty then ip else answer (ascii "ip") := by
      cases answer (ascii "ip") <;> cases ip <;> rfl
    cases horg : answer (ascii "org") with
    | nil =>
      simp [run, geo2ipRu, hok, h, record, firstOf, orIfEmpty_some, firstNonEmpty_triple, hip, horg]
    | cons c org =>
      simp [run, geo2ipRu, hok, h, record, firstOf, orIfEmpty_some, firstNonEmpty_triple, hip, horg]

theorem parseOrg_split {asn org : Bytes} (hasn : chr ' ' ∉ asn) (g : GeoInfo) :
    parseOrg (ascii "AS" ++ asn ++ chr ' ' :: org) g =
      { g with asn := ascii "AS" ++ asn, asnOrg := org } := by
  have hspace : chr ' ' ∉ ascii "AS" ++ asn := by
    have has : chr ' ' ∉ ascii "AS" := by decide
    simp [has, hasn]
  have hstart : startsWith (ascii "AS" ++ asn ++ chr ' ' :: org) (ascii "AS") = true :=
    startsWith_iff.mpr ⟨asn ++ chr ' ' :: org, (List.append_assoc ..).symm⟩
  have hne : (ascii "AS" ++ asn ++ chr ' ' :: org).isEmpty = false := by simp
  have hdrop :
      (ascii "AS" ++ asn ++ chr ' ' :: org).drop ((ascii "AS" ++ asn).length + 1) = org := by
    rw [← List.drop_drop, List.drop_left]
    rfl
  rw [parseOrg, hne, if_neg Bool.false_ne_true, if_pos hstart, find_letter hspace]
  simp only [List.take_left, hdrop]

end

/-- Where a service is read from the whole reply, the record is that of the
document, whichever way the document is written. -/
theorem geoServices_record (service : WholeReply) (httpGet : Bytes → Int → HttpResp)
    (ip : Bytes) :
    ((httpGet (service.url ip) 7000).ok = false → ∀ fuel, service.run fuel httpGet ip =
      some { source := service.source, err := geoHttpErr (httpGet (service.url ip) 7000) }) ∧
    ((httpGet (service.url ip) 7000).ok = true →
      ∀ d, Text standardSpace (httpGet (service.url ip) 7000).body d →
        ∃ fuel₀, ∀ fuel, fuel₀ ≤ fuel →
          service.run fuel httpGet ip = some (service.record (Doc.lookup · d) ip)) ∧
    ∀ answer asn org, chr ' ' ∉ asn →
      answer (ascii "org") = ascii "AS" ++ asn ++ chr ' ' :: org →
        (WholeReply.record answer ip .ipinfoIo).asn = ascii "AS" ++ asn ∧
          (WholeReply.record answer ip .ipinfoIo).asnOrg = org := by
  refine ⟨fun h fuel => service.run_failed h, fun hok d hd => ?_,
    fun answer asn org hasn horg => ?_⟩
  · obtain ⟨fuel₀, hanswer⟩ := answers_text hd
    exact ⟨fuel₀, fun fuel hle => service.run_answers hok (hanswer fuel hle)⟩
  · rw [WholeReply.record, horg, parseOrg_split hasn]
    exact ⟨rfl, rfl⟩

-- ---------------------------------------------------------------------------
-- What is asked
-- ---------------------------------------------------------------------------

inductive GeoProvider
  | ipapiIs
  | iplocate
  | freeipapi
  | twoIpRu
  | sypex
  | ipwhoIs
  | ipinfoIo
  deriving DecidableEq

namespace GeoProvider

def url : GeoProvider → Bytes → Bytes
  | ipapiIs => ipapiIsUrl
  | iplocate => iplocateUrl
  | freeipapi => freeipapiUrl
  | twoIpRu => geo2ipUrl
  | sypex => sypexUrl
  | ipwhoIs => ipwhoIsUrl
  | ipinfoIo => ipinfoIoUrl

def host : GeoProvider → Bytes
  | ipapiIs => ascii "api.ipapi.is"
  | iplocate => ascii "iplocate.io"
  | freeipapi => ascii "freeipapi.com"
  | twoIpRu => ascii "api.2ip.me"
  | sypex => ascii "api.sypexgeo.net"
  | ipwhoIs => ascii "ipwho.is"
  | ipinfoIo => ascii "ipinfo.io"

/-- What stands behind the first slash of the URL, before and after the address. -/
def before : GeoProvider → Bytes → Bytes
  | ipapiIs, ip => if ip.isEmpty then [] else ascii "?q="
  | iplocate, _ => ascii "api/lookup/"
  | freeipapi, _ => ascii "api/json/"
  | twoIpRu, ip => ascii "geo.json" ++ if ip.isEmpty then [] else ascii "?ip="
  | sypex, _ => ascii "json/"
  | ipwhoIs, _ | ipinfoIo, _ => []

def after : GeoProvider → Bytes
  | ipinfoIo => ascii "/json"
  | _ => []

def written : GeoProvider → Bytes → Bytes
  | twoIpRu, ip => urlEncode ip
  | _, ip => ip

theorem url_eq (p : GeoProvider) (ip : Bytes) :
    p.url ip = ascii "https://" ++ (p.host ++ chr '/' ::
      (p.before ip ++ p.written ip ++ p.after)) := by
  cases p with
  | ipapiIs =>
    have h : ascii "https://api.ipapi.is/" = ascii "https://" ++ (ascii "api.ipapi.is" ++
        [chr '/']) := by decide
    cases ip <;> simp [url, ipapiIsUrl, host, before, written, after, h]
  | iplocate =>
    have h : ascii "https://iplocate.io/api/lookup/" = ascii "https://" ++ (ascii "iplocate.io" ++
        chr '/' :: ascii "api/lookup/") := by decide
    simp [url, iplocateUrl, host, before, written, after, h]
  | freeipapi =>
    have h : ascii "https://freeipapi.com/api/json/" = ascii "https://" ++
        (ascii "freeipapi.com" ++ chr '/' :: ascii "api/json/") := by decide
    simp [url, freeipapiUrl, host, before, written, after, h]
  | twoIpRu =>
    have h : ascii "https://api.2ip.me/geo.json" = ascii "https://" ++
        (ascii "api.2ip.me" ++ chr '/' :: ascii "geo.json") := by decide
    cases ip <;> simp [url, geo2ipUrl, host, before, written, after, h, urlEncode]
  | sypex =>
    have h : ascii "https://api.sypexgeo.net/json/" = ascii "https://" ++
        (ascii "api.sypexgeo.net" ++ chr '/' :: ascii "json/") := by decide
    simp [url, sypexUrl, host, before, written, after, h]
  | ipwhoIs =>
    have h : ascii "https://ipwho.is/" = ascii "https://" ++ (ascii "ipwho.is" ++
        [chr '/']) := by decide
    simp [url, ipwhoIsUrl, host, before, written, after, h]
  | ipinfoIo =>
    have h : ascii "https://ipinfo.io/" = ascii "https://" ++ (ascii "ipinfo.io" ++
        [chr '/']) := by decide
    simp [url, ipinfoIoUrl, host, before, written, after, h]

theorem host_plain (p : GeoProvider) :
    (∀ c, endsAuthority c = true → c ∉ p.host) ∧ p.host.isEmpty = false ∧ Http.InLine p.host ∧
      splitPort p.host 443 = .ok (p.host, 443) := by
  have hplain : (p.host).all fun c => !endsAuthority c := by cases p <;> decide
  refine ⟨fun c hc hm => ?_, by cases p <;> decide, by cases p <;> decide,
    by cases p <;> decide⟩
  have := List.all_eq_true.mp hplain c hm
  rw [hc] at this
  cases this

def target (p : GeoProvider) (ip : Bytes) : Bytes :=
  chr '/' :: (p.before ip ++ p.written ip ++ p.after).takeWhile (· != chr '#')

theorem parseUrl_url (p : GeoProvider) (ip : Bytes) :
    parseUrl (p.url ip) = .ok ⟨p.host, 443, p.target ip⟩ := by
  obtain ⟨hauth, hne, -, hport⟩ := p.host_plain
  have hsplit := List.takeWhile_append_dropWhile (p := (· != chr '#'))
    (l := p.before ip ++ p.written ip ++ p.after)
  have hfrag : Fragment ((p.before ip ++ p.written ip ++ p.after).dropWhile (· != chr '#')) := by
    intro c hc
    have := List.head?_dropWhile_not (· != chr '#') (p.before ip ++ p.written ip ++ p.after)
    rw [hc] at this
    simpa using this
  have hpath : chr '#' ∉ (p.before ip ++ p.written ip ++ p.after).takeWhile (· != chr '#') := by
    intro hm
    simpa using List.mem_takeWhile_imp hm
  have hstart : startsWith (p.url ip) (ascii "https://") = true :=
    startsWith_iff.mpr ⟨_, (p.url_eq ip).symm⟩
  have hdrop :
      (p.url ip).drop 8 = p.host ++ chr '/' :: (p.before ip ++ p.written ip ++ p.after) := by
    rw [p.url_eq]
    rfl
  rw [parseUrl, if_pos hstart, hdrop, splitUrl, ← hsplit, splitPath_slash hauth hpath hfrag]
  simp only [hne, Bool.false_eq_true, if_false, hport]
  rw [target]

theorem isspace_takeWhile_iff {p : UInt8 → Bool} {before mid after : Bytes}
    (hbefore : ∀ c ∈ before, p c = true ∧ isspace c = false)
    (hafter : ∀ c ∈ after, p c = true ∧ isspace c = false) :
    (∀ c ∈ (before ++ mid ++ after).takeWhile p, isspace c = false) ↔
      ∀ c ∈ mid.takeWhile p, isspace c = false := by
  have hall : after.takeWhile p = after :=
    List.takeWhile_eq_self_iff.mpr fun c hc => (hafter c hc).1
  rw [List.append_assoc, List.takeWhile_append_of_pos fun c hc => (hbefore c hc).1,
    List.takeWhile_append, hall]
  constructor
  · intro h c hc
    refine h c (List.mem_append_right before ?_)
    split_ifs
    · exact List.mem_append_left after ((List.takeWhile_prefix p).subset hc)
    · exact hc
  · intro h c hc
    rcases List.mem_append.mp hc with hc | hc
    · exact (hbefore c hc).2
    · split_ifs at hc with hlen
      · rcases List.mem_append.mp hc with hc | hc
        · rw [← (List.takeWhile_prefix p).eq_of_length hlen] at hc
          exact h c hc
        · exact (hafter c hc).2
      · exact h c hc

theorem fixed_plain (p : GeoProvider) (ip : Bytes) :
    (∀ c ∈ p.before ip, (c != chr '#') = true ∧ isspace c = false) ∧
      ∀ c ∈ p.after, (c != chr '#') = true ∧ isspace c = false := by
  have hbefore : (p.before ip).all fun c => c != chr '#' && !isspace c := by
    cases p <;> cases ip <;> rfl
  have hafter : p.after.all fun c => c != chr '#' && !isspace c := by
    cases p <;> rfl
  refine ⟨fun c hc => ?_, fun c hc => ?_⟩
  · simpa using List.all_eq_true.mp hbefore c hc
  · simpa using List.all_eq_true.mp hafter c hc

theorem urlEncode_plain {c : UInt8} {s : Bytes} (h : c ∈ urlEncode s) :
    (c != chr '#') = true ∧ isspace c = false := by
  rcases mem_urlEncode h with hc | rfl
  · have hlt := lt_of_isUrlPlain hc
    refine ⟨bne_iff_ne.mpr ?_, isspace_of_lt (by omega)⟩
    rintro rfl
    exact absurd hlt (by decide)
  · exact ⟨by decide, by decide⟩

theorem asRequest_only_iff (p : GeoProvider) (ip : Bytes) :
    (HttpTarget.mk p.host 443 (p.target ip)).asRequest.Only
        (HttpTarget.mk p.host 443 (p.target ip)).request ↔
      ∀ c ∈ (p.written ip).takeWhile (· != chr '#'), isspace c = false := by
  obtain ⟨hbefore, hafter⟩ := p.fixed_plain ip
  have hslash : isspace (chr '/') = false := by decide
  rw [← isspace_takeWhile_iff hbefore hafter]
  constructor
  · intro h c hc
    exact h.wellFormed.target.plain c (List.mem_cons_of_mem _ hc)
  · intro h
    rw [← HttpTarget.text_asRequest]
    refine Http.Request.WellFormed.only ((HttpTarget.asRequest_wellFormed_iff _).mpr
      ⟨⟨List.cons_ne_nil _ _, ?_⟩, p.host_plain.2.2.1⟩)
    exact List.forall_mem_cons.mpr ⟨hslash, h⟩

end GeoProvider

/-- A GeoIP service is sent one request for the address, and nothing else can
be read from what is sent, if the address holds no white space before its
first number sign. The encoded address never does. -/
theorem geo_request (p : GeoProvider) (ip : Bytes) :
    ∃ t, parseUrl (p.url ip) = .ok t ∧ t.host = p.host ∧ t.port = 443 ∧
      (t.asRequest.Only t.request ↔
        ∀ c ∈ (p.written ip).takeWhile (· != chr '#'), isspace c = false) ∧
      (chr '#' ∉ p.written ip →
        t.path = chr '/' :: (p.before ip ++ p.written ip ++ p.after)) ∧
      (p = .twoIpRu → t.asRequest.Only t.request ∧ chr '#' ∉ p.written ip ∧
        HexText.percentDecode (p.written ip) = some ip) ∧
      (p ≠ .twoIpRu → p.written ip = ip) := by
  have honly := p.asRequest_only_iff ip
  refine ⟨_, p.parseUrl_url ip, rfl, rfl, honly, fun hnone => ?_, ?_, fun hne => ?_⟩
  · obtain ⟨hbefore, hafter⟩ := p.fixed_plain ip
    refine congrArg _ (List.takeWhile_eq_self_iff.mpr fun c hc => ?_)
    rcases List.mem_append.mp hc with hc | hc
    · rcases List.mem_append.mp hc with hc | hc
      · exact (hbefore c hc).1
      · exact bne_iff_ne.mpr fun h => hnone (h ▸ hc)
    · exact (hafter c hc).1
  · rintro rfl
    refine ⟨honly.mpr fun c hc => ?_, fun hm => ?_, percentDecode_urlEncode ip⟩
    · exact (GeoProvider.urlEncode_plain ((List.takeWhile_prefix _).subset hc)).2
    · exact absurd (GeoProvider.urlEncode_plain hm).1 (by decide)
  · cases p <;> first | rfl | exact absurd rfl hne

end ByeByeVpn
