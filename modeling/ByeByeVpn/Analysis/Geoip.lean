import ByeByeVpn.Analysis.CtCheck
import ByeByeVpn.Core.Json
import ByeByeVpn.Core.Utils
import ByeByeVpn.Lib.Search

/-!
# GeoIP lookups (`analysis/geoip.cpp`)

The four services whose replies hold an object that the lookup cuts out of the
text. `http_get` is a parameter, and `fuel` is that of the JSON reader.
-/

namespace ByeByeVpn

open Search

structure GeoInfo where
  ip : Bytes := []
  country : Bytes := []
  countryCode : Bytes := []
  city : Bytes := []
  asn : Bytes := []
  asnOrg : Bytes := []
  isHosting : Bool := false
  isVpn : Bool := false
  isProxy : Bool := false
  isTor : Bool := false
  isAbuser : Bool := false
  source : Bytes := []
  err : Bytes := []

-- ---------------------------------------------------------------------------
-- Blocks of the reply
-- ---------------------------------------------------------------------------

def quotedName (name : Bytes) : Bytes := chr '"' :: (name ++ [chr '"'])

/-- The `{` behind the quoted name, and the `}` behind it. -/
def blockPlace (name body : Bytes) : Option (Nat × Nat) := do
  let ap ← find (quotedName name) body
  let ob ← findFrom [chr '\x7b'] body ap
  let ce ← findFrom [chr '\x7d'] body ob
  return (ob, ce)

/-- The same, unless a comma comes before the `{`. -/
def blockPlaceNoComma (name body : Bytes) : Option (Nat × Nat) := do
  let ap ← find (quotedName name) body
  let ob ← findFrom [chr '\x7b'] body ap
  let ce ← findFrom [chr '\x7d'] body ob
  let comma := findFrom [chr ','] body ap
  if ob < comma.getD (ce + 1) then some (ob, ce) else none

/-- `body.substr(ob, ce - ob + 1)` -/
def blockText (body : Bytes) (place : Nat × Nat) : Bytes :=
  (body.drop place.1).take (place.2 - place.1 + 1)

/-- `if (s.empty()) s = next;` -/
def orIfEmpty (s : Bytes) (next : Option Bytes) : Option Bytes :=
  if s.isEmpty then next else some s

-- ---------------------------------------------------------------------------
-- What is taken from them
-- ---------------------------------------------------------------------------

/-- "Extract ASN block" in `geo_ipapi_is`. -/
def ipapiIsAsn (fuel : Nat) (body : Bytes) (g : GeoInfo) : Option GeoInfo := do
  let asnBlock := ((blockPlace (ascii "asn") body).map (blockText body)).getD []
  let asn ← jsonGetStr fuel asnBlock (ascii "asn")
  let asnOrg ← jsonGetStr fuel asnBlock (ascii "org")
  let asn ← orIfEmpty asn (jsonGetStr fuel body (ascii "asn"))
  return { g with asn := asn, asnOrg := asnOrg }

/-- "Extract ASN block" in `geo_iplocate`. -/
def iplocateAsn (fuel : Nat) (body : Bytes) (g : GeoInfo) : Option GeoInfo := do
  let asnBlock := ((blockPlaceNoComma (ascii "asn") body).map (blockText body)).getD []
  if !asnBlock.isEmpty then
    let asn ← jsonGetStr fuel asnBlock (ascii "asn")
    let asnOrg ← jsonGetStr fuel asnBlock (ascii "name")
    let asnOrg ← orIfEmpty asnOrg (jsonGetStr fuel asnBlock (ascii "org"))
    return { g with asn := asn, asnOrg := asnOrg }
  else
    let asn ← jsonGetStr fuel body (ascii "asn")
    let asnOrg ← jsonGetStr fuel body (ascii "org")
    return { g with asn := asn, asnOrg := asnOrg }

/-- "Extract connection block" in `geo_ipwho_is`. -/
def ipwhoIsConnection (fuel : Nat) (body : Bytes) (g : GeoInfo) : Option GeoInfo :=
  match blockPlace (ascii "connection") body with
  | none => some g
  | some place => do
    let sb := blockText body place
    let asn ← jsonGetStr fuel sb (ascii "asn")
    let asnOrg ← jsonGetStr fuel sb (ascii "isp")
    let asnOrg ← orIfEmpty asnOrg (jsonGetStr fuel sb (ascii "org"))
    return { g with asn := asn, asnOrg := asnOrg }

/-- "Extract country block" in `geo_sypex`. -/
def sypexCountry (fuel : Nat) (body : Bytes) (g : GeoInfo) : Option GeoInfo :=
  match blockPlace (ascii "country") body with
  | none => some g
  | some place => do
    let sb := blockText body place
    let country ← jsonGetStr fuel sb (ascii "name_en")
    let country ← orIfEmpty country (jsonGetStr fuel sb (ascii "name_ru"))
    let countryCode ← orIfEmpty g.countryCode (jsonGetStr fuel sb (ascii "iso"))
    return { g with country := country, countryCode := countryCode }

/-- "Extract city block" in `geo_sypex`. -/
def sypexCity (fuel : Nat) (body : Bytes) (g : GeoInfo) : Option GeoInfo :=
  match blockPlace (ascii "city") body with
  | none => some g
  | some place => do
    let sb := blockText body place
    let city ← jsonGetStr fuel sb (ascii "name_en")
    let city ← orIfEmpty city (jsonGetStr fuel sb (ascii "name_ru"))
    return { g with city := city }

-- ---------------------------------------------------------------------------
-- The services
-- ---------------------------------------------------------------------------

def geoHttpErr (r : HttpResp) : Bytes := ascii "http " ++ decimal r.status ++ ascii " " ++ r.err

def geoMembers (fuel : Nat) (body : Bytes) (g : GeoInfo) : Option GeoInfo := do
  let ip ← jsonGetStr fuel body (ascii "ip")
  let country ← jsonGetStr fuel body (ascii "country")
  let countryCode ← jsonGetStr fuel body (ascii "country_code")
  let city ← jsonGetStr fuel body (ascii "city")
  return { g with ip := ip, country := country, countryCode := countryCode, city := city }

def geoFlag (fuel : Nat) (body k : Bytes) : Option Bool :=
  (jsonGetStr fuel body k).map (· == ascii "true")

variable (fuel : Nat) (httpGet : Bytes → Int → HttpResp) (ip : Bytes)

def ipapiIsUrl (ip : Bytes) : Bytes :=
  ascii "https://api.ipapi.is/" ++ if ip.isEmpty then [] else ascii "?q=" ++ ip

def iplocateUrl (ip : Bytes) : Bytes := ascii "https://iplocate.io/api/lookup/" ++ ip

def ipwhoIsUrl (ip : Bytes) : Bytes := ascii "https://ipwho.is/" ++ ip

def sypexUrl (ip : Bytes) : Bytes := ascii "https://api.sypexgeo.net/json/" ++ ip

def geoIpapiIs : Option GeoInfo :=
  let g : GeoInfo := { source := ascii "ipapi.is" }
  let r := httpGet (ipapiIsUrl ip) 7000
  if !r.ok then some { g with err := geoHttpErr r }
  else do
    let g ← geoMembers fuel r.body g
    let g ← ipapiIsAsn fuel r.body g
    let datacenter ← geoFlag fuel r.body (ascii "is_datacenter")
    let hosting ← geoFlag fuel r.body (ascii "is_hosting")
    let vpn ← geoFlag fuel r.body (ascii "is_vpn")
    let proxy ← geoFlag fuel r.body (ascii "is_proxy")
    let tor ← geoFlag fuel r.body (ascii "is_tor")
    let abuser ← geoFlag fuel r.body (ascii "is_abuser")
    return { g with
      isHosting := datacenter || hosting, isVpn := vpn, isProxy := proxy, isTor := tor
      isAbuser := abuser }

def geoIplocate : Option GeoInfo :=
  let g : GeoInfo := { source := ascii "iplocate.io" }
  let r := httpGet (iplocateUrl ip) 7000
  if !r.ok then some { g with err := geoHttpErr r }
  else do
    let g ← geoMembers fuel r.body g
    let g ← iplocateAsn fuel r.body g
    let hosting ← geoFlag fuel r.body (ascii "is_hosting")
    let vpn ← geoFlag fuel r.body (ascii "is_vpn")
    let anonymous ← geoFlag fuel r.body (ascii "is_anonymous")
    let proxy ← geoFlag fuel r.body (ascii "is_proxy")
    let tor ← geoFlag fuel r.body (ascii "is_tor")
    return { g with
      isHosting := hosting, isVpn := vpn || anonymous, isProxy := proxy, isTor := tor }

def geoIpwhoIs : Option GeoInfo :=
  let g : GeoInfo := { source := ascii "ipwho.is" }
  let r := httpGet (ipwhoIsUrl ip) 7000
  if !r.ok then some { g with err := geoHttpErr r }
  else do
    let g ← geoMembers fuel r.body g
    ipwhoIsConnection fuel r.body g

def geoSypex : Option GeoInfo :=
  let g : GeoInfo := { source := ascii "sypexgeo.net (RU)" }
  let r := httpGet (sypexUrl ip) 7000
  if !r.ok then some { g with err := geoHttpErr r }
  else do
    let replyIp ← orIfEmpty ip (jsonGetStr fuel r.body (ascii "ip"))
    let countryCode ← jsonGetStr fuel r.body (ascii "iso")
    let g ← sypexCountry fuel r.body { g with ip := replyIp, countryCode := countryCode }
    sypexCity fuel r.body g

end ByeByeVpn
