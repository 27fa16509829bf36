import ByeByeVpn.Core.Utils

/-! # Brands and the networks that own them (`analysis/brand_cert.cpp`) -/

namespace ByeByeVpn

structure BrandMarker where
  brand : Bytes
  asnMarkers : Bytes

def brandMarker (brand asnMarkers : String) : BrandMarker := ⟨ascii brand, ascii asnMarkers⟩

def kBrandTable : List BrandMarker :=
  [
    brandMarker "amazon.com" "amazon,aws,a100 row,amazon technologies",
    brandMarker "aws.amazon.com" "amazon,aws",
    brandMarker "microsoft.com" "microsoft,msn,msft,akamai,edgecast",
    brandMarker "apple.com" "apple,akamai",
    brandMarker "icloud.com" "apple",
    brandMarker "google.com" "google,gts,gcp,youtube",
    brandMarker "googleusercontent.com" "google,gcp",
    brandMarker "googleapis.com" "google,gcp",
    brandMarker "youtube.com" "google,youtube",
    brandMarker "cloudflare.com" "cloudflare,cloudflare inc",
    brandMarker "github.com" "github,microsoft,fastly",
    brandMarker "gitlab.com" "gitlab,cloudflare",
    brandMarker "bitbucket.org" "atlassian,amazon",
    brandMarker "yahoo.com" "yahoo,oath,verizon",
    brandMarker "netflix.com" "netflix,akamai",
    brandMarker "cdn.jsdelivr.net" "fastly,cloudflare",
    brandMarker "bing.com" "microsoft",
    brandMarker "gstatic.com" "google",
    brandMarker "wikipedia.org" "wikimedia",
    brandMarker "wikimedia.org" "wikimedia",
    brandMarker "linkedin.com" "linkedin,microsoft",
    brandMarker "office.com" "microsoft",
    brandMarker "office365.com" "microsoft",
    brandMarker "outlook.com" "microsoft",
    brandMarker "live.com" "microsoft",
    brandMarker "azure.com" "microsoft",
    brandMarker "onedrive.com" "microsoft",
    brandMarker "facebook.com" "facebook,meta",
    brandMarker "instagram.com" "facebook,meta",
    brandMarker "whatsapp.com" "facebook,meta",
    brandMarker "whatsapp.net" "facebook,meta",
    brandMarker "messenger.com" "facebook,meta",
    brandMarker "threads.net" "facebook,meta",
    brandMarker "twitter.com" "twitter,x corp,x holdings",
    brandMarker "x.com" "twitter,x corp,x holdings",
    brandMarker "tiktok.com" "tiktok,bytedance,akamai",
    brandMarker "telegram.org" "telegram,telegram messenger",
    brandMarker "t.me" "telegram,telegram messenger",
    brandMarker "telegram.me" "telegram,telegram messenger",
    brandMarker "discord.com" "discord,cloudflare,google",
    brandMarker "discordapp.com" "discord,cloudflare,google",
    brandMarker "slack.com" "slack,amazon,aws",
    brandMarker "zoom.us" "zoom",
    brandMarker "signal.org" "signal,amazon,aws",
    brandMarker "yandex.ru" "yandex",
    brandMarker "yandex.net" "yandex",
    brandMarker "yandex.com" "yandex",
    brandMarker "ya.ru" "yandex",
    brandMarker "mail.ru" "mail.ru,vk,v kontakte",
    brandMarker "vk.com" "vk,v kontakte,mail.ru",
    brandMarker "vk.ru" "vk,v kontakte,mail.ru",
    brandMarker "vkontakte.ru" "vk,v kontakte,mail.ru",
    brandMarker "ok.ru" "vk,v kontakte,mail.ru",
    brandMarker "avito.ru" "avito,kiev internet",
    brandMarker "ozon.ru" "ozon",
    brandMarker "wildberries.ru" "wildberries",
    brandMarker "kinopoisk.ru" "yandex",
    brandMarker "rutube.ru" "rutube,rbc,gpmd",
    brandMarker "dzen.ru" "yandex,vk",
    brandMarker "habr.com" "habr,habrahabr",
    brandMarker "rambler.ru" "rambler,rambler internet",
    brandMarker "sberbank.ru" "sberbank,sber",
    brandMarker "sber.ru" "sberbank,sber",
    brandMarker "sberbank.com" "sberbank,sber",
    brandMarker "tinkoff.ru" "tinkoff,t-bank,tcs",
    brandMarker "tbank.ru" "tinkoff,t-bank,tcs",
    brandMarker "vtb.ru" "vtb,vtb bank",
    brandMarker "alfabank.ru" "alfabank,alfa bank",
    brandMarker "gazprombank.ru" "gazprombank,gazprom",
    brandMarker "rosbank.ru" "rosbank,societe",
    brandMarker "gosuslugi.ru" "rostelecom,rt,rt-labs",
    brandMarker "mos.ru" "dit,moscow,mgts",
    brandMarker "rt.ru" "rostelecom,rt",
    brandMarker "nalog.gov.ru" "rostelecom,rt",
    brandMarker "mts.ru" "mts",
    brandMarker "megafon.ru" "megafon",
    brandMarker "beeline.ru" "beeline,vimpelcom,pjsc vimpelcom",
    brandMarker "rostelecom.ru" "rostelecom,rt",
    brandMarker "tele2.ru" "tele2,rostelecom",
    brandMarker "stripe.com" "stripe,amazon,aws",
    brandMarker "paypal.com" "paypal,akamai",
    brandMarker "shopify.com" "shopify,fastly,cloudflare",
    brandMarker "adobe.com" "adobe",
    brandMarker "salesforce.com" "salesforce",
    brandMarker "dropbox.com" "dropbox,amazon,aws",
    brandMarker "spotify.com" "spotify,amazon,aws",
    brandMarker "twitch.tv" "twitch,amazon,aws",
    brandMarker "vimeo.com" "vimeo,akamai,amazon",
    brandMarker "reddit.com" "reddit,fastly",
    brandMarker "steampowered.com" "valve,akamai",
    brandMarker "steamcommunity.com" "valve,akamai",
    brandMarker "playstation.com" "sony,akamai",
    brandMarker "xbox.com" "microsoft",
    brandMarker "nintendo.com" "nintendo,amazon,aws,akamai",
    brandMarker "epicgames.com" "epic games,cloudflare,amazon",
    brandMarker "battle.net" "blizzard,akamai"
  ]

def iequals (a b : Bytes) : Bool := a.map tolower == b.map tolower

def iendsWithDot (s suffix : Bytes) : Bool :=
  if s.length ≤ suffix.length + 1 then false
  else if s.getD (s.length - suffix.length - 1) 0 ≠ chr '.' then false
  else iequals (s.drop (s.length - suffix.length)) suffix

def isBrand (name : Bytes) : Option Bytes :=
  if name.isEmpty then none
  else
    let name := if startsWith name (ascii "*.") then name.drop 2 else name
    match kBrandTable.find? fun entry => iequals name entry.brand with
    | some exact => some exact.brand
    | none => (kBrandTable.find? fun entry => iendsWithDot name entry.brand).map BrandMarker.brand

def certClaimsBrand (subjectCn : Bytes) (san : List Bytes) : Bytes :=
  match isBrand subjectCn with
  | some hit => hit
  | none => (san.findSome? isBrand).getD []

def asnOwnsBrand (brandDomain : Bytes) (asnOrgs : List Bytes) : Bool :=
  if brandDomain.isEmpty || asnOrgs.isEmpty then false
  else
    match isBrand brandDomain with
    | none => false
    | some canonical =>
      match kBrandTable.find? fun entry => canonical == entry.brand with
      | none => false
      | some it =>
        let parts := split (tolowerS it.asnMarkers) (chr ',')
        asnOrgs.any fun org =>
          parts.any fun m => !(trim m).isEmpty && contains (tolowerS org) (trim m)

end ByeByeVpn
