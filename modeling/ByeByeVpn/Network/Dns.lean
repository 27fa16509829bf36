import ByeByeVpn.Analysis.Verdict

/-!
# Names and addresses (`network/dns.cpp`)

`getaddrinfo` answers with a list of addresses of both families. `resolve_host`
keeps their texts, those of IPv4 first.
-/

namespace ByeByeVpn

/-- `AF_INET`, `AF_INET6` or some other family. -/
inductive AddrFamily
  | inet
  | inet6
  | other
  deriving DecidableEq

/-- An entry of the list of `getaddrinfo`, with the bytes of its address. -/
structure AddrInfo where
  family : AddrFamily
  addr : Bytes
  deriving DecidableEq

/-- `inet_ntop`, which writes nothing if it fails, and `inet_pton`. -/
structure AddrText where
  ntop : AddrFamily → Bytes → Bytes
  pton : AddrFamily → Bytes → Option Bytes

/-- What `getaddrinfo` returns: a code with the text of `gai_strerror`, or the list. -/
abbrev GetAddrInfo := Except (Int × Bytes) (List AddrInfo)

structure ResolvedHost extends Resolved where
  ips : List Bytes := []
  family : Bytes := []

structure CollectedIps where
  v4 : List Bytes := []
  v6 : List Bytes := []

variable (text : AddrText)

def extractIp (p : AddrInfo) : Bytes :=
  match p.family with
  | .inet => text.ntop .inet p.addr
  | .inet6 => text.ntop .inet6 p.addr
  | .other => []

def isIpv4 (s : Bytes) : Bool := (text.pton .inet s).isSome

def isIpv6 (s : Bytes) : Bool := (text.pton .inet6 s).isSome

def CollectedIps.add (found : CollectedIps) (p : AddrInfo) : CollectedIps :=
  let ip := extractIp text p
  if ip.isEmpty then found
  else
    match p.family with
    | .inet => if found.v4.contains ip then found else { found with v4 := found.v4 ++ [ip] }
    | .inet6 => if found.v6.contains ip then found else { found with v6 := found.v6 ++ [ip] }
    | .other => found

def resolveHost (getaddrinfo : Bytes → GetAddrInfo) (host : Bytes) : ResolvedHost :=
  if isIpv4 text host then
    { host := host, ips := [host], primaryIp := host, family := ascii "v4" }
  else if isIpv6 text host then
    { host := host, ips := [host], primaryIp := host, family := ascii "v6" }
  else
    match getaddrinfo host with
    | .error (rc, err) =>
      { host := host, err := if err.isEmpty then ascii "error " ++ decimal rc else err }
    | .ok ai =>
      let found := ai.foldl (CollectedIps.add text) {}
      let ips := found.v4 ++ found.v6
      { host := host
        ips := ips
        primaryIp := ips.headD []
        family :=
          if !found.v4.isEmpty && !found.v6.isEmpty then ascii "mixed(v4-preferred)"
          else if !found.v4.isEmpty then ascii "v4"
          else if !found.v6.isEmpty then ascii "v6"
          else [] }

-- ---------------------------------------------------------------------------
-- The lists
-- ---------------------------------------------------------------------------

def ofFamily (f : AddrFamily) (ai : List AddrInfo) : List AddrInfo :=
  ai.filter fun p => p.family == f

/-- The texts of the list are written, and each reads back as its own address. -/
structure AddrText.Faithful (ai : List AddrInfo) : Prop where
  written : ∀ p ∈ ai, p.family ≠ .other → text.ntop p.family p.addr ≠ []
  back : ∀ p ∈ ai, p.family ≠ .other →
    text.pton p.family (text.ntop p.family p.addr) = some p.addr
  apart : ∀ p ∈ ai, p.family = .inet6 → text.pton .inet (text.ntop .inet6 p.addr) = none

end ByeByeVpn
