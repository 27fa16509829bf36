import ByeByeVpn.Core.Utils
import ByeByeVpn.Lib.Lines
import ByeByeVpn.Lib.Strtol

/-! # Fingerprints of services (`network/service_probes.cpp`) -/

namespace ByeByeVpn

structure FpResult where
  service : Bytes := []
  details : Bytes := []
  silent : Bool := false

/-- What `printable_prefix` appends for a byte when `room` bytes are left. -/
def printable (c : UInt8) (room : Nat) : Bytes :=
  if 32 ≤ c && c < 127 then [c]
  else if c = chr '\r' && 2 ≤ room then ascii "\\r"
  else if c = chr '\n' && 2 ≤ room then ascii "\\n"
  else [chr '.']

/-- The loop of `printable_prefix`, with the output so far. -/
def printableFrom (lim : Nat) : Bytes → Bytes → Bytes
  | out, [] => out
  | out, c :: s =>
    if out.length < lim then printableFrom lim (out ++ printable c (lim - out.length)) s else out

def printablePrefix (s : Bytes) (lim : Nat) : Bytes := printableFrom lim [] s

open Search

-- ---------------------------------------------------------------------------
-- Replies to CONNECT
-- ---------------------------------------------------------------------------

structure ProxyFp extends FpResult where
  isVpnLike : Bool := false

def firstLine (resp : Bytes) : Bytes := trim (resp.take ((find [chr '\n'] resp).getD resp.length))

theorem firstLine_eq {l rest : Bytes} (hl : chr '\n' ∉ l)
    (hrest : Lines.EndsLine (chr '\n') rest) : firstLine (l ++ rest) = trim l := by
  have hend := Lines.endOfLine hl hrest (Nat.zero_le _) []
  rw [List.nil_append, List.length_nil, Nat.zero_add, findFrom, List.drop_zero] at hend
  have hfind : (find [chr '\n'] (l ++ rest)).getD (l ++ rest).length = l.length := by
    simpa using hend
  rw [firstLine, hfind, List.take_left]

def connectStatus (first : Bytes) : Int :=
  match find [chr ' '] first with
  | none => 0
  | some p1 =>
    if p1 + 1 < first.length then
      let p2 := (findFrom [chr ' '] first (p1 + 1)).getD first.length
      let code := (first.drop (p1 + 1)).take (p2 - (p1 + 1))
      if code.length == 3 && code.all isdigit then atoi code else 0
    else 0

/-- What `fp_http_connect` makes of the bytes that it received; nothing when it
received none, or could not connect or send. -/
def fpHttpConnect : Option Bytes → ProxyFp
  | none => { service := ascii "HTTP-PROXY?", silent := true }
  | some resp =>
    let first := firstLine resp
    if !startsWith first (ascii "HTTP/") then
      { service := ascii "HTTP-PROXY?", details := printablePrefix first 80 }
    else
      let status := connectStatus first
      if status = 200 ∨ status = 201 ∨ status = 202 then
        { service := ascii "HTTP-PROXY", details := first, isVpnLike := true }
      else { service := ascii "HTTP-CONNECT-DENY", details := first }

-- ---------------------------------------------------------------------------
-- Replies to GET
-- ---------------------------------------------------------------------------

/-- The text behind the first `server:` in any case, up to the next carriage
return, or newline where none follows. -/
def plainServer (resp : Bytes) : Bytes :=
  match find (ascii "server:") (tolowerS resp) with
  | none => []
  | some sv =>
    let e := ((findFrom [chr '\r'] resp sv).or (findFrom [chr '\n'] resp sv)).getD resp.length
    trim ((resp.drop (sv + 7)).take (e - (sv + 7)))

def fpHttpPlain : Option Bytes → FpResult
  | none => { service := ascii "HTTP?", silent := true }
  | some resp =>
    let server := plainServer resp
    let rl := tolowerS server
    { service := ascii "HTTP"
      details := firstLine resp ++
        (if server.isEmpty then [] else ascii "  | Server: " ++ server) ++
        if contains rl (ascii "caddy") then
          ascii "  %[caddy-fronted - common Xray/Reality fallback]"
        else if contains rl (ascii "nginx") then ascii "  %[nginx - fallback host?]"
        else if contains rl (ascii "cloudflare") then ascii "  %[cloudflare]"
        else [] }

-- ---------------------------------------------------------------------------
-- Banners and greetings
-- ---------------------------------------------------------------------------

/-- What `fp_ssh` makes of the banner that is known, or of the bytes that it
received when that is none of SSH. -/
def fpSsh (bannerHint : Bytes) (received : Option Bytes) : FpResult :=
  let b :=
    if bannerHint.isEmpty || !startsWith bannerHint (ascii "SSH-") then received.getD bannerHint
    else bannerHint
  if startsWith b (ascii "SSH-") then
    { service := ascii "SSH", details := b.rdropWhile fun c => c == chr '\r' || c == chr '\n' }
  else { service := ascii "SSH?", details := ascii "no SSH banner (but port open)" }

def fpSocks5 : Option Bytes → ProxyFp
  | none => { service := ascii "SOCKS?", silent := true }
  | some received =>
    let reply : Bytes := received ++ List.replicate (8 - received.length) 0
    let method : UInt8 := reply.getD 1 0
    if reply.getD 0 0 = 0x05 ∧ 2 ≤ received.length then
      { service := ascii "SOCKS5"
        details := ascii "methods=0x" ++ hexS false [method] ++
          (if method = 0x00 then ascii " (no-auth)"
          else if method = 0x02 then ascii " (user/pass)"
          else if method = 0xFF then ascii " (no acceptable)"
          else [])
        isVpnLike := true }
    else if reply.getD 0 0 = 0x05 then
      { service := ascii "SOCKS5", details := ascii "short greeting", isVpnLike := true }
    else if reply.getD 0 0 = 0x04 then { service := ascii "SOCKS4", isVpnLike := true }
    else
      { service := ascii "SOCKS?"
        details := ascii "reply=" ++ hexS false (reply.take (min 4 received.length)) }

end ByeByeVpn
