import ByeByeVpn.Analysis.Verdict
import ByeByeVpn.Network.HttpClient

/-!
# The HTTPS probe (`network/https_probe.cpp`)

`https_probe` from the point where the request has been sent: it reads a few
kilobytes, headers and page alike, and looks for header fields in what it got.
-/

namespace ByeByeVpn

open Search

structure HttpsReport extends HttpsProbe where
  bytes : Nat := 0
  firstLine : Bytes := []
  httpVersion : Bytes := []
  statusCode : Int := 0
  noServerHdr : Bool := false
  viaHdr : Bytes := []
  forwardedHdr : Bytes := []
  xffHdr : Bytes := []
  xrealIpHdr : Bytes := []
  xForwardedProto : Bytes := []
  xForwardedHost : Bytes := []
  cfRayHdr : Bytes := []
  cfCacheStatus : Bytes := []
  xAmzCfId : Bytes := []
  xAmzCfPop : Bytes := []
  xAzureRef : Bytes := []
  xAzureClientip : Bytes := []
  xCache : Bytes := []
  xServedBy : Bytes := []
  altSvc : Bytes := []
  err : Bytes := []

/-- The loop that reads, with the turns that are left: the bytes, and the
error. -/
def readProbe (turn : Nat → ReadTurn) : Nat → Bytes → Bytes × Bytes
  | 0, body => (body, [])
  | left + 1, body =>
    match turn (5 - left) with
    | .data got =>
      let body := body ++ got
      if 4096 ≤ body.length then (body, []) else readProbe turn left body
    | .again => readProbe turn left body
    | .closed => (body, [])
    | .failed err => (body, err)

/-- The text before the first space of the first line. -/
def versionText (first : Bytes) : Bytes := first.take ((find [chr ' '] first).getD first.length)

def hasVersionAnomaly (first : Bytes) : Bool :=
  if startsWith first (ascii "HTTP/") then
    let version := versionText first
    if 8 ≤ version.length then
      let x := version.getD 5 0
      let y := version.getD 7 0
      !(x == chr '1' || x == chr '2') || !(y == chr '0' || y == chr '1') || x == chr '0'
    else true
  else true

/-- The status between the first two spaces of the first line. -/
def probeStatus (first : Bytes) : Int :=
  if startsWith first (ascii "HTTP/") then
    match find [chr ' '] first with
    | none => 0
    | some sp =>
      match findFrom [chr ' '] first (sp + 1) with
      | none => 0
      | some sp2 => atoi ((first.drop (sp + 1)).take (sp2 - sp - 1))
  else 0

/-- Where the first line with the name starts, or the newline before it. -/
def findHeader (lowerBody key : Bytes) : Option Nat :=
  let lkey := tolowerS key
  let startKey := lkey ++ ascii ":"
  let lineKey := ascii "\n" ++ lkey ++ ascii ":"
  if startsWith lowerBody startKey then some 0 else find lineKey lowerBody

/-- The trimmed text behind the first colon from `p` on, up to the end of the
line. -/
def headerText (body : Bytes) (p : Nat) : Bytes :=
  match findFrom [chr ':'] body p with
  | none => []
  | some colon =>
    let endPos := (findFrom [chr '\n'] body (colon + 1)).getD body.length
    if endPos ≤ colon then [] else trim ((body.drop (colon + 1)).take (endPos - colon - 1))

def getHeader (body lowerBody key : Bytes) : Bytes :=
  ((findHeader lowerBody key).map (headerText body)).getD []

/-- Where the Server field starts: the usual spelling first. -/
def findServer (body : Bytes) : Option Nat :=
  match find (ascii "\nServer:") body with
  | some sh => some sh
  | none => find (ascii "\nserver:") body

/-- The text of the field that starts there. -/
def serverText (body : Bytes) (sh : Nat) : Bytes :=
  let se := (findFrom [chr '\n'] body (sh + 1)).getD body.length
  trim ((body.drop (sh + 8)).take (se - (sh + 8)))

def analyzeReply (body err : Bytes) : HttpsReport :=
  if body.isEmpty then { tlsOk := true, err }
  else
    let first := ByeByeVpn.firstLine body
    let status := probeStatus first
    let server := findServer body
    let header := getHeader body (tolowerS body)
    let viaHdr := header (ascii "Via")
    let forwardedHdr := header (ascii "Forwarded")
    let xffHdr := header (ascii "X-Forwarded-For")
    let xrealIpHdr := header (ascii "X-Real-IP")
    let cfRayHdr := header (ascii "CF-Ray")
    let xAmzCfId := header (ascii "X-Amz-Cf-Id")
    let xAzureRef := header (ascii "X-Azure-Ref")
    let xServedBy := header (ascii "X-Served-By")
    { tlsOk := true
      err
      bytes := body.length
      responded := true
      firstLine := first
      httpVersion := if startsWith first (ascii "HTTP/") then versionText first else []
      versionAnomaly := hasVersionAnomaly first
      statusCode := status
      serverHdr := (server.map (serverText body)).getD []
      noServerHdr := server.isNone && 0 < status
      viaHdr
      forwardedHdr
      xffHdr
      xrealIpHdr
      xForwardedProto := header (ascii "X-Forwarded-Proto")
      xForwardedHost := header (ascii "X-Forwarded-Host")
      cfRayHdr
      cfCacheStatus := header (ascii "CF-Cache-Status")
      xAmzCfId
      xAmzCfPop := header (ascii "X-Amz-Cf-Pop")
      xAzureRef
      xAzureClientip := header (ascii "X-Azure-ClientIP")
      xCache := header (ascii "X-Cache")
      xServedBy
      altSvc := header (ascii "Alt-Svc")
      hasProxyLeak :=
        !viaHdr.isEmpty || !forwardedHdr.isEmpty || !xffHdr.isEmpty || !xrealIpHdr.isEmpty
      hasCdnHdr :=
        !cfRayHdr.isEmpty || !xAmzCfId.isEmpty || !xAzureRef.isEmpty || !xServedBy.isEmpty }

def httpsProbe (turn : Nat → ReadTurn) : HttpsReport :=
  let (body, err) := readProbe turn 6 []
  analyzeReply body err

end ByeByeVpn
