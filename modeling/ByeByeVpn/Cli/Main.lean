import ByeByeVpn.Core.Utils
import ByeByeVpn.Lib.Strtol
import ByeByeVpn.Network.PortScan

/-!
# The command line (`main.cpp`)

`main_impl` goes through its arguments and sets the global configuration, or
ends the process with a message. A loop iteration may use up the argument
after its own.
-/

namespace ByeByeVpn

def kMinThreadCount : Int := 1

def kMaxThreadCount : Int := 10000

def kMinTimeoutMs : Int := 1

def kMaxTimeoutMs : Int := 60000

/-- The globals of `config`, and the positional arguments. -/
structure Config extends PortConfig where
  noColor : Bool := false
  verbose : Bool := false
  threads : Int := 1200
  tcpTo : Int := 1000
  udpTo : Int := 900
  stealth : Bool := false
  noGeoip : Bool := false
  noCt : Bool := false
  udpJitter : Bool := false
  tcpSynScan : Bool := false
  saveRequested : Bool := false
  savePath : Bytes := []
  pos : List Bytes := []
  deriving DecidableEq

/-- The end of the process, with what it writes to `stderr`. `--help` ends it
too, after its own text. -/
structure Exit where
  code : Int
  message : Bytes := []
  deriving DecidableEq, Repr

def tryParseInt (s : Bytes) (minV maxV : Int) : Option Int :=
  if s.isEmpty then none
  else
    let res := strtol 10 s
    if !res.inRange || !res.converted || res.rest.headD 0 ≠ 0 || res.value < minV ||
        maxV < res.value then none
    else some res.value

def parseIntFatal (s : Bytes) (name : String) (minV maxV : Int) : Except Exit Int :=
  match tryParseInt s minV maxV with
  | some out => .ok out
  | none =>
    .error ⟨1, ascii "Error: invalid value for " ++ ascii name ++ ascii ": '" ++ s ++
      ascii "' (expected " ++ decimal minV ++ ascii "-" ++ decimal maxV ++ ascii ")\n"⟩

/-- `argv[++i]`, if there is one. -/
def required (next : Option Bytes) (message : String) : Except Exit Bytes :=
  match next with
  | some v => .ok v
  | none => .error ⟨1, ascii message⟩

def parseRange (c : Config) (v : Bytes) : Except Exit Config := do
  let dash := v.idxOf (chr '-')
  if dash = v.length ∨ dash = 0 ∨ dash = v.length - 1 then
    .error ⟨1, ascii "Error: invalid --range format '" ++ v ++
      ascii "' (expected start-end, e.g., 1000-2000)\n"⟩
  else
    let rangeLo ← parseIntFatal (v.take dash) "range start" kMinPortNumber kMaxPortNumber
    let rangeHi ← parseIntFatal (v.drop (dash + 1)) "range end" kMinPortNumber kMaxPortNumber
    if rangeHi < rangeLo then
      .error ⟨1, ascii "Error: invalid --range '" ++ v ++ ascii "' (start must be <= end)\n"⟩
    else .ok { c with rangeLo, rangeHi, portMode := .range }

/-- `if (!tok.empty()) g_port_list.push_back(parse_int_fatal(tok))` -/
def pushPort (list : List Int) (tok : Bytes) : Except Exit (List Int) :=
  if tok.isEmpty then .ok list
  else do
    let n ← parseIntFatal tok "port list entry" kMinPortNumber kMaxPortNumber
    .ok (list ++ [n])

/-- The value of `--ports`. The loop of the source does not see an empty last
token, which it would skip. -/
def parsePorts (c : Config) (v : Bytes) : Except Exit Config := do
  let c := { c with portList := [] }
  let portList ← (split v (chr ',')).foldlM pushPort c.portList
  let c := { c with portList }
  .ok (if !c.portList.isEmpty then { c with portMode := .list } else c)

/-- The body of the loop, for the argument `a` with `next` after it. The flag
says that `next` was used up. -/
def parseArg (c : Config) (a : Bytes) (next : Option Bytes) : Except Exit (Config × Bool) :=
  if a = ascii "--no-color" then .ok ({ c with noColor := true }, false)
  else if a = ascii "--verbose" ∨ a = ascii "-v" then .ok ({ c with verbose := true }, false)
  else if a = ascii "--threads" then do
    let v ← required next "Error: --threads requires a value\n"
    let threads ← parseIntFatal v "--threads" kMinThreadCount kMaxThreadCount
    .ok ({ c with threads }, true)
  else if a = ascii "--tcp-to" then do
    let v ← required next "Error: --tcp-to requires a value\n"
    let tcpTo ← parseIntFatal v "--tcp-to" kMinTimeoutMs kMaxTimeoutMs
    .ok ({ c with tcpTo }, true)
  else if a = ascii "--udp-to" then do
    let v ← required next "Error: --udp-to requires a value\n"
    let udpTo ← parseIntFatal v "--udp-to" kMinTimeoutMs kMaxTimeoutMs
    .ok ({ c with udpTo }, true)
  else if a = ascii "--syn" then .ok ({ c with tcpSynScan := true }, false)
  else if a = ascii "--stealth" then
    .ok ({ c with stealth := true, noGeoip := true, noCt := true, udpJitter := true }, false)
  else if a = ascii "--no-geoip" then .ok ({ c with noGeoip := true }, false)
  else if a = ascii "--no-ct" then .ok ({ c with noCt := true }, false)
  -- only a warning
  else if a = ascii "--use-ip-api" then .ok (c, false)
  else if a = ascii "--udp-jitter" then .ok ({ c with udpJitter := true }, false)
  else if a = ascii "--save" then
    let c := { c with saveRequested := true }
    match next with
    | some nxt =>
      if !nxt.isEmpty && !startsWith nxt (ascii "-") then .ok ({ c with savePath := nxt }, true)
      else .ok (c, false)
    | none => .ok (c, false)
  else if a = ascii "--full" then .ok ({ c with portMode := .full }, false)
  else if a = ascii "--fast" then .ok ({ c with portMode := .fast }, false)
  else if a = ascii "--range" then do
    let v ← required next "Error: --range requires a value in format start-end\n"
    let c ← parseRange c v
    .ok (c, true)
  else if a = ascii "--ports" then do
    let v ← required next "Error: --ports requires a comma-separated list of ports\n"
    let c ← parsePorts c v
    .ok (c, true)
  else if a = ascii "--help" ∨ a = ascii "-h" ∨ a = ascii "/?" then .error ⟨0, []⟩
  else .ok ({ c with pos := c.pos ++ [a] }, false)

/-- The loop over `argv[1]`, `argv[2]`, … -/
def parseArgs (c : Config) : List Bytes → Except Exit Config
  | [] => .ok c
  | a :: rest =>
    match parseArg c a rest.head?, rest with
    | .error e, _ => .error e
    | .ok (c, true), _ :: rest => parseArgs c rest
    | .ok (c, true), [] => .ok c
    | .ok (c, false), rest => parseArgs c rest

end ByeByeVpn
