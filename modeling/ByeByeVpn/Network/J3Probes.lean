import ByeByeVpn.Core.Utils

/-! # The analysis of junk probes (`network/j3_probes.cpp`) -/

namespace ByeByeVpn

structure J3Result where
  name : Bytes := []
  responded : Bool := false
  bytes : Int := 0
  firstLine : Bytes := []
  deriving DecidableEq, Repr

structure J3Analysis where
  silent : Nat := 0
  resp : Nat := 0
  httpReal : Nat := 0
  httpBadVersion : Nat := 0
  rawNonHttp : Nat := 0
  cannedIdentical : Nat := 0
  cannedLine : Bytes := []
  cannedBytes : Int := 0
  deriving DecidableEq, Repr

def J3Analysis.suspicious (a : J3Analysis) : Bool := 2 ≤ a.cannedIdentical || 0 < a.httpBadVersion

/-- Whether the line looks like HTTP, and whether its version is a bad one. -/
def looksLikeHttpLine (firstLine : Bytes) : Bool × Bool :=
  if firstLine.length < 9 || !startsWith firstLine (ascii "HTTP/") then (false, false)
  else
    let x := firstLine.getD 5 0
    let dot := firstLine.getD 6 0
    let y := firstLine.getD 7 0
    if dot ≠ chr '.' then (false, false)
    else
      let goodVersion := (x == chr '1' && (y == chr '0' || y == chr '1')) ||
        (x == chr '2' && y == chr '0')
      (true, !goodVersion)

def isValidHttpProbe (name : Bytes) : Bool :=
  contains name (ascii "HTTP GET /") || contains name (ascii "HTTP abs-URI")

def J3Analysis.count (a : J3Analysis) (p : J3Result) : J3Analysis :=
  if p.responded then
    let a := { a with resp := a.resp + 1 }
    match looksLikeHttpLine p.firstLine with
    | (true, false) => { a with httpReal := a.httpReal + 1 }
    | (true, true) => { a with httpBadVersion := a.httpBadVersion + 1 }
    | (false, _) => { a with rawNonHttp := a.rawNonHttp + 1 }
  else { a with silent := a.silent + 1 }

def sameAnswer (keys : List J3Result) (k : J3Result) : List J3Result :=
  keys.filter fun k' => k.firstLine == k'.firstLine && k.bytes == k'.bytes

def isCanned (keys : List J3Result) (k : J3Result) : Bool :=
  2 ≤ (sameAnswer keys k).length && 3 < k.firstLine.length &&
    (sameAnswer keys k).any fun k' => isValidHttpProbe k'.name

def j3Analyze (probes : List J3Result) : J3Analysis :=
  let a := probes.foldl .count {}
  let keys := probes.filter (·.responded)
  match keys.find? (isCanned keys) with
  | none => a
  | some k =>
    { a with
      cannedIdentical := (sameAnswer keys k).length
      cannedLine := k.firstLine
      cannedBytes := k.bytes }

end ByeByeVpn
