import ByeByeVpn.Lib.Bytes

/-! # The ports of a TCP scan and its results (`network/port_scan.cpp`) -/

namespace ByeByeVpn

structure TcpOpen where
  port : Int := 0
  connectMs : Int := 0
  banner : Bytes := []
  err : Bytes := []
  deriving DecidableEq, Repr

structure ScanStats where
  scanned : Nat := 0
  timeouts : Nat := 0
  refused : Nat := 0
  other : Nat := 0
  skipped : Bool := false
  deriving DecidableEq, Repr

def kMinPortNumber : Int := 1

def kMaxPortNumber : Int := 65535

inductive PortMode
  | full | fast | range | list
  deriving DecidableEq, Repr

structure PortConfig where
  portMode : PortMode := .full
  rangeLo : Int := kMinPortNumber
  rangeHi : Int := kMaxPortNumber
  portList : List Int := []
  deriving DecidableEq, Repr

def kTcpFastPorts : List Int :=
  [22, 80, 81, 443, 1080, 1081, 3128, 4433, 4443, 6443, 7443, 8000, 8080, 8081, 8088, 8443, 8843,
    8888, 9000, 9001, 9050, 9051, 9443, 10000, 10443, 10808, 10809, 10810, 11443, 14443, 20443,
    21443, 22443, 41641, 44443, 46443, 50443, 51443, 51820, 55443, 62078]

/-- `for (int i{lo}; i <= hi; ++i) p.push_back(i)` -/
def portsBetween (lo hi : Int) : List Int :=
  (List.range (hi - lo + 1).toNat).map fun k : Nat => lo + k

def buildTcpPorts (c : PortConfig) : List Int :=
  match c.portMode with
  | .fast => kTcpFastPorts
  | .range =>
    let lo := max kMinPortNumber c.rangeLo
    let hi := min kMaxPortNumber c.rangeHi
    if hi < lo then [] else portsBetween lo hi
  | .list => c.portList
  | .full => portsBetween kMinPortNumber kMaxPortNumber

theorem mem_portsBetween {lo hi p : Int} : p ∈ portsBetween lo hi ↔ lo ≤ p ∧ p ≤ hi := by
  simp only [portsBetween, List.mem_map, List.mem_range]
  constructor
  · rintro ⟨k, hk, rfl⟩
    omega
  · rintro ⟨h₁, h₂⟩
    exact ⟨(p - lo).toNat, by omega, by omega⟩

end ByeByeVpn
