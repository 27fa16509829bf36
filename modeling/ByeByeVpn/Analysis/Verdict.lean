import ByeByeVpn.Analysis.Geoip
import ByeByeVpn.Network.J3Probes
import ByeByeVpn.Network.PortScan
import ByeByeVpn.Network.ServiceProbes

/-!
# The report (`analysis/verdict.h`)

The results of the probes, with the fields that the verdict reads.
-/

namespace ByeByeVpn

structure Resolved where
  host : Bytes := []
  primaryIp : Bytes := []
  err : Bytes := []

structure UdpResult where
  responded : Bool := false

structure TlsProbe where
  ok : Bool := false
  err : Bytes := []
  version : Bytes := []
  cipher : Bytes := []
  alpn : Bytes := []
  group : Bytes := []
  handshakeMs : Int := 0
  ageDays : Int := 0
  selfSigned : Bool := false

structure SniConsistency where
  baseSha : Bytes := []
  realityLike : Bool := false
  brandClaimed : Bytes := []
  certImpersonation : Bool := false
  passthroughMode : Bool := false

structure HttpsProbe where
  tlsOk : Bool := false
  responded : Bool := false
  serverHdr : Bytes := []
  versionAnomaly : Bool := false
  hasProxyLeak : Bool := false
  hasCdnHdr : Bool := false

structure PortFp where
  port : Int := 0
  fp : FpResult := {}
  tls : Option TlsProbe := none
  sni : Option SniConsistency := none
  j3 : List J3Result := []
  j3a : Option J3Analysis := none
  https : Option HttpsProbe := none
  ct : Option CtCheck := none

structure FullReport where
  target : Bytes := []
  dns : Resolved := {}
  geos : List GeoInfo := []
  openTcp : List TcpOpen := []
  udpProbes : List (Int × UdpResult) := []
  fps : List PortFp := []
  scanStats : ScanStats := {}
  score : Int := 0
  label : Bytes := []
  guessStack : List Bytes := []

def FullReport.vpnDetected (R : FullReport) : Bool := R.score < 50

end ByeByeVpn
