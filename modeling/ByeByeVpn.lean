import ByeByeVpn.Core.Encoders
import ByeByeVpn.Core.JsonUnescape
import ByeByeVpn.Core.Tee
import ByeByeVpn.Analysis.BrandNames
import ByeByeVpn.Analysis.CertNames
import ByeByeVpn.Analysis.GeoServices
import ByeByeVpn.Analysis.SniFlags
import ByeByeVpn.Analysis.SypexCode
import ByeByeVpn.Network.AddressChoice
import ByeByeVpn.Network.CannedReplies
import ByeByeVpn.Network.CertSubject
import ByeByeVpn.Network.ChunkLoop
import ByeByeVpn.Network.ConnectScan
import ByeByeVpn.Network.SourcePorts
import ByeByeVpn.Network.HttpUrl
import ByeByeVpn.Network.InternetChecksum
import ByeByeVpn.Network.IocpBooks
import ByeByeVpn.Network.OpensslRuntime
import ByeByeVpn.Network.PeerText
import ByeByeVpn.Network.PlainExchange
import ByeByeVpn.Network.ScanReport
import ByeByeVpn.Network.StatusLines
import ByeByeVpn.Network.SynAbort
import ByeByeVpn.Network.SynSession
import ByeByeVpn.Network.SynVerdicts
import ByeByeVpn.Network.ThreadPool
import ByeByeVpn.Network.TlsHelloProbe
import ByeByeVpn.Network.UdpProbe
import ByeByeVpn.Network.VersionJudges
import ByeByeVpn.Cli.CdnSuppression
import ByeByeVpn.Cli.Disclosure
import ByeByeVpn.Cli.Exposure
import ByeByeVpn.Cli.NofileLimit
import ByeByeVpn.Cli.PortOptions
import ByeByeVpn.Cli.SavedReport
