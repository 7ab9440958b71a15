import InVehicle.UdsAttempts
import InVehicle.UdsLink
import InVehicle.Effect
import InVehicle.Framing
import InVehicle.TcpSocket
import InVehicle.DoipReader
import InVehicle.DoipMessages
import InVehicle.DoipSession
import InVehicle.RoutingActivation
import InVehicle.DoipAnswers
import InVehicle.FormatLaws
import InVehicle.TextCodecs
import InVehicle.WlanElements
import InVehicle.WlanElementLaws
import InVehicle.WlanFrame
import InVehicle.WlanFraming
import InVehicle.WlanFrameLaws
import InVehicle.WlanRebuild
import InVehicle.WlanBeacon
import InVehicle.WlanPieces
import InVehicle.WlanSsid
import InVehicle.WlanRsn
import InVehicle.UdsTraffic
import InVehicle.WlanReceive
import InVehicle.Histories
import InVehicle.CanConfiguration
import InVehicle.CanSocketCan
import InVehicle.SerialShell
import InVehicle.WlanInterface
import InVehicle.WlanCycles
import InVehicle.IsoTp
import InVehicle.UsbDevice
import InVehicle.BackgroundPlugin
import InVehicle.HexText
import InVehicle.Search
import InVehicle.DidRecords
import InVehicle.CrashDetection
import InVehicle.SessionRoute
import InVehicle.UdsDoip
import InVehicle.CanWindow
import InVehicle.CanSessions
import InVehicle.PluginManager
import InVehicle.WlanClassify
import InVehicle.Ccmp
import InVehicle.CcmpFrames
import InVehicle.Loops
import InVehicle.SerialReads
import InVehicle.SomeipDiscovery
import InVehicle.Layer2Socket
import InVehicle.WlanDataFrame
import InVehicle.WlanRsnParts
import InVehicle.WlanSsidText
import InVehicle.BitMasks
import InVehicle.EthConfiguration
import InVehicle.KeyedLists
import InVehicle.SecurityAccess
import InVehicle.WifiDevices
import InVehicle.BuildIp
import InVehicle.PyNumbers
import InVehicle.StableSorts
import InVehicle.RangeSets
import InVehicle.WlanCollect
import InVehicle.AlignedFields
import InVehicle.RadiotapFields
import InVehicle.RadiotapCapture
import InVehicle.Patterns
import InVehicle.SerialLogin
import InVehicle.SerialLoginEnds
import InVehicle.Dicts
import InVehicle.DoipCalls
import InVehicle.UdsAuthentication
import InVehicle.UdsPlugins
import InVehicle.MulticastRuns
import InVehicle.MulticastSockets
import InVehicle.WlanDecrypt
import InVehicle.WlanNetworkName
import InVehicle.DoipDiscovery
import InVehicle.UdsEndless
import InVehicle.Waiting
import InVehicle.SessionEndless
