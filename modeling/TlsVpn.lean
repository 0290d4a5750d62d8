import TlsVpn.Words
import TlsVpn.Runs
import TlsVpn.Reorder
import TlsVpn.ReorderShape
import TlsVpn.ReorderSafety
import TlsVpn.ReorderRuns
import TlsVpn.ReorderEnd
import TlsVpn.ReorderAccounts
import TlsVpn.ReorderDirect
import TlsVpn.XorBytes
import TlsVpn.Protocol
import TlsVpn.Fec
import TlsVpn.FecEncoding
import TlsVpn.FecGroups
import TlsVpn.FecCalls
import TlsVpn.FecSoundness
import TlsVpn.FecTwins
import TlsVpn.ErasureGroup
import TlsVpn.FecCompleteness
import TlsVpn.Holdings
import TlsVpn.Port
import TlsVpn.GroupIntegrity
import TlsVpn.FecTopology
import TlsVpn.FecFence
import TlsVpn.FecValidation
import TlsVpn.FenceOrder
import TlsVpn.PortLedger
import TlsVpn.Sealing
import TlsVpn.ServerSession
import TlsVpn.ServerNonces
import TlsVpn.ServerIsolation
import TlsVpn.RxActor
import TlsVpn.RxOrder
import TlsVpn.Unwinding
import TlsVpn.RxGenerations
import TlsVpn.FecRetirement
import TlsVpn.ClientSession
import TlsVpn.ClientTransmit
import TlsVpn.ClientNonces
import TlsVpn.ClientGenerations
import TlsVpn.Registry
import TlsVpn.RegistryAccounts
import TlsVpn.RegistryReaper
import TlsVpn.RegistryDecoding
import TlsVpn.FecAgreement
import TlsVpn.RegistryTokens
import TlsVpn.TokenPersistence
import TlsVpn.PortQueues
import TlsVpn.Scheduler
import TlsVpn.PortWrites
import TlsVpn.Fifo
import TlsVpn.QueueFifo
import TlsVpn.QueueHints
import TlsVpn.QueueAccounts
import TlsVpn.Outbound
import TlsVpn.Checked
import TlsVpn.FecEnd
import TlsVpn.AddressText
import TlsVpn.Socks5
import TlsVpn.Cidr
import TlsVpn.IpPool
import TlsVpn.Admission
import TlsVpn.PoolAccounts
import TlsVpn.SwitchConsistency
import TlsVpn.VSwitch
import TlsVpn.Delimited
import TlsVpn.Framing
import TlsVpn.FrameScanner
import TlsVpn.ScannerBounds
import TlsVpn.FlushRecords
import TlsVpn.Places
import TlsVpn.SchedulerStores
import TlsVpn.FairShare
import TlsVpn.SchedulerFairness
import TlsVpn.TcpCork
import TlsVpn.TcpBrutal
import TlsVpn.Slices
import TlsVpn.XorLanes
import TlsVpn.Calendar
import TlsVpn.TapDelivery
import TlsVpn.Json
import TlsVpn.ConfigDiff
import TlsVpn.ConfigSecrets
import TlsVpn.Dashboard
import TlsVpn.DashboardRuns
import TlsVpn.Events
