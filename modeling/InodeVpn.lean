import InodeVpn.Lib.Runs
import InodeVpn.Lib.Threads
import InodeVpn.Lib.Framing
import InodeVpn.Lib.Text
import InodeVpn.Lib.Fallible
import InodeVpn.Lib.Routes
import InodeVpn.Lib.Ipv4
import InodeVpn.Lib.Masks
import InodeVpn.Lib.Segments
import InodeVpn.Lib.Search
import InodeVpn.Lib.Replace
import InodeVpn.Lib.SplitOn
import InodeVpn.Lib.Splice
import InodeVpn.Lib.Json
import InodeVpn.Lib.JsonScan
import InodeVpn.Lib.JsonReplace
import InodeVpn.Lib.JsonRead
import InodeVpn.Lib.JsonLines
import InodeVpn.Lib.Serde
import InodeVpn.Lib.Ledger
import InodeVpn.Core.Config
import InodeVpn.Core.Save
import InodeVpn.Core.State
import InodeVpn.Core.Redact
import InodeVpn.Core.Ipc
import InodeVpn.Daemon.System
import InodeVpn.Daemon.Netwatch
import InodeVpn.Daemon.Client
import InodeVpn.Wire.Frames
import InodeVpn.Wire.Format
import InodeVpn.Fork.Receive
import InodeVpn.Fork.Mainloop
import InodeVpn.Fork.Link
import InodeVpn.Fork.Headers
import InodeVpn.Fork.Login
import InodeVpn.Fork.Connect
import InodeVpn.Routectl.Plan
import InodeVpn.Routectl.Linux
import InodeVpn.Routectl.MacOs
import InodeVpn.Routectl.Main
import InodeVpn.Cli.Diagnose
import InodeVpn.Cli.Client
import InodeVpn.Proofs.Sections
import InodeVpn.Proofs.Effects
import InodeVpn.Proofs.EngineSlot
import InodeVpn.Proofs.StopRespected
import InodeVpn.Proofs.Vpninfo
import InodeVpn.Proofs.Cancellation
import InodeVpn.Proofs.StopWhileStarting
import InodeVpn.Proofs.SessionSettles
import InodeVpn.Proofs.CommandPipe
import InodeVpn.Proofs.FrameStream
import InodeVpn.Proofs.FrameRoundTrip
import InodeVpn.Proofs.SavePrivate
import InodeVpn.Proofs.ConfigSet
import InodeVpn.Proofs.LegacyMigration
import InodeVpn.Proofs.FrameParser
import InodeVpn.Proofs.ParserAgreement
import InodeVpn.Proofs.ReceiveLoop
import InodeVpn.Proofs.Writers
import InodeVpn.Proofs.OutgoingFrames
import InodeVpn.Proofs.Publication
import InodeVpn.Proofs.StateFile
import InodeVpn.Proofs.Subscribers
import InodeVpn.Proofs.LoginRefused
import InodeVpn.Proofs.LoginCredentials
import InodeVpn.Proofs.Environment
import InodeVpn.Proofs.DeadPeer
import InodeVpn.Proofs.HeaderNumbers
import InodeVpn.Proofs.LinuxRoutes
import InodeVpn.Proofs.PhysicalPath
import InodeVpn.Proofs.FailedConnect
import InodeVpn.Proofs.NetworkCidr
import InodeVpn.Proofs.PlanNetworks
import InodeVpn.Proofs.ManagementPlane
import InodeVpn.Proofs.RouteLeaks
import InodeVpn.Proofs.RouteRestore
import InodeVpn.Proofs.MacRoutes
import InodeVpn.Proofs.ServiceOrder
import InodeVpn.Proofs.Redaction
import InodeVpn.Proofs.Diagnose
import InodeVpn.Proofs.Netmask
import InodeVpn.Proofs.HeaderScan
import InodeVpn.Proofs.Pacing
import InodeVpn.Proofs.ByteStream
import InodeVpn.Proofs.RefusedStart
import InodeVpn.Proofs.RetryGeneration
import InodeVpn.Proofs.NetworkEvents
import InodeVpn.Proofs.Debounce
import InodeVpn.Proofs.Cleanup
import InodeVpn.Proofs.SessionProtocol
import InodeVpn.Proofs.ObtainCookie
import InodeVpn.Proofs.IpcWire
import InodeVpn.Proofs.Conversation
import InodeVpn.Proofs.LogSecrecy
import InodeVpn.Proofs.SessionMemory
import InodeVpn.Proofs.NetExtend
import InodeVpn.Proofs.GatewayParams
import InodeVpn.Proofs.RequestAnswers
import InodeVpn.Proofs.ConfigCommands
import InodeVpn.Proofs.Tunnel
import InodeVpn.Proofs.Forwarding
