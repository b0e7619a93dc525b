import DappyCore.SessionSteps
import DappyCore.Isolation
import DappyCore.Observer
import DappyCore.Routing
import DappyCore.CancelIsolation
import DappyCore.Transparency
import DappyCore.Import
import DappyCore.Execution
import DappyCore.Replay
import DappyCore.Replacement
import DappyCore.EventTracking
import DappyCore.Lib.Utf8
import DappyCore.Transport
import DappyCore.TransportSteps
import DappyCore.Framing
import DappyCore.HeaderLines
import DappyCore.Recv
import DappyCore.Lib.Effect
import DappyCore.Lib.Inbox
import DappyCore.ControlClient
import DappyCore.Bookkeeping
import DappyCore.ControlSteps
import DappyCore.TypedRequests
import DappyCore.Probe
import DappyCore.Navigation
import DappyCore.Manifest
import DappyCore.SessionInit
import DappyCore.InitSteps
import DappyCore.Failures
import DappyCore.InitAgreement
import DappyCore.Broadcasting
import DappyCore.ChildSession
import DappyCore.MuxBridge
import DappyCore.ReverseAnswers
import DappyCore.ChildLimit
import DappyCore.ProxyProcess
import DappyCore.ProxyTree
import DappyCore.Gateway
import DappyCore.RoutePriority
import DappyCore.Lib.Trace
import DappyCore.Pruning
import DappyCore.ImportRace
import DappyCore.BreakpointRoundTrip
import DappyCore.ChildCommand
import DappyCore.Endpoints
import DappyCore.FailedBreakpoints
import DappyCore.Lib.Selection
import DappyCore.Loader
import DappyCore.Lib.Keyed
import DappyCore.LoadOrder
import DappyCore.AttachDefaults
import DappyCore.BreakpointFrame
import DappyCore.BreakpointPairing
import DappyCore.Reregistration
import DappyCore.RuleResolution
import DappyCore.EventLag
import DappyCore.WaitForResponse
import DappyCore.SessionStore
import DappyCore.SessionMap
import DappyCore.Lib.Text
import DappyCore.Lib.Wildcard
import DappyCore.Lib.Hex
import DappyCore.Lib.Words
import DappyCore.StopPolicy
import DappyCore.SkipPattern
import DappyCore.HitCounts
import DappyCore.SourceNames
import DappyCore.InFlight
import DappyCore.FunctionResolve
import DappyCore.Bounds
import DappyCore.Memory
import DappyCore.HexInput
import DappyCore.MemoryDump
import DappyCore.SourceView
import DappyCore.Highlight
import DappyCore.SharedStore
import DappyCore.TransparentProxy
import DappyCore.Lib.Interleave
import DappyCore.Queues
import DappyCore.ClientBridge
import DappyCore.PluginInfo
import DappyCore.Advertising
import DappyCore.Operations
import DappyCore.Upstream
import DappyCore.ClientQueue
import DappyCore.Listings
import DappyCore.Asking
import DappyCore.Templates
import DappyCore.Targets
import DappyCore.Engine
import DappyCore.EngineSessions
import DappyCore.ChildReady
import DappyCore.Discovery
import DappyCore.Departures
import DappyCore.Profiles
import DappyCore.Inheritance
import DappyCore.SourceListing
