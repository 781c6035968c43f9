import Kgd.ForStd.List
import Kgd.ForStd.GoMap
import Kgd.ForStd.RecencyList
import Kgd.ForStd.Run
import Kgd.Daemon.Protocol
import Kgd.Daemon.Placement
import Kgd.Daemon.Cache
import Kgd.Daemon.Kitty
import Kgd.Daemon.Engine
import Kgd.Daemon.Server
import Kgd.Daemon.Shutdown
import Kgd.Spec.Terminal
import Kgd.Spec.CacheRefinement
import Kgd.Spec.EngineSteps
import Kgd.Spec.ImageAccounting
import Kgd.Spec.LivePlacements
import Kgd.Spec.TerminalMirror
import Kgd.Spec.Positions
import Kgd.Spec.UploadedImage
import Kgd.Spec.Solo
import Kgd.Spec.SoloHandles
import Kgd.Spec.SoloPlacements
import Kgd.Spec.SoloRefinement
import Kgd.Spec.ClientIsolation
import Kgd.Spec.WindowOwnership
import Kgd.Spec.Cleanup
import Kgd.Spec.ShutdownDrain
import Kgd.Spec.Notifications
import Kgd.Spec.Sessions
import Kgd.Spec.CacheBound
import Kgd.Spec.SessionReaping
import Kgd.Daemon.System
import Kgd.Spec.Reclaim
import Kgd.Daemon.TTYGraphics
import Kgd.ForStd.Framing
import Kgd.Spec.ByteStream
import Kgd.ForStd.Msgpack
import Kgd.Client.Go
import Kgd.Daemon.Wire
import Kgd.ForStd.MsgpackFormat
import Kgd.Spec.GoReadback
import Kgd.Daemon.Serve
import Kgd.Spec.Messages
import Kgd.Spec.Pipelining
import Kgd.Spec.MessageBounds
import Kgd.Daemon.Calls
import Kgd.Spec.CallsAnswered
import Kgd.Daemon.TmuxWatcher
import Kgd.Spec.PaneConvergence
import Kgd.Client.C
import Kgd.ForStd.SlotTable
import Kgd.Client.Zig
import Kgd.Spec.PendingCalls
import Kgd.Spec.CCalls
import Kgd.Spec.ZigCalls
import Kgd.Spec.CallResults
import Kgd.ForStd.MsgpackBytes
import Kgd.Client.OCaml
import Kgd.Spec.OCamlCodec
import Kgd.Client.ZigProtocol
import Kgd.Spec.ZigCodec
import Kgd.ForStd.MsgpackEncode
import Kgd.Spec.WideMessages
import Kgd.Client.Lua
import Kgd.Spec.LuaCodec
import Kgd.ForStd.MsgpackFields
import Kgd.Client.Anchors
import Kgd.Daemon.Decode
import Kgd.Spec.Anchors
import Kgd.Client.SocketPath
import Kgd.Spec.SocketPath
import Kgd.Daemon.SocketFile
import Kgd.Spec.SocketFile
import Kgd.Spec.GeometryHistory
import Kgd.ForStd.Int64
import Kgd.Spec.OnScreen
import Kgd.ForStd.Base64
import Kgd.ForStd.KeyValue
import Kgd.Spec.Apc
import Kgd.Spec.TransmitChunks
import Kgd.Spec.CacheCalls
import Kgd.Spec.Disconnect
import Kgd.Spec.OCamlRange
import Kgd.Spec.SlotsRunOut
import Kgd.Client.OCamlCalls
import Kgd.Client.Python
import Kgd.Client.Rust
import Kgd.ForStd.OwnerTable
import Kgd.Spec.RustCalls
import Kgd.Spec.Bookkeeping
import Kgd.Spec.AnsweredInTime
import Kgd.Client.Nvim
import Kgd.Spec.NvimCallbacks
import Kgd.Client.NvimTracker
import Kgd.Spec.NvimWindows
import Kgd.Daemon.TermColors
import Kgd.Spec.ColorGrammar
import Kgd.Spec.ColorQuery
import Kgd.Spec.Wraparound
import Kgd.Client.Mpack
import Kgd.Client.CMessages
import Kgd.Spec.MpackReader
import Kgd.Spec.ProcessMessage
import Kgd.Client.CResults
import Kgd.Spec.CResults
import Kgd.Spec.ClientView
import Kgd.Client.CReader
import Kgd.Spec.CReader
import Kgd.Spec.Listing
import Kgd.Spec.Screen
import Kgd.Spec.ScreenMirror
import Kgd.Client.ZigRequests
import Kgd.Daemon.Params
import Kgd.Spec.Requests
import Kgd.Spec.SessionSurvival
import Kgd.Spec.ZigRequests
import Kgd.Daemon.Panes
import Kgd.Spec.PaneLines
import Kgd.Client.OCamlRequests
import Kgd.Spec.OCamlRequests
