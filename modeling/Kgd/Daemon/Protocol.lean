import Kgd.ForStd.GoMap

/-!
# Protocol types

The request parameters, results and notifications of `internal/protocol/types.go` that the
placement engine reads or writes, and the terminal facts of `internal/tty` it is told.
A Go `int` is a 64-bit machine integer (`Int64`).
-/

namespace Kgd

/-- Engine-side client identifier: a connection's UUID, or the ID of a session's first
    connection. -/
abbrev ClientID := String

/-- Image bytes. -/
abbrev Data := List UInt8

/-! ## Colors and terminal size -/

/-- `protocol.Color` and `tty.Color16`: 16 bits per channel. -/
structure Color where
  r : UInt16
  g : UInt16
  b : UInt16
  deriving DecidableEq, Repr, Inhabited

/-- `tty.TermColors`. -/
structure TermColors where
  fg : Color
  bg : Color
  deriving DecidableEq, Repr, Inhabited

/-- `tty.WinSize`, the terminal dimensions from TIOCGWINSZ. -/
structure WinSize where
  rows : UInt16
  cols : UInt16
  xPixel : UInt16
  yPixel : UInt16
  deriving DecidableEq, Repr, Inhabited

/-- Go's conversion `int(x)` of a `uint16`. -/
def intOfUInt16 (x : UInt16) : Int64 := Int64.ofNat x.toNat

/-! ## Request parameters -/

/-- `protocol.HelloParams`; the session ID is read by the RPC server, not the engine. -/
structure HelloParams where
  clientType : String
  pid : Int64
  label : String
  sessionID : String
  deriving DecidableEq, Repr

/-- `protocol.UploadParams`. -/
structure UploadParams where
  data : Data
  format : String
  width : Int64
  height : Int64
  deriving DecidableEq, Repr

/-- `protocol.Anchor`: a logical position. `type` is the string on the wire. -/
structure Anchor where
  type : String
  paneID : String
  winID : Int64
  bufLine : Int64
  row : Int64
  col : Int64
  deriving DecidableEq, Repr, Inhabited

/-- `protocol.PlaceParams`. -/
structure PlaceParams where
  handle : UInt32
  anchor : Anchor
  width : Int64
  height : Int64
  srcX : Int64
  srcY : Int64
  srcW : Int64
  srcH : Int64
  zIndex : Int32
  deriving DecidableEq, Repr, Inhabited

/-- `protocol.RegisterWinParams`. -/
structure RegisterWinParams where
  winID : Int64
  paneID : String
  top : Int64
  left : Int64
  width : Int64
  height : Int64
  scrollTop : Int64
  deriving DecidableEq, Repr, Inhabited

/-! ## Results and notifications -/

/-- `protocol.HelloResult`. -/
structure HelloResult where
  clientID : ClientID
  cols : Int64
  rows : Int64
  cellWidth : Int64
  cellHeight : Int64
  inTmux : Bool
  fg : Color
  bg : Color
  deriving DecidableEq, Repr

/-- `protocol.PlacementInfo`. -/
structure PlacementInfo where
  placementID : UInt32
  clientID : ClientID
  handle : UInt32
  visible : Bool
  row : Int64
  col : Int64
  deriving DecidableEq, Repr

/-- `protocol.StatusResult`. -/
structure StatusResult where
  clients : Int64
  placements : Int64
  images : Int64
  cols : Int64
  rows : Int64
  deriving DecidableEq, Repr

/-- A notification the engine hands to its notifier, with the method's parameters. -/
inductive Notification
  /-- `evicted` -/
  | evicted (handle : UInt32)
  /-- `topology_changed` -/
  | topologyChanged (cols rows cellWidth cellHeight : Int64)
  /-- `visibility_changed` -/
  | visibilityChanged (placementID : UInt32) (visible : Bool)
  /-- `theme_changed` -/
  | themeChanged (fg bg : Color)
  deriving DecidableEq, Repr

end Kgd
