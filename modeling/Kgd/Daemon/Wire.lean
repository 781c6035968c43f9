import Kgd.ForStd.Msgpack
import Kgd.Daemon.Protocol

/-!
# What the daemon writes

The msgpack values of the results and notification parameters of `internal/protocol/types.go`,
from the struct tags. A field of type `uint16` or `uint32` has its own code; a field of type
`int` is written in the smallest form that holds it.
-/

namespace Kgd

open Msgpack

/-- A struct: a map from the names in its tags. -/
def encodeStruct (fields : List (String × Value)) : Value :=
  .map (fields.map fun (key, v) => (.str key, v))

def Color.encode (c : Color) : Value :=
  encodeStruct [("r", .uint16 c.r), ("g", .uint16 c.g), ("b", .uint16 c.b)]

/-! ## Results and parameters

`encodeInt` is what the encoder does with an `int`. -/

section
variable (encodeInt : Int64 → Value)

def HelloResult.encodeWith (r : HelloResult) : Value :=
  encodeStruct [("client_id", .str r.clientID), ("cols", encodeInt r.cols),
    ("rows", encodeInt r.rows), ("cell_width", encodeInt r.cellWidth),
    ("cell_height", encodeInt r.cellHeight), ("in_tmux", .bool r.inTmux),
    ("fg", r.fg.encode), ("bg", r.bg.encode)]

def PlacementInfo.encodeWith (p : PlacementInfo) : Value :=
  encodeStruct [("placement_id", .uint32 p.placementID), ("client_id", .str p.clientID),
    ("handle", .uint32 p.handle), ("visible", .bool p.visible), ("row", encodeInt p.row),
    ("col", encodeInt p.col)]

def StatusResult.encodeWith (r : StatusResult) : Value :=
  encodeStruct [("clients", encodeInt r.clients), ("placements", encodeInt r.placements),
    ("images", encodeInt r.images), ("cols", encodeInt r.cols), ("rows", encodeInt r.rows)]

/-- The parameters of a notification: `EvictedParams`, `TopologyChangedParams`,
    `VisibilityChangedParams` or `ThemeChangedParams`. -/
def Notification.encodeWith : Notification → Value
  | .evicted handle => encodeStruct [("handle", .uint32 handle)]
  | .topologyChanged cols rows cellWidth cellHeight =>
    encodeStruct [("cols", encodeInt cols), ("rows", encodeInt rows),
      ("cell_width", encodeInt cellWidth), ("cell_height", encodeInt cellHeight)]
  | .visibilityChanged placementID visible =>
    encodeStruct [("placement_id", .uint32 placementID), ("visible", .bool visible)]
  | .themeChanged fg bg => encodeStruct [("fg", fg.encode), ("bg", bg.encode)]

end

/-- The method of a notification. -/
def Notification.method : Notification → String
  | .evicted _ => "evicted"
  | .topologyChanged .. => "topology_changed"
  | .visibilityChanged .. => "visibility_changed"
  | .themeChanged .. => "theme_changed"

/-- A value the daemon sends to a client: the result of a request, or the parameters of a
    notification. -/
inductive Sent
  | hello (r : HelloResult)
  /-- `UploadResult` -/
  | upload (handle : UInt32)
  /-- `PlaceResult` -/
  | place (placementID : UInt32)
  /-- `ListResult` -/
  | list (placements : List PlacementInfo)
  | status (r : StatusResult)
  | notification (n : Notification)
  deriving DecidableEq, Repr

def Sent.encodeWith (encodeInt : Int64 → Value) : Sent → Value
  | .hello r => r.encodeWith encodeInt
  | .upload handle => encodeStruct [("handle", .uint32 handle)]
  | .place placementID => encodeStruct [("placement_id", .uint32 placementID)]
  -- without placements the engine's slice is nil, which is written as nil
  | .list [] => encodeStruct [("placements", .nil)]
  | .list (p :: ps) =>
    encodeStruct [("placements", .array ((p :: ps).map fun p => p.encodeWith encodeInt))]
  | .status r => r.encodeWith encodeInt
  | .notification n => n.encodeWith encodeInt

/-! ## With integers in their smallest form -/

def HelloResult.encode (r : HelloResult) : Value := r.encodeWith encodeInt

def PlacementInfo.encode (p : PlacementInfo) : Value := p.encodeWith encodeInt

def StatusResult.encode (r : StatusResult) : Value := r.encodeWith encodeInt

def Notification.encode (n : Notification) : Value := n.encodeWith encodeInt

def Sent.encode (s : Sent) : Value := s.encodeWith encodeInt

/-- A message to a client. -/
inductive DaemonMessage
  /-- `sendResponse`; a handler without a result returns nil -/
  | response (msgID : UInt32) (result : Except String (Option Sent))
  /-- `SendNotification` -/
  | notification (n : Notification)

/-- What `sendResponse` and `SendNotification` write; an error is an `RPCError`. -/
def DaemonMessage.encode : DaemonMessage → Value
  | .response msgID (.error message) =>
    -- an error has a message, and nil where the result would be
    .array [encodeInt 1, .uint32 msgID, encodeStruct [("message", .str message)], .nil]
  | .response msgID (.ok none) => .array [encodeInt 1, .uint32 msgID, .nil, .nil]
  | .response msgID (.ok (some result)) =>
    .array [encodeInt 1, .uint32 msgID, .nil, result.encode]
  | .notification n => .array [encodeInt 2, .str n.method, .array [n.encode]]

end Kgd
