import Kgd.ForStd.Msgpack
import Kgd.Daemon.Protocol

/-!
# The Go client: reading results and notifications

`pkg/kgdclient/client.go`. A result or the parameters of a notification are decoded into an
empty interface and taken apart with the helpers at the end of that file; a field that is
missing or has another type is the zero value.
-/

namespace Kgd

namespace GoClient

open Msgpack

/-- `map[string]any`. -/
abbrev GoAnyMap := List (String × Any)

/-! ## Helpers for decoding generic map values -/

/-- `stringVal`. -/
def stringVal (m : GoAnyMap) (key : String) : String :=
  match index m key with
  | some (.string s) => s
  | _ => ""

/-- `intVal`. -/
def intVal (m : GoAnyMap) (key : String) : Int64 :=
  match index m key with
  | some (.int64 n) => n
  | some (.uint64 n) => n.toInt64
  | some (.int8 n) => n.toInt64
  | some (.uint8 n) => n.toUInt64.toInt64
  | some (.int32 n) => n.toInt64
  | some (.uint32 n) => n.toUInt64.toInt64
  -- the decoder's other integer types are not looked for
  | _ => 0

/-- `uint32Val`. -/
def uint32Val (m : GoAnyMap) (key : String) : UInt32 :=
  match index m key with
  | some (.uint64 n) => n.toUInt32
  | some (.uint32 n) => n
  | some (.int64 n) => n.toInt32.toUInt32
  | some (.int8 n) => n.toInt32.toUInt32
  | some (.uint8 n) => n.toUInt32
  -- the decoder's other integer types are not looked for
  | _ => 0

/-- `boolVal`. -/
def boolVal (m : GoAnyMap) (key : String) : Bool :=
  match index m key with
  | some (.bool b) => b
  | _ => false

/-- `colorFromMap`. -/
def colorFromMap (m : GoAnyMap) : Color :=
  { r := (intVal m "r").toUInt64.toUInt16, g := (intVal m "g").toUInt64.toUInt16,
    b := (intVal m "b").toUInt64.toUInt16 }

/-- `colorFromMap` of a field, if it is a map: a color that was not set is zero. -/
def colorVal (m : GoAnyMap) (key : String) : Color :=
  match index m key with
  | some (.map c) => colorFromMap c
  | _ => default

/-! ## Results -/

/-- The fields that `Connect` sets from the result of hello. -/
def connect : Any → HelloResult
  | .map m =>
    { clientID := stringVal m "client_id", cols := intVal m "cols", rows := intVal m "rows",
      cellWidth := intVal m "cell_width", cellHeight := intVal m "cell_height",
      inTmux := boolVal m "in_tmux", fg := colorVal m "fg", bg := colorVal m "bg" }
  | _ =>
    { clientID := "", cols := 0, rows := 0, cellWidth := 0, cellHeight := 0, inTmux := false,
      fg := default, bg := default }

/-- `Upload`; `none` is the error "unexpected upload result". -/
def upload : Any → Option UInt32
  | .map m => some (uint32Val m "handle")
  | _ => none

/-- `Place`; `none` is the error "unexpected place result". -/
def place : Any → Option UInt32
  | .map m => some (uint32Val m "placement_id")
  | _ => none

/-- One iteration of the loop of `List`; an element that is not a map is left out. -/
def placementInfo? : Any → Option PlacementInfo
  | .map pm =>
    some { placementID := uint32Val pm "placement_id", clientID := stringVal pm "client_id",
           handle := uint32Val pm "handle", visible := boolVal pm "visible",
           row := intVal pm "row", col := intVal pm "col" }
  | _ => none

/-- `List`. -/
def list : Any → List PlacementInfo
  | .map m =>
    match index m "placements" with
    | some (.slice placements) => placements.filterMap placementInfo?
    | _ => []
  | _ => []

/-- `Status`. -/
def status : Any → StatusResult
  | .map m =>
    { clients := intVal m "clients", placements := intVal m "placements",
      images := intVal m "images", cols := intVal m "cols", rows := intVal m "rows" }
  | _ => { clients := 0, placements := 0, images := 0, cols := 0, rows := 0 }

/-! ## Notifications -/

/-- The callback that `handleNotification` invokes, with all callbacks installed. -/
def handleNotification (method : String) : Any → Option Notification
  | .map m =>
    match method with
    | "evicted" => some (.evicted (uint32Val m "handle"))
    | "topology_changed" =>
      some (.topologyChanged (intVal m "cols") (intVal m "rows") (intVal m "cell_width")
        (intVal m "cell_height"))
    | "visibility_changed" =>
      some (.visibilityChanged (uint32Val m "placement_id") (boolVal m "visible"))
    | "theme_changed" => some (.themeChanged (colorVal m "fg") (colorVal m "bg"))
    | _ => none
  | _ => none

end GoClient

end Kgd
