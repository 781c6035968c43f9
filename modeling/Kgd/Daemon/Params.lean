import Kgd.ForStd.MsgpackStruct
import Kgd.Daemon.Decode
import Kgd.Daemon.Serve

/-!
# What the daemon reads of params

The params structs of `internal/protocol/types.go` are decoded from msgpack maps by their struct
tags: a key that is omitted leaves the zero value, a key that is no tag is skipped. A Go `int` has
64 bits, and a field that is narrower takes what fits in it.
-/

namespace Kgd

open Msgpack

/-- The struct tags, each with what its value is decoded by. -/
def tagged {σ : Type} (fields : List (String × (σ → ByteReader Unit σ))) : Tags σ := fun key =>
  (fields.find? fun field => field.1 == goString key).map Prod.snd

/-- A `string` field. -/
def stringField {σ : Type} (set : σ → String → σ) (p : σ) : ByteReader Unit σ := do
  let s ← readString
  return set p (goString s)

/-- An `int` field. -/
def intField {σ : Type} (set : σ → Int64 → σ) (p : σ) : ByteReader Unit σ := do
  let n ← readNumber
  return set p (.ofInt n)

/-- A `uint32` field. -/
def uint32Field {σ : Type} (set : σ → UInt32 → σ) (p : σ) : ByteReader Unit σ := do
  let n ← readNumber
  return set p (.ofInt n)

/-- An `int32` field. -/
def int32Field {σ : Type} (set : σ → Int32 → σ) (p : σ) : ByteReader Unit σ := do
  let n ← readNumber
  return set p (.ofInt n)

namespace HelloParams

def fields : List (String × (HelloParams → ByteReader Unit HelloParams)) :=
  [("client_type", stringField fun p v => { p with clientType := v }),
   ("pid", intField fun p v => { p with pid := v }),
   ("label", stringField fun p v => { p with label := v }),
   ("session_id", stringField fun p v => { p with sessionID := v })]

def zero : HelloParams := ⟨"", 0, "", ""⟩

end HelloParams

namespace UploadParams

def fields : List (String × (UploadParams → ByteReader Unit UploadParams)) :=
  [("data", fun p => do return { p with data := ← readBin }),
   ("format", stringField fun p v => { p with format := v }),
   ("width", intField fun p v => { p with width := v }),
   ("height", intField fun p v => { p with height := v })]

def zero : UploadParams := ⟨[], "", 0, 0⟩

end UploadParams

namespace PlaceParams

def fields : List (String × (PlaceParams → ByteReader Unit PlaceParams)) :=
  [("handle", uint32Field fun p v => { p with handle := v }),
   ("anchor", fun p => do return { p with anchor := ← Anchor.read }),
   ("width", intField fun p v => { p with width := v }),
   ("height", intField fun p v => { p with height := v }),
   ("src_x", intField fun p v => { p with srcX := v }),
   ("src_y", intField fun p v => { p with srcY := v }),
   ("src_w", intField fun p v => { p with srcW := v }),
   ("src_h", intField fun p v => { p with srcH := v }),
   ("z_index", int32Field fun p v => { p with zIndex := v })]

def zero : PlaceParams := ⟨0, ⟨"", "", 0, 0, 0, 0⟩, 0, 0, 0, 0, 0, 0, 0⟩

end PlaceParams

namespace UnplaceParams

def fields : List (String × (UnplaceParams → ByteReader Unit UnplaceParams)) :=
  [("placement_id", uint32Field fun p v => { p with placementID := v })]

end UnplaceParams

namespace FreeParams

def fields : List (String × (FreeParams → ByteReader Unit FreeParams)) :=
  [("handle", uint32Field fun p v => { p with handle := v })]

end FreeParams

namespace RegisterWinParams

def fields : List (String × (RegisterWinParams → ByteReader Unit RegisterWinParams)) :=
  [("win_id", intField fun p v => { p with winID := v }),
   ("pane_id", stringField fun p v => { p with paneID := v }),
   ("top", intField fun p v => { p with top := v }),
   ("left", intField fun p v => { p with left := v }),
   ("width", intField fun p v => { p with width := v }),
   ("height", intField fun p v => { p with height := v }),
   ("scroll_top", intField fun p v => { p with scrollTop := v })]

def zero : RegisterWinParams := ⟨0, "", 0, 0, 0, 0, 0⟩

end RegisterWinParams

namespace UpdateScrollParams

def fields : List (String × (UpdateScrollParams → ByteReader Unit UpdateScrollParams)) :=
  [("win_id", intField fun p v => { p with winID := v }),
   ("scroll_top", intField fun p v => { p with scrollTop := v })]

end UpdateScrollParams

namespace UnregisterWinParams

def fields : List (String × (UnregisterWinParams → ByteReader Unit UnregisterWinParams)) :=
  [("win_id", intField fun p v => { p with winID := v })]

end UnregisterWinParams

/-- `Decode(&v)`, for a variable of each type. -/
def Target.read : (t : Target) → ByteReader Unit t.Var
  | .hello => readStruct (tagged HelloParams.fields) .zero
  | .upload => readStruct (tagged UploadParams.fields) .zero
  | .place => readStruct (tagged PlaceParams.fields) .zero
  | .unplace => readStruct (tagged UnplaceParams.fields) ⟨0⟩
  | .free => readStruct (tagged FreeParams.fields) ⟨0⟩
  | .registerWin => readStruct (tagged RegisterWinParams.fields) .zero
  | .updateScroll => readStruct (tagged UpdateScrollParams.fields) ⟨0, 0⟩
  | .unregisterWin => readStruct (tagged UnregisterWinParams.fields) ⟨0⟩
  -- a parameter nobody reads is skipped as a value
  | .ignored => skipValue

end Kgd
