import Kgd.Client.C
import Kgd.Client.Mpack
import Kgd.Daemon.Protocol

/-!
# The C client: results

What `kgd_connect`, `kgd_upload`, `kgd_place`, `kgd_list` and `kgd_status` of `clients/c/kgd.c`
make of the result that `do_call` returns. None of them looks at the error of its reader in the
end.
-/

namespace Kgd

namespace CClient

open Mpack

/-! ## hello -/

/-- `kgd_hello_result`. -/
structure HelloOutput where
  clientID : CString 64
  cols : Int32
  rows : Int32
  cellWidth : Int32
  cellHeight : Int32
  inTmux : Bool
  fg : Color
  bg : Color
  deriving DecidableEq

/-- After `calloc`. -/
def HelloOutput.blank : HelloOutput := ⟨.empty 64, 0, 0, 0, 0, false, ⟨0, 0, 0⟩, ⟨0, 0, 0⟩⟩

def helloFields : Fields HelloOutput := [
  ("client_id", fun h => return { h with clientID := ← expectCstr 64 }),
  ("cols", fun h => return { h with cols := ← expectInt }),
  ("rows", fun h => return { h with rows := ← expectInt }),
  ("cell_width", fun h => return { h with cellWidth := ← expectInt }),
  ("cell_height", fun h => return { h with cellHeight := ← expectInt }),
  ("in_tmux", fun h => return { h with inTmux := ← expectBool })]

/-- `kgd_connect` from the response on, and `kgd_get_hello`. -/
def kgdConnect (result : Except Error Output) : Except Error HelloOutput :=
  result.map fun resp => ((readFields 32 helloFields .blank).run (some resp.bytes)).1

/-! ## upload and place -/

/-- What is assigned at the one key, if anything is. -/
def idFields (key : String) : Fields (Option UInt32) := [(key, fun _ => return some (← expectU32))]

def expectID (key : String) (resp : Output) : Option UInt32 :=
  ((readFields 32 (idFields key) none).run (some resp.bytes)).1

/-! ## list -/

/-- `kgd_placement_info`. -/
structure PlacementOutput where
  placementID : UInt32
  clientID : CString 64
  handle : UInt32
  visible : Bool
  row : Int32
  col : Int32
  deriving DecidableEq

/-- An element of the array after `calloc`. -/
def PlacementOutput.blank : PlacementOutput := ⟨0, .empty 64, 0, false, 0, 0⟩

def placementFields : Fields PlacementOutput := [
  ("placement_id", fun p => return { p with placementID := ← expectU32 }),
  ("client_id", fun p => return { p with clientID := ← expectCstr 64 }),
  ("handle", fun p => return { p with handle := ← expectU32 }),
  ("visible", fun p => return { p with visible := ← expectBool }),
  ("row", fun p => return { p with row := ← expectInt }),
  ("col", fun p => return { p with col := ← expectInt })]

/-- One round of the loop over the elements: the index, and the array. -/
def readElement (r : Nat × List PlacementOutput) : Expect (Nat × List PlacementOutput) := do
  let p ← readFields 32 placementFields .blank
  return (r.1 + 1, r.2.set r.1 p)

/-- What is done at the key "placements"; the array is allocated or not. -/
def readPlacements (allocated : Bool) (out : Except Error (List PlacementOutput)) :
    Expect (Except Error (List PlacementOutput)) := do
  let arrCount ← expectArrayMax 4096
  -- so it is after an error
  if arrCount = 0 then return out
  else if allocated then
    let r ← StickyReader.repeatOk readElement arrCount (0, List.replicate arrCount .blank)
    return .ok r.2
  else return .error .nomem

def listFields (allocated : Bool) : Fields (Except Error (List PlacementOutput)) :=
  [("placements", readPlacements allocated)]

/-- `kgd_list` from the response on: the array, whose length is in `*out_count`. -/
def kgdList (allocated : Bool) (result : Except Error Output) :
    Except Error (List PlacementOutput) :=
  result.bind fun resp =>
    ((readFields 32 (listFields allocated) (.ok [])).run (some resp.bytes)).1

/-! ## status -/

/-- `kgd_status_result`. -/
structure StatusOutput where
  clients : Int32
  placements : Int32
  images : Int32
  cols : Int32
  rows : Int32
  deriving DecidableEq

/-- After `memset`. -/
def StatusOutput.blank : StatusOutput := ⟨0, 0, 0, 0, 0⟩

def statusFields : Fields StatusOutput := [
  ("clients", fun s => return { s with clients := ← expectInt }),
  ("placements", fun s => return { s with placements := ← expectInt }),
  ("images", fun s => return { s with images := ← expectInt }),
  ("cols", fun s => return { s with cols := ← expectInt }),
  ("rows", fun s => return { s with rows := ← expectInt })]

/-- `kgd_status` from the response on. -/
def kgdStatus (result : Except Error Output) : Except Error StatusOutput :=
  result.map fun resp => ((readFields 32 statusFields .blank).run (some resp.bytes)).1

end CClient

end Kgd
