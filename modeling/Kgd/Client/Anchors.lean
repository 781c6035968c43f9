import Kgd.ForStd.MsgpackEncode
import Kgd.ForStd.MsgpackFields
import Kgd.Client.OCaml
import Kgd.Client.ZigProtocol

/-!
# Anchors in the clients

`anchor_to_msgpack` of `clients/ocaml/lib/kgd_client.ml`, the anchor constructors of
`clients/lua/kgd/init.lua`, and `encodeAnchor` of `clients/zig/src/client.zig`. All of them leave
out zero values.
-/

namespace Kgd

open Msgpack

/-! ## OCaml -/

namespace OCamlClient

/-- `anchor`; an OCaml `int` has 63 bits. -/
inductive Anchor
  | absolute (row col : Int64)
  | tmuxPane (paneID : List UInt8) (row col : Int64)
  | nvimWin (winID : Int64) (paneID : List UInt8) (bufLine col : Int64)
  deriving DecidableEq, Repr

/-- `P.Str` of a literal. -/
def str (s : String) : T := .str (utf8 s)

/-- `if n <> 0 then pairs @ [ (P.Str key, P.Int n) ] else pairs`. -/
def addInt (pairs : List (T × T)) (key : String) (n : Int64) : List (T × T) :=
  if n ≠ 0 then pairs ++ [(str key, .int n.toInt)] else pairs

/-- `if s <> "" then pairs @ [ (P.Str key, P.Str s) ] else pairs`. -/
def addStr (pairs : List (T × T)) (key : String) (s : List UInt8) : List (T × T) :=
  if s ≠ [] then pairs ++ [(str key, .str s)] else pairs

/-- `anchor_to_msgpack`. -/
def anchorToMsgpack : Anchor → T
  | .absolute row col =>
    let pairs := [(str "type", str "absolute")]
    let pairs := addInt pairs "row" row
    let pairs := addInt pairs "col" col
    .map pairs
  | .tmuxPane paneID row col =>
    let pairs := [(str "type", str "tmux_pane")]
    let pairs := addStr pairs "pane_id" paneID
    let pairs := addInt pairs "row" row
    let pairs := addInt pairs "col" col
    .map pairs
  | .nvimWin winID paneID bufLine col =>
    let pairs := [(str "type", str "nvim_win")]
    let pairs := addStr pairs "pane_id" paneID
    let pairs := addInt pairs "win_id" winID
    let pairs := addInt pairs "buf_line" bufLine
    let pairs := addInt pairs "col" col
    .map pairs

end OCamlClient

/-! ## Lua -/

namespace LuaClient

/-- A call of an anchor constructor; an argument that is left out is nil. -/
inductive Anchor
  | absolute (row col : Option Int64)
  | pane (paneID : Option (List UInt8)) (row col : Option Int64)
  | win (winID bufLine col : Option Int64)
  deriving DecidableEq, Repr

/-- `if n and n ~= 0 then a.key = n end`. -/
def setInt (a : List Field) (key : String) : Option Int64 → List Field
  | some n => if n ≠ 0 then a ++ [(utf8 key, .int n.toInt)] else a
  | none => a

/-- `if s and s ~= "" then a.key = s end`. -/
def setStr (a : List Field) (key : String) : Option (List UInt8) → List Field
  | some s => if s ≠ [] then a ++ [(utf8 key, .str s)] else a
  | none => a

/-- The table that the constructor returns. -/
def Anchor.table : Anchor → List Field
  | .absolute row col =>
    let a := [(utf8 "type", .str (utf8 "absolute"))]
    let a := setInt a "row" row
    setInt a "col" col
  | .pane paneID row col =>
    let a := [(utf8 "type", .str (utf8 "pane"))]
    let a := setStr a "pane_id" paneID
    let a := setInt a "row" row
    setInt a "col" col
  | .win winID bufLine col =>
    let a := [(utf8 "type", .str (utf8 "win"))]
    let a := setInt a "win_id" winID
    let a := setInt a "buf_line" bufLine
    setInt a "col" col

end LuaClient

/-! ## Zig -/

namespace ZigClient

/-- `AnchorType`. -/
inductive AnchorType
  | absolute
  | pane
  | nvimWin
  deriving DecidableEq, Repr

/-- `AnchorType.toString`. -/
def AnchorType.toString : AnchorType → String
  | .absolute => "absolute"
  | .pane => "pane"
  | .nvimWin => "nvim_win"

/-- `Anchor`. -/
structure Anchor where
  type : AnchorType
  paneID : List UInt8
  winID : Int32
  bufLine : Int32
  row : Int32
  col : Int32
  deriving DecidableEq, Repr

/-- `Anchor.mapCount`. -/
def Anchor.mapCount (a : Anchor) : Nat :=
  let count := 1
  let count := if 0 < a.paneID.length then count + 1 else count
  let count := if a.winID ≠ 0 then count + 1 else count
  let count := if a.bufLine ≠ 0 then count + 1 else count
  let count := if a.row ≠ 0 then count + 1 else count
  if a.col ≠ 0 then count + 1 else count

/-- `if (n != 0) { try enc.writeStr(key); try enc.writeInt(n); }`. -/
def writeIntField (key : String) (n : Int32) : List UInt8 :=
  if n ≠ 0 then writeStr (utf8 key) ++ writeInt n.toInt else []

/-- `encodeAnchor`. -/
def encodeAnchor (a : Anchor) : List UInt8 :=
  writeMapHeader a.mapCount ++
    (writeStr (utf8 "type") ++ writeStr (utf8 a.type.toString)) ++
    (if 0 < a.paneID.length then writeStr (utf8 "pane_id") ++ writeStr a.paneID else []) ++
    writeIntField "win_id" a.winID ++ writeIntField "buf_line" a.bufLine ++
    writeIntField "row" a.row ++ writeIntField "col" a.col

end ZigClient

end Kgd
