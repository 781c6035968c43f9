import Kgd.ForStd.MsgpackFields
import Kgd.ForStd.MsgpackEncode
import Kgd.Daemon.Placement

/-!
# What the daemon reads of an anchor

A `protocol.Anchor` is decoded from a msgpack map by the struct tags of
`internal/protocol/types.go`: a key that is omitted leaves the zero value, a key that is no tag is
skipped.
-/

namespace Kgd

open Msgpack

/-- A Go string is a sequence of bytes; each is a character of the `String` that stands for it. -/
def goString (bytes : List UInt8) : String := String.ofList (bytes.map fun b => .ofNat b.toNat)

namespace Anchor

/-- A field of the struct. -/
inductive Tag
  | type
  | paneID
  | winID
  | bufLine
  | row
  | col
  deriving DecidableEq, Repr

/-- The struct tags. -/
def Tag.name : Tag → String
  | .type => "type"
  | .paneID => "pane_id"
  | .winID => "win_id"
  | .bufLine => "buf_line"
  | .row => "row"
  | .col => "col"

def Tag.ofName? (name : String) : Option Tag :=
  [type, paneID, winID, bufLine, row, col].find? (·.name == name)

/-- Decode a value into a field. -/
def setField (a : Anchor) : Tag → Scalar → Option Anchor
  | .type, .str s => some { a with type := goString s }
  | .paneID, .str s => some { a with paneID := goString s }
  | .winID, .int n => some { a with winID := .ofInt n }
  | .bufLine, .int n => some { a with bufLine := .ofInt n }
  | .row, .int n => some { a with row := .ofInt n }
  | .col, .int n => some { a with col := .ofInt n }
  -- a value of the wrong kind is an error of the whole record
  | .type, .int _ | .paneID, .int _ => none
  | .winID, .str _ | .bufLine, .str _ | .row, .str _ | .col, .str _ => none

/-- Decode an entry of the map. -/
def decodeEntry (a : Option Anchor) (field : Field) : Option Anchor :=
  match Tag.ofName? (goString field.1) with
  | none => a
  | some tag => a.bind fun a => a.setField tag field.2

/-- The entries in the order in which they were written, from the zero value. -/
def ofFields (fields : List Field) : Option Anchor :=
  fields.foldl decodeEntry (some ⟨"", "", 0, 0, 0, 0⟩)

/-- Decode an anchor. -/
def read : ByteReader Unit Anchor := do
  let fields ← readFields
  match ofFields fields with
  | some a => return a
  | none => throw ()

end Anchor

end Kgd
