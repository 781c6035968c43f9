import Kgd.ForStd.StickyReader
import Kgd.ForStd.MsgpackEncode
import Kgd.ForStd.MsgpackFields

/-!
# The C client: the reader of mpack

What `clients/c/kgd.c` uses of the tag and expect functions of `clients/c/mpack.c`, for a reader
over a message in memory. The library is built without extension types; the tracking of
`mpack_done_array` and its kin is a matter of debug builds.
-/

namespace Kgd

namespace Mpack

open Msgpack (utf8 readByte readNat readInt readSlice)

/-- `mpack_tag_t`; of floating-point numbers only the bytes. -/
inductive Tag
  | nil
  | bool (v : Bool)
  | uint (v : Nat)
  | int (v : Int)
  | float (v : Nat)
  | double (v : Nat)
  | str (l : Nat)
  | bin (l : Nat)
  | array (n : Nat)
  | map (n : Nat)
  deriving DecidableEq

/-- The switch of `mpack_parse_tag`. -/
def parseType (type : Nat) : ByteReader Unit Tag :=
  if type < 0x80 then return .uint type
  else if 0xe0 ≤ type then return .int (type - 256)
  else if type < 0x90 then return .map (type - 0x80)
  else if type < 0xa0 then return .array (type - 0x90)
  else if type < 0xc0 then return .str (type - 0xa0)
  else match type with
    | 0xc0 => return .nil
    | 0xc2 => return .bool false
    | 0xc3 => return .bool true
    | 0xc4 => return .bin (← readNat 1)
    | 0xc5 => return .bin (← readNat 2)
    | 0xc6 => return .bin (← readNat 4)
    | 0xca => return .float (← readNat 4)
    | 0xcb => return .double (← readNat 8)
    | 0xcc => return .uint (← readNat 1)
    | 0xcd => return .uint (← readNat 2)
    | 0xce => return .uint (← readNat 4)
    | 0xcf => return .uint (← readNat 8)
    | 0xd0 => return .int (← readInt 1)
    | 0xd1 => return .int (← readInt 2)
    | 0xd2 => return .int (← readInt 4)
    | 0xd3 => return .int (← readInt 8)
    | 0xd9 => return .str (← readNat 1)
    | 0xda => return .str (← readNat 2)
    | 0xdb => return .str (← readNat 4)
    | 0xdc => return .array (← readNat 2)
    | 0xdd => return .array (← readNat 4)
    | 0xde => return .map (← readNat 2)
    | 0xdf => return .map (← readNat 4)
    -- reserved, ext, fixext
    | _ => throw ()

/-- `mpack_parse_tag`. -/
def parseTag : ByteReader Unit Tag := do
  let type ← readByte
  parseType type.toNat

/-- A program over an `mpack_reader_t`. -/
abbrev Expect := StickyReader (List UInt8)

/-- `mpack_read_tag`. -/
def readTag : Expect Tag := .ofParse parseTag .nil

/-! ## Discarding -/

/-- The loops of `mpack_discard`. -/
def times (body : ByteReader Unit Unit) : Nat → ByteReader Unit Unit
  | 0 => return
  | n + 1 => do
    body
    times body n

/-- `mpack_discard` past the tag; `discard` is what it calls for the values in an array or a
    map. -/
def discardRest (discard : ByteReader Unit Unit) : Tag → ByteReader Unit Unit
  | .str l | .bin l => do
    let _ ← readSlice l
    return
  | .array n => times discard n
  | .map n => times (do discard; discard) n
  | _ => return

/-- `mpack_discard`, of at most so many bytes: every call reads a byte before it makes another. -/
def discardFuel : Nat → ByteReader Unit Unit
  | 0 => throw ()
  | fuel + 1 => do
    let tag ← parseTag
    discardRest (discardFuel fuel) tag

def discardValue : ByteReader Unit Unit := fun buf => discardFuel buf.length buf

/-- `mpack_discard`. -/
def discard : Expect Unit := .ofParse discardValue ()

/-! ## Expecting -/

/-- A tag that is expected, and what is made of it; the value of a failure is `zero`. -/
def expectTag {α : Type} (accept : Tag → Option α) (zero : α) : Expect α :=
  .ofParse (do
    match accept (← parseTag) with
    | some a => return a
    | none => throw ()) zero

/-- `mpack_expect_u32`. -/
def expectU32 : Expect UInt32 :=
  expectTag (fun
    | .uint v => if v ≤ 0xffffffff then some (.ofNat v) else none
    | .int v => if 0 ≤ v ∧ v ≤ 0xffffffff then some (.ofNat v.toNat) else none
    | _ => none) 0

/-- `mpack_expect_int`, which is `mpack_expect_i32`. -/
def expectInt : Expect Int32 :=
  expectTag (fun
    | .uint v => if v ≤ 0x7fffffff then some (.ofInt v) else none
    | .int v => if -0x80000000 ≤ v ∧ v ≤ 0x7fffffff then some (.ofInt v) else none
    | _ => none) 0

/-- `mpack_expect_bool`, which returns the lowest bit of a type byte of any kind. -/
def expectBool : Expect Bool where
  run
    | none | some [] => (false, none)
    | some (type :: rest) =>
      (type.toNat % 2 = 1, if type = 0xc2 ∨ type = 0xc3 then some rest else none)
  run_none := rfl

/-- `mpack_expect_map_max`. -/
def expectMapMax (maxCount : Nat) : Expect Nat :=
  expectTag (fun
    | .map n => if n ≤ maxCount then some n else none
    | _ => none) 0

/-- `mpack_expect_array_max`. -/
def expectArrayMax (maxCount : Nat) : Expect Nat :=
  expectTag (fun
    | .array n => if n ≤ maxCount then some n else none
    | _ => none) 0

/-- What a buffer of so many bytes holds before the null byte. -/
structure CString (size : Nat) where
  bytes : List UInt8
  fits : bytes.length < size ∧ 0 ∉ bytes
  deriving DecidableEq

/-- An empty buffer. -/
def CString.empty (size : Nat) [h : NeZero size] : CString size :=
  ⟨[], Nat.pos_of_ne_zero h.out, List.not_mem_nil⟩

-- the buffers of the library
scoped instance neZero_key : NeZero 32 := ⟨by decide⟩
scoped instance neZero_name : NeZero 64 := ⟨by decide⟩
scoped instance neZero_message : NeZero 256 := ⟨by decide⟩

/-- A string of the buffer's size. -/
def parseCstr (size : Nat) : ByteReader Unit (CString size) := do
  match ← parseTag with
  | .str l =>
    let bytes ← readSlice l
    if h : bytes.length < size ∧ 0 ∉ bytes then return ⟨bytes, h⟩ else throw ()
  | _ => throw ()

/-- `mpack_expect_cstr`. -/
def expectCstr (size : Nat) [NeZero size] : Expect (CString size) :=
  .ofParse (parseCstr size) (.empty size)

/-- A key that is a string: its number among the keys, or their count. The key must not have been
    found before. -/
def parseKeyStr (keys : List (List UInt8)) (found : List Nat) : ByteReader Unit Nat := do
  match ← parseTag with
  | .str keylen =>
    let key ← readSlice keylen
    let i := keys.idxOf key
    -- a key that comes twice is an error; an unknown one has the index past the list
    if i ∈ found then throw () else return i
  | _ => throw ()

/-- `mpack_expect_key_cstr`, with the numbers of the keys that have been found. -/
def expectKeyCstr (keys : List (List UInt8)) (found : List Nat) : Expect Nat :=
  .ofParse (fun buf =>
    match parseTag buf with
    | .ok (.str _, _) => parseKeyStr keys found buf
    -- the key is only recognized if it is a string
    | _ => (do discardValue; return keys.length) buf) keys.length

/-! ## The fields of a map -/

/-- The keys that a loop over the entries of a map knows, and what it does at each. -/
abbrev Fields (α : Type) := List (String × (α → Expect α))

def Fields.keys {α : Type} (fields : Fields α) : List (List UInt8) :=
  fields.map fun field => utf8 field.1

/-- The switch on the key: the value of a key that is not known is discarded. -/
def readEntry {α : Type} (fields : Fields α) (r : List Nat × α) : Expect (List Nat × α) := do
  let i ← expectKeyCstr fields.keys r.1
  match fields[i]? with
  | some (_, field) =>
    let a ← field r.2
    return (i :: r.1, a)
  | none =>
    discard
    return r

/-- The loop over the entries of a map. -/
def readFields {α : Type} (maxCount : Nat) (fields : Fields α) (a : α) : Expect α := do
  let nkeys ← expectMapMax maxCount
  let r ← StickyReader.repeatOk (readEntry fields) nkeys ([], a)
  return r.2

end Mpack

end Kgd
