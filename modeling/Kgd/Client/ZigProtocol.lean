import Kgd.ForStd.ByteReader

/-!
# The Zig client: codec and reader

`Encoder` and `Decoder` of `clients/zig/src/protocol.zig`, and `readLoop` of
`clients/zig/src/client.zig` up to `processMessage`. What the encoder appends to its buffer is a
list of bytes; the decoder has what lies from `pos` on.
-/

namespace Kgd

namespace ZigClient

open Msgpack

/-! ## Encoder -/

/-- `appendBe16`. -/
def appendBe16 (v : Nat) : List UInt8 := beBytes 2 v

/-- `appendBe32`. -/
def appendBe32 (v : Nat) : List UInt8 := beBytes 4 v

def writeNil : List UInt8 := [0xc0]

def writeBool (v : Bool) : List UInt8 := [if v then 0xc3 else 0xc2]

/-- `writeUint`, of a value that fits in 32 bits: the last `@intCast` checks it. -/
def writeUint (v : Nat) : List UInt8 :=
  if v ≤ 0x7f then [.ofNat v]
  else if v ≤ 0xff then [0xcc, .ofNat v]
  else if v ≤ 0xffff then 0xcd :: appendBe16 v
  else 0xce :: appendBe32 v

/-- `writeInt`, of a value that fits in 32 bits; `@bitCast` of a negative value adds the range of
    its type. -/
def writeInt (v : Int) : List UInt8 :=
  if 0 ≤ v then writeUint v.toNat
  else if -32 ≤ v then [.ofNat (v + 0x100).toNat]
  else if -128 ≤ v then [0xd0, .ofNat (v + 0x100).toNat]
  else if -32768 ≤ v then 0xd1 :: appendBe16 (v + 0x10000).toNat
  else 0xd2 :: appendBe32 (v + 0x100000000).toNat

def writeStr (s : List UInt8) : List UInt8 :=
  let len := s.length
  (if len ≤ 31 then [0xa0 ||| .ofNat len]
    else if len ≤ 0xff then [0xd9, .ofNat len]
    else if len ≤ 0xffff then 0xda :: appendBe16 len
    else 0xdb :: appendBe32 len) ++ s

def writeBin (data : List UInt8) : List UInt8 :=
  let len := data.length
  (if len ≤ 0xff then [0xc4, .ofNat len]
    else if len ≤ 0xffff then 0xc5 :: appendBe16 len
    else 0xc6 :: appendBe32 len) ++ data

/-- `writeArrayHeader`, of a count that fits in 16 bits: `@intCast` checks it. -/
def writeArrayHeader (count : Nat) : List UInt8 :=
  if count ≤ 15 then [0x90 ||| .ofNat count] else 0xdc :: appendBe16 count

/-- `writeMapHeader`, of a count that fits in 16 bits: `@intCast` checks it. -/
def writeMapHeader (count : Nat) : List UInt8 :=
  if count ≤ 15 then [0x80 ||| .ofNat count] else 0xde :: appendBe16 count

/-! ## Decoder -/

/-- `DecodeError`. -/
inductive DecodeError
  | unexpectedEof | invalidFormat | overflow
  deriving DecidableEq

/-- A decoded msgpack value; of an array and a map, the number of elements and of entries. -/
inductive Value
  | nil
  | boolean (b : Bool)
  | uint (u : Nat)
  | int (i : Int)
  | str (s : List UInt8)
  | bin (data : List UInt8)
  | array (count : Nat)
  | map (count : Nat)
  deriving DecidableEq

/-- A method of `Decoder`. -/
abbrev Decoder := ByteReader DecodeError

def readByte : Decoder Nat
  | b :: data => .ok (b.toNat, data)
  | [] => .error .unexpectedEof

def readSlice (len : Nat) : Decoder (List UInt8) := fun data =>
  if data.length < len then .error .unexpectedEof else .ok (data.take len, data.drop len)

def readU16 : Decoder Nat := do
  let s ← readSlice 2
  return bigEndian s

def readU32 : Decoder Nat := do
  let s ← readSlice 4
  return bigEndian s

/-- `@bitCast` to the signed type of as many bits. -/
def bitCast (bits v : Nat) : Int := if v < 2 ^ (bits - 1) then v else v - (2 ^ bits : Nat)

/-- `read` past the first byte. -/
def readTag (b : Nat) : Decoder Value :=
  if b ≤ 0x7f then return .uint b
  else if 0xe0 ≤ b then return .int (bitCast 8 b)
  else if b &&& 0xf0 = 0x80 then return .map (b &&& 0x0f)
  else if b &&& 0xf0 = 0x90 then return .array (b &&& 0x0f)
  else if b &&& 0xe0 = 0xa0 then do
    let len := b &&& 0x1f
    let s ← readSlice len
    return .str s
  -- the fix forms are done; floats and 64-bit integers are among the invalid
  else match b with
    | 0xc0 => return .nil
    | 0xc2 => return .boolean false
    | 0xc3 => return .boolean true
    | 0xc4 => do
      let len ← readByte
      return .bin (← readSlice len)
    | 0xc5 => do
      let len ← readU16
      return .bin (← readSlice len)
    | 0xc6 => do
      let len ← readU32
      return .bin (← readSlice len)
    | 0xcc => return .uint (← readByte)
    | 0xcd => return .uint (← readU16)
    | 0xce => return .uint (← readU32)
    | 0xd0 => return .int (bitCast 8 (← readByte))
    | 0xd1 => return .int (bitCast 16 (← readU16))
    | 0xd2 => return .int (bitCast 32 (← readU32))
    | 0xd9 => do
      let len ← readByte
      return .str (← readSlice len)
    | 0xda => do
      let len ← readU16
      return .str (← readSlice len)
    | 0xdb => do
      let len ← readU32
      return .str (← readSlice len)
    | 0xdc => return .array (← readU16)
    | 0xdd => return .array (← readU32)
    | 0xde => return .map (← readU16)
    | 0xdf => return .map (← readU32)
    | _ => throw .invalidFormat

/-- Read the next value. -/
def read : Decoder Value := do
  let b ← readByte
  readTag b

/-- Read a value and expect it to be a signed integer (accepts uint too). -/
def readInt : Decoder Int := do
  match ← read with
  | .int i => return i
  | .uint u => if u ≤ 0x7fffffffffffffff then return u else throw .overflow
  | _ => throw .invalidFormat

/-- `while (i < n) : (i += 1)`, with what is left to do. -/
def times (body : Decoder Unit) : Nat → Decoder Unit
  | 0 => return
  | n + 1 => do
    body
    times body n

/-- `skip` past the value that was read; `skip` is what it calls for the values in an array or a
    map. -/
def skipRest (skip : Decoder Unit) : Value → Decoder Unit
  | .array n => times skip n
  | .map n => times (do skip; skip) n
  | _ => return

/-- `skip`, of a buffer of at most so many bytes: every call reads a byte before it makes
    another. -/
def skipFuel : Nat → Decoder Unit
  | 0 => throw .unexpectedEof
  | fuel + 1 => do
    let v ← read
    skipRest (skipFuel fuel) v

/-- The byte length consumed, or `none` if the buffer is incomplete. -/
def tryMeasure (data : List UInt8) : Option Nat :=
  match skipFuel data.length data with
  | .ok (_, rest) => some (data.length - rest.length)
  | .error _ => none

/-! ## Reading messages -/

/-- The inner loop of `readLoop`, for at most so many messages: what it hands to `processMessage`,
    and what is left of `recv_buf`. -/
def processMessages : Nat → List UInt8 → List (List UInt8) × List UInt8
  | 0, recvBuf => ([], recvBuf)
  | fuel + 1, recvBuf =>
    if 0 < recvBuf.length then
      match tryMeasure recvBuf with
      -- not measurable yet, or never: the bytes stay
      | none => ([], recvBuf)
      | some msgLen =>
        let (messages, left) := processMessages fuel (recvBuf.drop msgLen)
        (recvBuf.take msgLen :: messages, left)
    else ([], recvBuf)

/-- `recv_buf`, what was handed to `processMessage` so far, oldest first, and whether the loop
    has ended. -/
structure ReadLoop where
  recvBuf : List UInt8
  processed : List (List UInt8)
  ended : Bool

/-- One round of `readLoop`; a read of no bytes is the end of the stream. -/
def ReadLoop.read (s : ReadLoop) (bytes : List UInt8) : ReadLoop :=
  if s.ended then s
  -- an empty read is the end of the stream
  else if bytes.length = 0 then { s with ended := true }
  else
    let recvBuf := s.recvBuf ++ bytes
    let (messages, left) := processMessages recvBuf.length recvBuf
    { s with recvBuf := left, processed := s.processed ++ messages }

/-- `readLoop`, over what `read` returns. -/
def readLoop (reads : List (List UInt8)) : ReadLoop := reads.foldl ReadLoop.read ⟨[], [], false⟩

end ZigClient

end Kgd
