import Kgd.ForStd.MsgpackBytes

/-!
# The Lua client: decoding messages

`msgpack_next` and `decode` of `clients/lua/kgd/protocol.lua`, and `Client:poll` of
`clients/lua/kgd/init.lua` up to `_dispatch`. Positions in a buffer start at 1, as in Lua.
-/

namespace Kgd

namespace LuaClient

open Msgpack

/-- `buf:byte(i)`. -/
def byte (buf : List UInt8) (i : Nat) : Nat := (buf[i - 1]?.getD 0).toNat

/-- `string.unpack(">I2", buf, i)` and `string.unpack(">I4", buf, i)`. -/
def stringUnpack (width : Nat) (buf : List UInt8) (i : Nat) : Nat :=
  bigEndian ((buf.drop (i - 1)).take width)

/-- `buf:sub(i, j)`. -/
def sub (buf : List UInt8) (i j : Nat) : List UInt8 := (buf.take j).drop (i - 1)

/-- `for _ = 1, n do pos = msgpack_next(buf, pos); if not pos then return nil end end`. -/
def nextTimes (next : Nat → Option Nat) : Nat → Nat → Option Nat
  | 0, pos => some pos
  | n + 1, pos =>
    match next pos with
    | none => none
    | some pos => nextTimes next n pos

/-- `msgpack_next` at a byte `b`; `next` is what it calls for the values in an array or a map. -/
def nextAt (next : Nat → Option Nat) (buf : List UInt8) (i b : Nat) : Option Nat :=
  if b ≤ 0x7f ∨ 0xe0 ≤ b then some (i + 1)
  else if 0x80 ≤ b ∧ b ≤ 0x8f then
    nextTimes next ((b - 0x80) * 2) (i + 1)
  else if 0x90 ≤ b ∧ b ≤ 0x9f then
    nextTimes next (b - 0x90) (i + 1)
  else if 0xa0 ≤ b ∧ b ≤ 0xbf then
    let pos := i + 1 + (b - 0xa0)
    if pos ≤ buf.length + 1 then some pos else none
  else if b = 0xc0 ∨ b = 0xc2 ∨ b = 0xc3 then some (i + 1)
  else if b = 0xc4 ∨ b = 0xd9 then
    if buf.length < i + 1 then none else some (i + 2 + byte buf (i + 1))
  else if b = 0xc5 ∨ b = 0xda then
    if buf.length < i + 2 then none else some (i + 3 + stringUnpack 2 buf (i + 1))
  else if b = 0xc6 ∨ b = 0xdb then
    if buf.length < i + 4 then none else some (i + 5 + stringUnpack 4 buf (i + 1))
  else if b = 0xcc ∨ b = 0xd0 then
    if i + 1 < buf.length then some (i + 2) else none
  else if b = 0xcd ∨ b = 0xd1 then
    if i + 2 ≤ buf.length then some (i + 3) else none
  else if b = 0xce ∨ b = 0xd2 ∨ b = 0xca then
    if i + 4 ≤ buf.length then some (i + 5) else none
  else if b = 0xcf ∨ b = 0xd3 ∨ b = 0xcb then
    if i + 8 ≤ buf.length then some (i + 9) else none
  else if b = 0xdc then
    if buf.length < i + 2 then none
    else nextTimes next (stringUnpack 2 buf (i + 1)) (i + 3)
  else if b = 0xdd then
    if buf.length < i + 4 then none
    else nextTimes next (stringUnpack 4 buf (i + 1)) (i + 5)
  else if b = 0xde then
    if buf.length < i + 2 then none
    else nextTimes next (stringUnpack 2 buf (i + 1) * 2) (i + 3)
  else if b = 0xdf then
    if buf.length < i + 4 then none
    else nextTimes next (stringUnpack 4 buf (i + 1) * 2) (i + 5)
  -- unknown or ext type: treated as incomplete
  else none

/-- `msgpack_next`; the fuel is more than the number of bytes from `i` on, past which nothing is
    called any more. -/
def msgpackNextFuel (buf : List UInt8) : Nat → Nat → Option Nat
  | 0, _ => none
  | fuel + 1, i =>
    if buf.length < i then none
    else nextAt (msgpackNextFuel buf fuel) buf i (byte buf i)

/-- `msgpack_next`: the position after the value at `i`. -/
def msgpackNext (buf : List UInt8) (i : Nat) : Option Nat :=
  msgpackNextFuel buf (buf.length + 1) i

/-- `mp.unpack` under `pcall`: none if it raises an error; a value is none if it is nil. -/
abbrev Unpack (V : Type) := List UInt8 → Option (Option V)

variable {V : Type}

/-- The loop of `decode`, for at most so many values: `messages`, to which a nil is not added,
    and `offset`. -/
def decodeLoop (unpack : Unpack V) (buf : List UInt8) : Nat → Nat → List V × Nat
  | 0, offset => ([], offset)
  | fuel + 1, offset =>
    if offset ≤ buf.length then
      match msgpackNext buf offset with
      -- the rest waits for the next read
      | none => ([], offset)
      | some nextPos =>
        match unpack (sub buf offset (nextPos - 1)) with
        | none => ([], offset)
        | some val =>
          let (messages, offset) := decodeLoop unpack buf fuel nextPos
          -- assigning a nil at the end of the table adds nothing
          (val.toList ++ messages, offset)
    else ([], offset)

/-- `decode`: the messages and the remainder. -/
def decode (unpack : Unpack V) (buf : List UInt8) : List V × List UInt8 :=
  let (messages, offset) := decodeLoop unpack buf buf.length 1
  (messages, if buf.length < offset then [] else sub buf offset buf.length)

/-- `_buf`, and the messages that were passed to `_dispatch` so far, oldest first. -/
structure Client (V : Type) where
  buf : List UInt8
  dispatched : List V

/-- `Client:poll` with the data it has received; no bytes if there was none. -/
def Client.poll (unpack : Unpack V) (c : Client V) (data : List UInt8) : Client V :=
  let buf := c.buf ++ data
  if 0 < buf.length then
    let (messages, remainder) := decode unpack buf
    { buf := remainder, dispatched := c.dispatched ++ messages }
  else { c with buf := buf }

/-- Polls that receive this data, one after the other. -/
def polls (unpack : Unpack V) (received : List (List UInt8)) : Client V :=
  received.foldl (Client.poll unpack) ⟨[], []⟩

end LuaClient

end Kgd
