import Kgd.ForStd.ByteReader

/-!
# The OCaml client: codec and reader

`clients/ocaml/lib/protocol.ml`, and `read_loop` of `clients/ocaml/lib/kgd_client.ml` up to the
handlers of a message. A buffer that is written is the bytes added to it; a buffer that is read
at an offset is what lies from there on. Strings and `bytes` are lists of bytes.
-/

namespace Kgd

namespace OCamlClient

/-- `Protocol.t`. -/
inductive T
  | nil
  | bool (b : Bool)
  | int (n : Int)
  | str (s : List UInt8)
  | bin (b : List UInt8)
  | array (elts : List T)
  | map (pairs : List (T × T))

/-! ## Encoding -/

/-- `buf_add_uint8`. -/
def bufAddUint8 (v : Nat) : List UInt8 := [.ofNat v]

/-- `buf_add_uint16_be`. -/
def bufAddUint16BE (v : Nat) : List UInt8 := [.ofNat (v >>> 8), .ofNat v]

/-- `buf_add_uint32_be`. -/
def bufAddUint32BE (v : Nat) : List UInt8 :=
  [.ofNat (v >>> 24), .ofNat (v >>> 16), .ofNat (v >>> 8), .ofNat v]

/-- `encode_int`; `n land 0xff` of a negative `n` is `n % 256`. -/
def encodeInt (n : Int) : List UInt8 :=
  if 0 ≤ n then
    if n ≤ 0x7f then bufAddUint8 n.toNat
    else if n ≤ 0xff then bufAddUint8 0xcc ++ bufAddUint8 n.toNat
    else if n ≤ 0xffff then bufAddUint8 0xcd ++ bufAddUint16BE n.toNat
    -- there is no 64-bit form: the low 32 bits are written
    else bufAddUint8 0xce ++ bufAddUint32BE n.toNat
  else
    if -32 ≤ n then bufAddUint8 (n % 0x100).toNat
    else if -128 ≤ n then bufAddUint8 0xd0 ++ bufAddUint8 (n % 0x100).toNat
    else if -32768 ≤ n then bufAddUint8 0xd1 ++ bufAddUint16BE (n % 0x10000).toNat
    else bufAddUint8 0xd2 ++ bufAddUint32BE (n % 0x100000000).toNat

/-- `encode_str`. -/
def encodeStr (s : List UInt8) : List UInt8 :=
  let len := s.length
  (if len ≤ 31 then bufAddUint8 (0xa0 ||| len)
    else if len ≤ 0xff then bufAddUint8 0xd9 ++ bufAddUint8 len
    else if len ≤ 0xffff then bufAddUint8 0xda ++ bufAddUint16BE len
    else bufAddUint8 0xdb ++ bufAddUint32BE len) ++ s

/-- `encode_bin`. -/
def encodeBin (b : List UInt8) : List UInt8 :=
  let len := b.length
  (if len ≤ 0xff then bufAddUint8 0xc4 ++ bufAddUint8 len
    else if len ≤ 0xffff then bufAddUint8 0xc5 ++ bufAddUint16BE len
    else bufAddUint8 0xc6 ++ bufAddUint32BE len) ++ b

/-- `encode_array_header`. -/
def encodeArrayHeader (len : Nat) : List UInt8 :=
  if len ≤ 15 then bufAddUint8 (0x90 ||| len)
  else if len ≤ 0xffff then bufAddUint8 0xdc ++ bufAddUint16BE len
  else bufAddUint8 0xdd ++ bufAddUint32BE len

/-- `encode_map_header`. -/
def encodeMapHeader (len : Nat) : List UInt8 :=
  if len ≤ 15 then bufAddUint8 (0x80 ||| len)
  else if len ≤ 0xffff then bufAddUint8 0xde ++ bufAddUint16BE len
  else bufAddUint8 0xdf ++ bufAddUint32BE len

mutual

/-- `encode`. -/
def encode : T → List UInt8
  | .nil => bufAddUint8 0xc0
  | .bool true => bufAddUint8 0xc3
  | .bool false => bufAddUint8 0xc2
  | .int n => encodeInt n
  | .str s => encodeStr s
  | .bin b => encodeBin b
  | .array elts => encodeArrayHeader elts.length ++ encodeElts elts
  | .map pairs => encodeMapHeader pairs.length ++ encodePairs pairs

/-- `List.iter` over the elements of an array. -/
def encodeElts : List T → List UInt8
  | [] => []
  | elt :: elts => encode elt ++ encodeElts elts

/-- `List.iter` over the pairs of a map. -/
def encodePairs : List (T × T) → List UInt8
  | [] => []
  | (k, v) :: pairs => encode k ++ encode v ++ encodePairs pairs

end

/-! ## Decoding -/

/-- The argument of `failwith`. -/
inductive Failure
  /-- "msgpack: unexpected end of input" -/
  | endOfInput
  /-- "msgpack: unsupported format byte 0x%02x" -/
  | unsupported (tag : Nat)
  deriving DecidableEq

/-- Reading from a buffer at an offset. -/
abbrev Reader := ByteReader Failure

/-- `get_uint8`. -/
def getUint8 : Reader Nat
  | b :: buf => .ok (b.toNat, buf)
  | [] => .error .endOfInput

/-- `get_uint16_be`. -/
def getUint16BE : Reader Nat
  | b₀ :: b₁ :: buf => .ok ((b₀.toNat <<< 8) ||| b₁.toNat, buf)
  | _ => .error .endOfInput

/-- `get_uint32_be`. -/
def getUint32BE : Reader Nat
  | b₀ :: b₁ :: b₂ :: b₃ :: buf =>
    .ok ((b₀.toNat <<< 24) ||| (b₁.toNat <<< 16) ||| (b₂.toNat <<< 8) ||| b₃.toNat, buf)
  | _ => .error .endOfInput

/-- `get_int8`. -/
def getInt8 : Reader Int := do
  let v ← getUint8
  return if 128 ≤ v then v - 256 else v

/-- `get_int16_be`. -/
def getInt16BE : Reader Int := do
  let v ← getUint16BE
  return if 32768 ≤ v then v - 65536 else v

/-- `get_int32_be`. -/
def getInt32BE : Reader Int := do
  let v ← getUint32BE
  return if 0x7fffffff < v then v - (1 <<< 32 : Nat) else v

/-- `get_bytes`, and `get_string`, which does the same. -/
def getBytes (len : Nat) : Reader (List UInt8) := fun buf =>
  if buf.length < len then .error .endOfInput else .ok (buf.take len, buf.drop len)

/-- The loop of `decode_array`. -/
def arrayLoop (decode : Reader T) : List T → Nat → Reader T
  | acc, 0 => return .array acc.reverse
  | acc, remaining + 1 => do
    let v ← decode
    arrayLoop decode (v :: acc) remaining

/-- `decode_array`. -/
def decodeArray (decode : Reader T) (len : Nat) : Reader T := arrayLoop decode [] len

/-- The loop of `decode_map`. -/
def mapLoop (decode : Reader T) : List (T × T) → Nat → Reader T
  | acc, 0 => return .map acc.reverse
  | acc, remaining + 1 => do
    let k ← decode
    let v ← decode
    mapLoop decode ((k, v) :: acc) remaining

/-- `decode_map`. -/
def decodeMap (decode : Reader T) (len : Nat) : Reader T := mapLoop decode [] len

/-- `decode` past the tag; `decode` is what it calls for the elements of an array or a map. -/
def decodeTag (decode : Reader T) (tag : Nat) : Reader T :=
  if tag ≤ 0x7f then return .int tag
  else if 0xe0 ≤ tag then return .int (tag - 256)
  else if 0xa0 ≤ tag ∧ tag ≤ 0xbf then do
    let len := tag &&& 0x1f
    return .str (← getBytes len)
  else if 0x90 ≤ tag ∧ tag ≤ 0x9f then
    let len := tag &&& 0x0f
    decodeArray decode len
  else if 0x80 ≤ tag ∧ tag ≤ 0x8f then
    let len := tag &&& 0x0f
    decodeMap decode len
  -- the fix forms are done; 64-bit integers and floats are among the unsupported
  else match tag with
    | 0xc0 => return .nil
    | 0xc2 => return .bool false
    | 0xc3 => return .bool true
    | 0xc4 => do
      let len ← getUint8
      return .bin (← getBytes len)
    | 0xc5 => do
      let len ← getUint16BE
      return .bin (← getBytes len)
    | 0xc6 => do
      let len ← getUint32BE
      return .bin (← getBytes len)
    | 0xcc => return .int (← getUint8)
    | 0xcd => return .int (← getUint16BE)
    | 0xce => return .int (← getUint32BE)
    | 0xd0 => return .int (← getInt8)
    | 0xd1 => return .int (← getInt16BE)
    | 0xd2 => return .int (← getInt32BE)
    | 0xd9 => do
      let len ← getUint8
      return .str (← getBytes len)
    | 0xda => do
      let len ← getUint16BE
      return .str (← getBytes len)
    | 0xdb => do
      let len ← getUint32BE
      return .str (← getBytes len)
    | 0xdc => do
      let len ← getUint16BE
      decodeArray decode len
    | 0xdd => do
      let len ← getUint32BE
      decodeArray decode len
    | 0xde => do
      let len ← getUint16BE
      decodeMap decode len
    | 0xdf => do
      let len ← getUint32BE
      decodeMap decode len
    | _ => throw (.unsupported tag)

/-- `decode`, of a buffer of at most so many bytes: every call reads a tag before it makes
    another. -/
def decodeFuel : Nat → Reader T
  | 0 => throw .endOfInput
  | fuel + 1 => do
    let tag ← getUint8
    decodeTag (decodeFuel fuel) tag

/-- `decode buf ofs`: the value and the offset of what follows it. -/
def decode (buf : List UInt8) (ofs : Nat) : Except Failure (T × Nat) :=
  match decodeFuel (buf.drop ofs).length (buf.drop ofs) with
  | .ok (v, rest) => .ok (v, buf.length - rest.length)
  | .error e => .error e

/-! ## Reading messages -/

/-- `to_list`. -/
def toList : T → List T
  | .array l => l
  | .nil | .bool _ | .int _ | .str _ | .bin _ | .map _ => []

/-- What `read_loop` calls with a message. -/
inductive Handler
  | handleResponse
  | handleNotification
  /-- nothing -/
  | ignore
  deriving DecidableEq

/-- The match on the elements of a message. -/
def handler (msg : T) : Handler :=
  match toList msg with
  | .int typ :: _ =>
    if typ = 1 then .handleResponse else if typ = 2 then .handleNotification else .ignore
  | _ => .ignore

/-- `decode_loop`, for at most so many messages: the messages with their handlers, and the
    offset where it stops. -/
def decodeLoop (data : List UInt8) : Nat → Nat → List (T × Handler) × Nat
  | 0, ofs => ([], ofs)
  | fuel + 1, ofs =>
    if data.length ≤ ofs then ([], ofs)
    else match decode data ofs with
      | .ok (msg, next) =>
        let (msgs, consumed) := decodeLoop data fuel next
        ((msg, handler msg) :: msgs, consumed)
      -- short input and an unknown code alike raise `Failure`, which keeps the bytes
      | .error _ => ([], ofs)

/-- `accum`, the messages handled so far, oldest first, and `done_`. -/
structure ReadLoop where
  accum : List UInt8
  handled : List (T × Handler)
  done : Bool

/-- One round of `read_loop`; a read of no bytes is the end of the stream. -/
def ReadLoop.read (s : ReadLoop) (bytes : List UInt8) : ReadLoop :=
  if s.done then s
  -- an empty read is the end of the stream
  else if bytes.length = 0 then { s with done := true }
  else
    let data := s.accum ++ bytes
    let total := data.length
    let (msgs, consumed) := decodeLoop data total 0
    { s with
      accum := if consumed < total then data.drop consumed else []
      handled := s.handled ++ msgs }

/-- `read_loop`, over what `Unix.read` returns. -/
def readLoop (reads : List (List UInt8)) : ReadLoop :=
  reads.foldl ReadLoop.read ⟨[], [], false⟩

end OCamlClient

end Kgd
