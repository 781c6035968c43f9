import Kgd.Daemon.Protocol

/-!
# The kitty graphics protocol

`internal/kitty/kitty.go`: the escape sequences for the three graphics commands, and tmux's
passthrough around a sequence. A Go string is its bytes.
-/

namespace Kgd

/-- A Go string, or a slice of bytes. -/
abbrev Bytes := List UInt8

/-- The bytes of a constant or of formatted text. -/
def bytes (s : String) : Bytes := s.toUTF8.data.toList

theorem bytes_append (s t : String) : bytes (s ++ t) = bytes s ++ bytes t := by
  simp [bytes]

/-- `formatCode`: the `f=` key of a transmission. -/
def formatCode (format : String) : Nat :=
  match format with
  | "rgb" => 24
  | "rgba" => 32
  | _ => 100

/-! ## Base64 -/

/-- The character of `base64.StdEncoding` for six bits. -/
def base64Char (n : Nat) : UInt8 :=
  (bytes "ABCDEFGHIJKLMNOPQRSTUVWXYZabcdefghijklmnopqrstuvwxyz0123456789+/").getD n 0

/-- The padding character. -/
def base64Pad : UInt8 := 61

/-- `base64.StdEncoding.EncodeToString`. -/
def encodeToString : Data → Bytes
  | a :: b :: c :: rest =>
    let n := a.toNat * 65536 + b.toNat * 256 + c.toNat
    base64Char (n / 262144) :: base64Char (n / 4096 % 64) :: base64Char (n / 64 % 64) ::
      base64Char (n % 64) :: encodeToString rest
  | [a, b] =>
    let n := a.toNat * 65536 + b.toNat * 256
    [base64Char (n / 262144), base64Char (n / 4096 % 64), base64Char (n / 64 % 64), base64Pad]
  | [a] =>
    let n := a.toNat * 65536
    [base64Char (n / 262144), base64Char (n / 4096 % 64), base64Pad, base64Pad]
  | [] => []

example : encodeToString (bytes "test") = bytes "dGVzdA==" := by decide

/-! ## Commands -/

/-- The maximum size of a chunk of base64 data. -/
def chunkSize : Nat := 4096

/-- `splitChunks`, for a positive size. -/
def splitChunks (s : Bytes) (size : Nat) : List Bytes :=
  if s = [] ∨ size = 0 then [] else s.take size :: splitChunks (s.drop size) size
termination_by s.length
decreasing_by
  rename_i h
  have hlength : 0 < s.length := List.length_pos_iff.mpr fun hnil => h (Or.inl hnil)
  have hsize : 0 < size := Nat.pos_of_ne_zero fun hzero => h (Or.inr hzero)
  rw [List.length_drop]
  omega

/-- `TransmitCommand`. -/
structure TransmitCommand where
  imageID : UInt32
  format : String
  width : Int64
  height : Int64
deriving DecidableEq, Repr

namespace TransmitCommand

/-- The `s=` and `v=` keys, which only raw pixel formats have. -/
def sizeKeys (c : TransmitCommand) : String :=
  if formatCode c.format ≠ 100 then s!",s={c.width},v={c.height}" else ""

/-- A chunk after the first one; `more` says whether another one follows. -/
def nextChunk (more : Nat) (chunk : Bytes) : Bytes :=
  bytes s!"\x1b_Gm={more},q=2;" ++ chunk ++ bytes "\x1b\\"

/-- The chunks after the first one. -/
def nextChunks : List Bytes → List Bytes
  | [] => []
  | [chunk] => [nextChunk 0 chunk]
  | chunk :: rest => nextChunk 1 chunk :: nextChunks rest

/-- `SerializeChunks`: one sequence for each chunk. -/
def serializeChunks (c : TransmitCommand) (data : Data) : List Bytes :=
  let b64 := encodeToString data
  let format := formatCode c.format
  -- one escape without an `m` key when it fits
  if b64.length ≤ chunkSize then
    [bytes s!"\x1b_Ga=t,f={format},i={c.imageID}{c.sizeKeys},q=2;" ++ b64 ++ bytes "\x1b\\"]
  else
    match splitChunks b64 chunkSize with
    -- not reached: what is too long for one escape has a chunk
    | [] => []
    | chunk :: rest =>
      let more := if rest.isEmpty then 0 else 1
      (bytes s!"\x1b_Ga=t,f={format},i={c.imageID}{c.sizeKeys},m={more},q=2;" ++ chunk ++
        bytes "\x1b\\") :: nextChunks rest

end TransmitCommand

/-- `PlaceCommand`. -/
structure PlaceCommand where
  imageID : UInt32
  placementID : UInt32
  row : Int64
  col : Int64
  width : Int64
  height : Int64
  srcX : Int64
  srcY : Int64
  srcW : Int64
  srcH : Int64
  zIndex : Int32
deriving DecidableEq, Repr

namespace PlaceCommand

/-- A key that is left out unless its value is positive. -/
def positiveKey (key : String) (value : Int64) : List String :=
  if 0 < value then [s!"{key}={value}"] else []

/-- The keys of the command. -/
def parts (c : PlaceCommand) : List String :=
  ["a=p", s!"i={c.imageID}"] ++
    (if c.placementID ≠ 0 then [s!"p={c.placementID}"] else []) ++
    positiveKey "c" c.width ++ positiveKey "r" c.height ++ positiveKey "x" c.srcX ++
    positiveKey "y" c.srcY ++ positiveKey "w" c.srcW ++ positiveKey "h" c.srcH ++
    (if c.zIndex ≠ 0 then [s!"z={c.zIndex}"] else []) ++ ["C=1", "q=2"]

/-- `Serialize`: empty for an invalid cursor position. -/
def serialize (c : PlaceCommand) : Bytes :=
  if c.row < 0 ∨ c.col < 0 then []
  else
    let keys := ",".intercalate c.parts
    bytes s!"\x1b[{c.row + 1};{c.col + 1}H\x1b_G{keys};\x1b\\"

end PlaceCommand

/-- `DeleteCommand`. -/
structure DeleteCommand where
  imageID : UInt32
  placementID : UInt32
  free : Bool
deriving DecidableEq, Repr

/-- `Serialize`. -/
def DeleteCommand.serialize (c : DeleteCommand) : Bytes :=
  let deleteType := if c.free then "d=I" else "d=i"
  if c.placementID ≠ 0 then
    bytes s!"\x1b_Ga=d,{deleteType},i={c.imageID},p={c.placementID},q=2;\x1b\\"
  else bytes s!"\x1b_Ga=d,{deleteType},i={c.imageID},q=2;\x1b\\"

/-! ## tmux passthrough -/

/-- The escape character. -/
def ESC : UInt8 := 0x1b

/-- `WrapTmux`. -/
def wrapTmux (escape : Bytes) : Bytes :=
  let inner := escape.flatMap fun b => if b = ESC then [ESC, ESC] else [b]
  bytes "\x1bPtmux;" ++ inner ++ bytes "\x1b\\"

end Kgd
