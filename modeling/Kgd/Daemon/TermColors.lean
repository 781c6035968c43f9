import Kgd.ForStd.GoStrings
import Kgd.Daemon.Kitty

/-!
# Terminal colors

`internal/tty/colors.go`: the query for the foreground (OSC 10) and background (OSC 11) colors,
and the parser of the answers.
-/

namespace Kgd

namespace Tty

/-- `Color16{}`. -/
def noColor : Color := ⟨0, 0, 0⟩

/-- The value of a hex digit. -/
def hexDigit (c : Nat) : Option UInt64 :=
  if 48 ≤ c ∧ c ≤ 57 then some (.ofNat (c - 48))
  else if 97 ≤ c ∧ c ≤ 102 then some (.ofNat (c - 97 + 10))
  else if 65 ≤ c ∧ c ≤ 70 then some (.ofNat (c - 65 + 10))
  else none

/-- A round of the loop in `parseHex16`, which returns 0 if the rune is no hex digit. -/
def addDigit (val : UInt64) (c : Nat) : Option UInt64 := (hexDigit c).map (val <<< 4 ||| ·)

/-- `parseHex16`: a component of 1 to 4 digits as 16 bits, 0 on invalid input. -/
def parseHex16 (s : Bytes) : UInt16 :=
  if s.length = 0 ∨ 4 < s.length then 0
  else
    match (Strings.runes s).foldlM addDigit 0 with
    | none => 0
    | some val =>
      -- one to four digits, scaled to sixteen bits
      match s.length with
      | 1 => (val * 0x1111).toUInt16
      | 2 => (val * 0x0101).toUInt16
      | 3 => (val <<< 4 ||| val >>> 8).toUInt16
      | 4 => val.toUInt16
      | _ => 0

def slash : UInt8 := 0x2f

/-- `ParseRGBColor`. -/
def parseRGBColor (s : Bytes) : Color :=
  match s.splitOn slash with
  | [r, g, b] => ⟨parseHex16 r, parseHex16 g, parseHex16 b⟩
  | _ => noColor

example : parseRGBColor (bytes "abc/def/123") = ⟨0xabca, 0xdefd, 0x1231⟩ := by decide

/-- What ends the color in an answer: BEL, or a byte of ST. -/
def terminators : Bytes := [0x07, 0x1b, 0x5c]

/-- `parseOSCColor`. -/
def parseOSCColor (response oscNum : Bytes) : Color :=
  let pre := bytes "]" ++ oscNum ++ bytes ";rgb:"
  match Strings.index pre response with
  | none => noColor
  | some idx =>
    let rest := response.drop (idx + pre.length)
    -- without a terminator all that is left counts
    let stop := (rest.findIdx? (· ∈ terminators)).getD rest.length
    parseRGBColor (rest.take stop)

/-- What a `Read` of the terminal returns. -/
structure ReadResult where
  data : Bytes
  fails : Bool

/-- What the calls on the terminal return. After the `reads` the deadline is over. -/
structure TtyFile where
  writeFails : Bool
  setReadDeadlineFails : Bool
  reads : List ReadResult

/-- The query that `QueryColors` writes. -/
def colorQuery (inTmux : Bool) : Bytes :=
  if inTmux then
    bytes "\x1bPtmux;\x1b\x1b]10;?\x1b\x1b\\\x1b\\\x1bPtmux;\x1b\x1b]11;?\x1b\x1b\\\x1b\\"
  else bytes "\x1b]10;?\x1b\\\x1b]11;?\x1b\\"

/-- The loop of `QueryColors`: the response so far, and the reads to come. -/
def readResponse (response : Bytes) : List ReadResult → Bytes
  | [] => response
  | r :: reads =>
    let response := response ++ r.data
    -- a read that fails may have given bytes, which count
    if r.fails then response
    -- the second answer has begun, but need not be complete
    else if 2 ≤ Strings.count (bytes "rgb:") response then response
    else readResponse response reads

/-- `QueryColors`: what it writes, and the colors it returns. -/
def queryColors (ttyFile : TtyFile) (inTmux : Bool) : Bytes × TermColors :=
  let query := colorQuery inTmux
  if ttyFile.writeFails || ttyFile.setReadDeadlineFails then (query, ⟨noColor, noColor⟩)
  else
    let response := readResponse [] ttyFile.reads
    (query, ⟨parseOSCColor response (bytes "10"), parseOSCColor response (bytes "11")⟩)

end Tty

end Kgd
