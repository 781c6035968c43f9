import Kgd.ForStd.Words
import Kgd.Daemon.Placement

/-!
# Panes as tmux lists them

`QueryPanes` and `parsePaneLine` of `internal/topology/tmux.go`: the output of `tmux list-panes`,
as text.
-/

namespace Kgd

open Words

/-- `unicode.IsSpace`. -/
def isSpace (c : Char) : Bool :=
  let n := c.toNat
  9 ≤ n && n ≤ 13 || n == 0x20 || n == 0x85 || n == 0xa0 || n == 0x1680 ||
    0x2000 ≤ n && n ≤ 0x200a || n == 0x2028 || n == 0x2029 || n == 0x202f || n == 0x205f ||
    n == 0x3000

/-- A number in decimal without a sign. -/
def decimal? (digits : List Char) : Option Nat :=
  if digits ≠ [] ∧ digits.all Char.isDigit then some (Nat.ofDigitChars 10 digits 0) else none

/-- The range of `int`. -/
def inRange? (n : Int) : Option Int64 :=
  if -2 ^ 63 ≤ n ∧ n < 2 ^ 63 then some (.ofInt n) else none

/-- `strconv.Atoi`. -/
def atoi : List Char → Option Int64
  | '-' :: digits => (decimal? digits).bind fun n => inRange? (-n)
  | '+' :: digits => (decimal? digits).bind fun n => inRange? n
  | digits => (decimal? digits).bind fun n => inRange? n

/-- The errors of `parsePaneLine`. -/
inductive PaneLineError
  /-- expected at least 5 fields -/
  | fields (got : Nat)
  | parsing (field : String)
  deriving DecidableEq, Repr

/-- A field that is a number. -/
def paneNumber (field : String) (s : List Char) : Except PaneLineError Int64 :=
  match atoi s with
  | some n => .ok n
  | none => .error (.parsing field)

/-- Whether the pane's window is active, by the fields after the geometry. -/
def paneActive : List (List Char) → Bool
  | [] => true
  | field :: _ => field == ['1']

/-- A pane by the fields of its line. -/
def paneOfFields : List (List Char) → Except PaneLineError PaneGeometry
  | id :: top :: left :: width :: height :: rest => do
    -- the first field that is no number names the error
    let top ← paneNumber "top" top
    let left ← paneNumber "left" left
    let width ← paneNumber "width" width
    let height ← paneNumber "height" height
    return { id := String.ofList id, top, left, width, height, active := paneActive rest }
  | fields => .error (.fields fields.length)

/-- `parsePaneLine`. -/
def parsePaneLine (line : List Char) : Except PaneLineError PaneGeometry :=
  paneOfFields (words isSpace line)

/-- The panes that `QueryPanes` reads from the output of the command. -/
def queryPanes (out : List Char) : List PaneGeometry :=
  ((trim isSpace out).splitOn '\n').filterMap fun line =>
    if line = [] then none else (parsePaneLine line).toOption

end Kgd
