import Kgd.Client.C
import Kgd.Client.Mpack
import Kgd.Daemon.Protocol

/-!
# The C client: a message of the daemon

`process_message` of `clients/c/kgd.c`, on any bytes: which callback it calls and with what, and
what it does with the slot of a response. A message is one that the reader thread has measured,
but nothing here depends on it.
-/

namespace Kgd

namespace CClient

open Mpack Msgpack

/-- The notifications that there is a callback for. -/
inductive Kind
  | evicted
  | topology
  | visibility
  | theme
  deriving DecidableEq

/-- The name that `method` is compared with. -/
def Kind.method : Kind → String
  | .evicted => "evicted"
  | .topology => "topology_changed"
  | .visibility => "visibility_changed"
  | .theme => "theme_changed"

/-- Which of `evicted_cb`, `topology_cb`, `visibility_cb` and `theme_cb` are not NULL. -/
abbrev Callbacks := Kind → Bool

/-- The channels of a color as they are read, before they are cast. -/
structure Channels where
  r : Int32
  g : Int32
  b : Int32
  deriving DecidableEq

/-- The locals that the parameters of a notification are read into. -/
inductive Params
  | evicted (handle : UInt32)
  | topology (cols rows cw ch : Int32)
  | visibility (pid : UInt32) (visible : Bool)
  | theme (fg bg : Channels)
  deriving DecidableEq

/-- A callback and its arguments. -/
inductive CallbackCall
  | evicted (handle : UInt32)
  | topology (cols rows cellWidth cellHeight : Int32)
  | visibility (placementID : UInt32) (visible : Bool)
  | theme (fg bg : Color)
  deriving DecidableEq

/-- A `kgd_color`, from the assignments to its fields: `(uint16_t)`. -/
def Channels.color (c : Channels) : Color :=
  ⟨c.r.toUInt32.toUInt16, c.g.toUInt32.toUInt16, c.b.toUInt32.toUInt16⟩

def Params.call : Params → CallbackCall
  | .evicted handle => .evicted handle
  | .topology cols rows cw ch => .topology cols rows cw ch
  | .visibility pid visible => .visibility pid visible
  | .theme fg bg => .theme fg.color bg.color

/-! ## Parameters -/

def readEvicted : Expect UInt32 :=
  readFields 32 [("handle", fun _ => expectU32)] 0

/-- `cols`, `rows`, `cw` and `ch`. -/
structure Topology where
  cols : Int32
  rows : Int32
  cw : Int32
  ch : Int32

def readTopology : Expect Topology :=
  readFields 32 [
    ("cols", fun t => return { t with cols := ← expectInt }),
    ("rows", fun t => return { t with rows := ← expectInt }),
    ("cell_width", fun t => return { t with cw := ← expectInt }),
    ("cell_height", fun t => return { t with ch := ← expectInt })] ⟨0, 0, 0, 0⟩

def readVisibility : Expect (UInt32 × Bool) :=
  readFields 32 [
    ("placement_id", fun v => return (← expectU32, v.2)),
    ("visible", fun v => return (v.1, ← expectBool))] (0, false)

/-- From `parse_color` on, into a color that is there already. -/
def readColor (c : Channels) : Expect Channels :=
  readFields 8 [
    ("r", fun c => return { c with r := ← expectInt }),
    ("g", fun c => return { c with g := ← expectInt }),
    ("b", fun c => return { c with b := ← expectInt })] c

def readTheme : Expect (Channels × Channels) :=
  readFields 32 [
    ("fg", fun t => return (← readColor t.1, t.2)),
    ("bg", fun t => return (t.1, ← readColor t.2))] (⟨0, 0, 0⟩, ⟨0, 0, 0⟩)

/-- The first parameter of a notification. -/
def Kind.read : Kind → Expect Params
  | .evicted => return .evicted (← readEvicted)
  | .topology => do
    let t ← readTopology
    return .topology t.cols t.rows t.cw t.ch
  | .visibility => do
    let v ← readVisibility
    return .visibility v.1 v.2
  | .theme => do
    let t ← readTheme
    return .theme t.1 t.2

/-- The loop over the remaining parameters, which goes on after an error. -/
def discardMany : Nat → Expect Unit
  | 0 => return
  | n + 1 => do
    discard
    discardMany n

/-- The parameters: the first one, and then `remaining` that are skipped. -/
def Kind.readParams (kind : Kind) (remaining : Nat) : Expect Params := do
  let params ← kind.read
  discardMany remaining
  return params

/-! ## Messages -/

/-- What `process_message` does. -/
structure Outcome where
  pending : Fin maxPending → PendingEntry
  /-- the slot whose condition variable is signaled -/
  signaled : Option (Fin maxPending)
  calls : List CallbackCall
  /-- what is left in `tls_error` of the thread -/
  lastError : Option (List UInt8)

/-- The loop over the entries of an error map: the message, and the reader after it. The function
    is left in the loop if a key is too large or not a string. -/
def readErrorMap :
    Nat → Option (List UInt8) → Option (List UInt8) →
      Option (List UInt8) × Option (Option (List UInt8))
  | 0, msg, rd => (msg, some rd)
  | _ + 1, msg, none => (msg, some none)
  | n + 1, msg, some buf =>
    match (expectCstr 32).parse buf with
    -- a key that does not fit the buffer: the rest of the map is left unread
    | .error _ => (msg, none)
    | .ok (keybuf, rest) =>
      if keybuf.bytes = utf8 "message" then
        match (expectCstr 256).parse rest with
        | .ok (msgbuf, rest) => readErrorMap n (some msgbuf.bytes) (some rest)
        | .error _ => readErrorMap n msg none
      -- other keys are skipped with their value
      else readErrorMap n msg (discard.run (some rest)).2

/-- The error field past its tag. -/
def readError (errTag : Tag) (rd : Option (List UInt8)) :
    Option (List UInt8) × Option (Option (List UInt8)) :=
  match errTag with
  | .nil => (none, some rd)
  | .map ecount => readErrorMap ecount none rd
  | _ => (none, some (discard.run rd).2)

/-- The bytes of the result: one value, measured with a reader of its own. -/
def resultBytes : Option (List UInt8) → List UInt8
  | none => []
  | some remaining =>
    match discard.parse remaining with
    | .ok (_, after) => remaining.take (remaining.length - after.length)
    | .error _ => []

section

variable (pending : Fin maxPending → PendingEntry)

/-- A message that is dropped, or read to the end with nothing to do. -/
def Outcome.nothing : Outcome := ⟨pending, none, [], none⟩

/-- A response past its message id. -/
def processResponse (copied : Bool) (msgid : UInt32) (buf : List UInt8) : Outcome :=
  let errTag := readTag.run (some buf)
  match readError errTag.1 errTag.2 with
  -- the reader is in the error state, and the response is dropped
  | (msg, none) => ⟨pending, none, [], msg⟩
  | (msg, some rd) =>
    let pe := pending (slot msgid)
    if pe.active then
      let r : Response := ⟨msgid, errTag.1 ≠ .nil, msg, resultBytes rd⟩
      ⟨Function.update pending (slot msgid) (pe.receive r copied), some (slot msgid), [], msg⟩
    -- nobody waits at this slot
    else ⟨pending, none, [], msg⟩

/-- A notification past its type. -/
def processNotification (cbs : Callbacks) (buf : List UInt8) : Outcome :=
  match (expectCstr 64).parse buf with
  | .error _ => .nothing pending
  | .ok (method, buf) =>
    match (expectArrayMax 16).parse buf with
    | .error _ | .ok (0, _) => .nothing pending
    | .ok (remaining + 1, buf) =>
      match [Kind.evicted, .topology, .visibility, .theme].find? fun kind =>
        decide (method.bytes = utf8 kind.method) && cbs kind with
      | some kind =>
        ⟨pending, none, [((kind.readParams remaining).run (some buf)).1.call], none⟩
      -- skips all params
      | none => .nothing pending

/-- `process_message`; the copy of a result is allocated or not. -/
def processMessage (cbs : Callbacks) (copied : Bool) (data : List UInt8) : Outcome :=
  match (expectArrayMax 8).parse data with
  | .error _ => .nothing pending
  | .ok (arrCount, buf) =>
    if arrCount < 3 then .nothing pending
    else
      match expectInt.parse buf with
      | .error _ => .nothing pending
      | .ok (msgtype, buf) =>
        -- 1 is a response, 2 a notification, anything else is dropped
        if msgtype = 1 then
          match expectU32.parse buf with
          | .error _ => .nothing pending
          | .ok (msgid, buf) => processResponse pending copied msgid buf
        else if msgtype = 2 then processNotification pending cbs buf
        else .nothing pending

end

end CClient

end Kgd
