import Kgd.Client.Rpc

/-!
# The Zig client: calls

`doCall`, `handleResponse`, the end of `readLoop` and `close` of `clients/zig/src/client.zig`,
and the calls of the API that drop the result of `doCall`. Any number of threads call. A step is
what a thread does under `pending_mutex`, or between two of them; a timed wait can end at any
moment.

A run ends where `close` frees the client.
-/

namespace Kgd

namespace ZigClient

/-- `Error`, as far as calls return it. -/
inductive Error
  | sendFailed | rpcError | timeout | connectionClosed | outOfMemory
  deriving DecidableEq

/-- `PendingCall`; `event` is whether the event is set. -/
structure PendingCall where
  active : Bool
  done : Bool
  hasError : Bool
  errMsg : Option (List UInt8)
  resultData : Option (List UInt8)
  event : Bool
  deriving DecidableEq

/-- Where a call is. -/
inductive CallPoint
  /-- the request is being encoded; it has its message id -/
  | encoding (msgid : UInt32)
  /-- in `sendRaw` -/
  | sending (msgid : UInt32)
  /-- in `timedWait` -/
  | waiting (msgid : UInt32)
  /-- `timedWait` has failed or `closed` was set, and the slot is still active -/
  | failing (msgid : UInt32) (err : Error)
  /-- past the test of `closed` -/
  | woken (msgid : UInt32)
  | returned (msgid : UInt32) (result : Except Error (List UInt8))

/-- `Client`, and the calls that are made with it. -/
structure State where
  nextID : UInt32
  pending : Fin maxPending → PendingCall
  calls : List CallPoint
  /-- `readLoop` reads -/
  reading : Bool
  closed : Bool

/-- After `readLoop` is spawned in `connect`. -/
def State.new : State :=
  { nextID := 0, pending := fun _ => ⟨false, false, false, none, none, false⟩, calls := [],
    reading := true, closed := false }

inductive Action
  /-- a thread starts a call: `nextMsgId` -/
  | start
  /-- the encoder is out of memory -/
  | encodeError (c : CallNo)
  /-- `doCall` up to the first unlock -/
  | acquire (c : CallNo)
  /-- `sendRaw` returns -/
  | send (c : CallNo)
  /-- `sendRaw` fails -/
  | sendError (c : CallNo)
  /-- `timedWait` returns, and `closed` is loaded -/
  | wake (c : CallNo)
  /-- `timedWait` fails -/
  | expire (c : CallNo)
  /-- `pe.active = false` of a call that fails -/
  | release (c : CallNo)
  /-- what follows the test of `closed`; an allocation of length 0 succeeds or not -/
  | collect (c : CallNo) (allocated : Bool)
  /-- `handleResponse`; the copies are allocated or not -/
  | receive (r : Response) (copied : Bool)
  /-- the loop of `readLoop` ends, and it wakes the calls -/
  | eof
  /-- the first store of `close` -/
  | close
  /-- `close` wakes the calls once the reader is joined -/
  | closeWake

namespace PendingCall

/-- A slot that a call has just taken. -/
def fresh : PendingCall := ⟨true, false, false, none, none, false⟩

/-- What `handleResponse` does with an active slot. -/
def receive (p : PendingCall) (r : Response) (copied : Bool) : PendingCall :=
  let p := { p with
    hasError := r.hasError
    -- `catch null`: a failed copy leaves no message
    errMsg := if copied then r.message else none
    done := true
    event := true }
  if !r.hasError then { p with resultData := if copied then some r.result else none } else p

/-- `p.done = true; p.event.set()`, of an active slot. -/
def wake (p : PendingCall) : PendingCall :=
  if p.active then { p with done := true, event := true } else p

/-- What `close` does with a slot. -/
def closeWake (p : PendingCall) : PendingCall := { p.wake with resultData := none, errMsg := none }

end PendingCall

namespace State

def setPending (s : State) (i : Fin maxPending) (p : PendingCall) : State :=
  { s with pending := Function.update s.pending i p }

def setCall (s : State) (c : CallNo) (p : CallPoint) : State :=
  { s with calls := s.calls.set c p }

/-- `pe.active = false`, and the call returns. -/
def leave (s : State) (c : CallNo) (msgid : UInt32) (p : PendingCall)
    (result : Except Error (List UInt8)) : State :=
  (s.setPending (slot msgid) { p with active := false }).setCall c (.returned msgid result)

/-- The end of `doCall`. -/
def collect (s : State) (c : CallNo) (msgid : UInt32) (allocated : Bool) : State :=
  let p := s.pending (slot msgid)
  if p.hasError then s.leave c msgid { p with errMsg := none } (.error .rpcError)
  else match p.resultData with
    | some d => s.leave c msgid { p with resultData := none } (.ok d)
    | none => s.leave c msgid p (if allocated then .ok [] else .error .outOfMemory)

/-- The state after an action, if it can be taken. -/
def next (s : State) : Action → Option State
  | .start => some { s with nextID := s.nextID + 1, calls := s.calls ++ [.encoding s.nextID] }
  | .encodeError c =>
    match s.calls[c]? with
    | some (.encoding msgid) => some (s.setCall c (.returned msgid (.error .outOfMemory)))
    | _ => none
  | .acquire c =>
    match s.calls[c]? with
    | some (.encoding msgid) =>
      if (s.pending (slot msgid)).active then
        some (s.setCall c (.returned msgid (.error .sendFailed)))
      else some ((s.setPending (slot msgid) .fresh).setCall c (.sending msgid))
    | _ => none
  | .send c =>
    match s.calls[c]? with
    | some (.sending msgid) => some (s.setCall c (.waiting msgid))
    | _ => none
  | .sendError c =>
    match s.calls[c]? with
    | some (.sending msgid) =>
      some (s.leave c msgid (s.pending (slot msgid)) (.error .sendFailed))
    | _ => none
  | .wake c =>
    match s.calls[c]? with
    | some (.waiting msgid) =>
      if (s.pending (slot msgid)).event then
        some (s.setCall c (if s.closed then .failing msgid .connectionClosed else .woken msgid))
      else none
    | _ => none
  | .expire c =>
    match s.calls[c]? with
    | some (.waiting msgid) =>
      if (s.pending (slot msgid)).event then none
      else some (s.setCall c (.failing msgid .timeout))
    | _ => none
  | .release c =>
    match s.calls[c]? with
    | some (.failing msgid err) => some (s.leave c msgid (s.pending (slot msgid)) (.error err))
    | _ => none
  | .collect c allocated =>
    match s.calls[c]? with
    | some (.woken msgid) => some (s.collect c msgid allocated)
    | _ => none
  | .receive r copied =>
    if s.reading then
      -- a response that ends before its result is dropped
      if r.result.isEmpty then some s
      else
        let p := s.pending (slot r.msgid)
        some (if p.active then s.setPending (slot r.msgid) (p.receive r copied) else s)
    else none
  | .eof =>
    if s.reading then
      some { s with reading := false, pending := fun i => (s.pending i).wake }
    else none
  | .close => some { s with closed := true }
  | .closeWake =>
    if s.closed && !s.reading then
      some { s with pending := fun i => (s.pending i).closeWake }
    else none

end State

def Step (s : State) (a : Action) (s' : State) : Prop := s.next a = some s'

/-! ## Calls of the API -/

/-- `unplace`: the result is freed. -/
def unplace (result : Except Error (List UInt8)) : Except Error Unit := result.map fun _ => ()

/-- `free`: the same. -/
def free (result : Except Error (List UInt8)) : Except Error Unit := result.map fun _ => ()

end ZigClient

end Kgd
