import Kgd.Client.Rpc

/-!
# The C client: calls

`do_call`, `process_message` for a response, `reader_thread` and `kgd_close` of
`clients/c/kgd.c`, and the calls of the API that are made with `do_call`. Any number of threads
call. A step is what a thread does under one mutex, or between two of them; a timed wait can
end at any moment.

What `kgd_close` frees is gone with it: a run ends there.
-/

namespace Kgd

namespace CClient

/-- `kgd_error`, less `KGD_OK`. -/
inductive Error
  | connect | hello | send | recv | decode | rpc | timeout | nomem
  deriving DecidableEq

/-- `pending_entry`. -/
structure PendingEntry where
  active : Bool
  data : Option (List UInt8)
  len : Nat
  done : Bool
  hasError : Bool
  deriving DecidableEq

/-- What `do_call` leaves in `*out` and `*outlen`. -/
structure Output where
  out : Option (List UInt8)
  outlen : Nat
  deriving DecidableEq

/-- The bytes a caller sees. -/
def Output.bytes (o : Output) : List UInt8 := (o.out.getD []).take o.outlen

/-- Where a call is. -/
inductive CallPoint
  /-- the request is being encoded; it has its message id -/
  | encoding (msgid : UInt32)
  /-- in `send_all` -/
  | sending (msgid : UInt32)
  /-- the request is written, the mutex of the slot not taken yet -/
  | sent (msgid : UInt32)
  /-- in `pthread_cond_timedwait` -/
  | waiting (msgid : UInt32)
  /-- past the mutex, before `pe->active = 0` -/
  | failing (msgid : UInt32) (err : Error)
  | returned (msgid : UInt32) (result : Except Error Output)

/-- Where `reader_thread` is. -/
inductive Reader
  | reading
  /-- waking the calls, from this slot on -/
  | waking (slot : Fin maxPending)
  | exited
  deriving DecidableEq

/-- `kgd_client`, and the calls that are made with it. -/
structure State where
  nextID : UInt32
  pending : Fin maxPending → PendingEntry
  calls : List CallPoint
  reader : Reader
  closed : Bool

/-- After `calloc` and `pthread_create` in `kgd_connect`. -/
def State.new : State :=
  { nextID := 0, pending := fun _ => ⟨false, none, 0, false, false⟩, calls := [],
    reader := .reading, closed := false }

inductive Action
  /-- a thread starts a call: `c->next_id++` -/
  | start
  /-- `mpack_writer_destroy` fails -/
  | encodeError (c : CallNo)
  /-- `do_call` up to the first unlock -/
  | acquire (c : CallNo)
  /-- `send_all` returns `KGD_OK` -/
  | send (c : CallNo)
  /-- `send_all` fails -/
  | sendError (c : CallNo)
  /-- the condition of the loop, at the start or after a wakeup, and what follows the loop -/
  | check (c : CallNo)
  /-- `ETIMEDOUT`, with nothing done -/
  | expire (c : CallNo)
  /-- `pe->active = 0` past the mutex -/
  | release (c : CallNo)
  /-- `process_message` with a response; the copy of the result is allocated or not -/
  | receive (r : Response) (copied : Bool)
  /-- the loop of `reader_thread` ends -/
  | eof
  /-- one round of the loop that wakes the calls -/
  | wake
  /-- the first assignment of `kgd_close` -/
  | close

namespace PendingEntry

/-- An entry that a call has just taken. -/
def fresh : PendingEntry := ⟨true, none, 0, false, false⟩

/-- What `process_message` does with an active entry. -/
def receive (e : PendingEntry) (r : Response) (copied : Bool) : PendingEntry :=
  let e := { e with hasError := r.hasError, done := true }
  if !r.hasError && 0 < r.result.length then
    -- the pointer is NULL if malloc fails, and the length stays as it was
    if copied then { e with data := some r.result, len := r.result.length }
    else { e with data := none }
  else e

end PendingEntry

namespace State

def setPending (s : State) (i : Fin maxPending) (e : PendingEntry) : State :=
  { s with pending := Function.update s.pending i e }

def setCall (s : State) (c : CallNo) (p : CallPoint) : State :=
  { s with calls := s.calls.set c p }

/-- The loop in `do_call` is left if the call is done or the client closed. -/
def check (s : State) (c : CallNo) (msgid : UInt32) : State :=
  let e := s.pending (slot msgid)
  if !e.done && !s.closed then s.setCall c (.waiting msgid)
  else if s.closed && !e.done then s.setCall c (.failing msgid .recv)
  -- frees the data here, but leaves the pointer
  else if e.hasError then s.setCall c (.failing msgid .rpc)
  else
    (s.setPending (slot msgid) { e with data := none, active := false }).setCall c
      (.returned msgid (.ok ⟨e.data, e.len⟩))

/-- The state after an action, if it can be taken. -/
def next (s : State) : Action → Option State
  | .start => some { s with nextID := s.nextID + 1, calls := s.calls ++ [.encoding s.nextID] }
  | .encodeError c =>
    match s.calls[c]? with
    | some (.encoding msgid) => some (s.setCall c (.returned msgid (.error .nomem)))
    | _ => none
  -- the slot is looked at under the lock; a call that finds it taken never writes
  | .acquire c =>
    match s.calls[c]? with
    | some (.encoding msgid) =>
      if (s.pending (slot msgid)).active then
        some (s.setCall c (.returned msgid (.error .send)))
      else some ((s.setPending (slot msgid) .fresh).setCall c (.sending msgid))
    | _ => none
  | .send c =>
    match s.calls[c]? with
    | some (.sending msgid) => some (s.setCall c (.sent msgid))
    | _ => none
  | .sendError c =>
    match s.calls[c]? with
    | some (.sending msgid) =>
      some ((s.setPending (slot msgid) { s.pending (slot msgid) with active := false }).setCall c
        (.returned msgid (.error .send)))
    | _ => none
  -- the loop around `cnd_timedwait`: the first look and the one after every wake-up
  | .check c =>
    match s.calls[c]? with
    | some (.sent msgid) | some (.waiting msgid) => some (s.check c msgid)
    | _ => none
  -- the time is up while `done` is still unset
  | .expire c =>
    match s.calls[c]? with
    | some (.waiting msgid) =>
      if (s.pending (slot msgid)).done then none
      else
        some ((s.setPending (slot msgid) { s.pending (slot msgid) with active := false }).setCall c
          (.returned msgid (.error .timeout)))
    | _ => none
  | .release c =>
    match s.calls[c]? with
    | some (.failing msgid err) =>
      some ((s.setPending (slot msgid) { s.pending (slot msgid) with active := false }).setCall c
        (.returned msgid (.error err)))
    | _ => none
  -- the reader fills the entry at the slot, whoever is in it by then
  | .receive r copied =>
    match s.reader with
    | .reading =>
      let e := s.pending (slot r.msgid)
      some (if e.active then s.setPending (slot r.msgid) (e.receive r copied) else s)
    | _ => none
  | .eof =>
    match s.reader with
    | .reading => some { s with reader := .waking 0 }
    | _ => none
  -- at the end of the stream every active entry is marked done, slot by slot
  | .wake =>
    match s.reader with
    | .waking i =>
      let e := s.pending i
      let s := if e.active then s.setPending i { e with done := true } else s
      some { s with
        reader := if h : i.val + 1 < maxPending then .waking ⟨i.val + 1, h⟩ else .exited }
    | _ => none
  | .close => some { s with closed := true }

end State

def Step (s : State) (a : Action) (s' : State) : Prop := s.next a = some s'

/-! ## Calls of the API -/

/-- `send_simple_call`: the result is freed. -/
def sendSimpleCall (result : Except Error Output) : Except Error Unit := result.map fun _ => ()

def kgdUnplace (result : Except Error Output) : Except Error Unit := sendSimpleCall result

def kgdFreeHandle (result : Except Error Output) : Except Error Unit := sendSimpleCall result

/-- `kgd_upload`: what `mpack` finds under "handle", if anything, is left in `*out_handle`. -/
def kgdUpload (expectHandle : Output → Option UInt32) (outHandle : UInt32)
    (result : Except Error Output) : Except Error UInt32 :=
  result.map fun resp => (expectHandle resp).getD outHandle

/-- `kgd_place`, which does the same with "placement_id". -/
def kgdPlace (expectPlacementID : Output → Option UInt32) (outID : UInt32)
    (result : Except Error Output) : Except Error UInt32 :=
  result.map fun resp => (expectPlacementID resp).getD outID

end CClient

end Kgd
