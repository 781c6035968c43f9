import Mathlib.Data.List.AList
import Kgd.Client.Rpc

/-!
# The Python client: calls

`_call`, `_read_loop`, `_handle_response` and `close` of `clients/python/kgdclient/client.py`.
Any number of threads call. A step is what a thread does under a lock, or between two of them;
a timed wait can end at any moment. A dict is an association list.
-/

namespace Kgd

namespace PythonClient

/-- A response, `[1, msg_id, err, result]`; `None` is `none`. -/
structure Response (K V : Type) where
  msgID : Key K
  err : Option V
  result : Option V

/-- What `_call` returns, or the exception that it raises. -/
inductive Outcome (V : Type)
  | result (result : Option V)
  /-- `RuntimeError`, with a text made of the error -/
  | rpcError (err : V)
  /-- what `sendall` raises -/
  | sendError
  /-- `TimeoutError` -/
  | timeout
  /-- `ConnectionError("connection closed")` -/
  | closed
  /-- what `self._results.pop` raises -/
  | keyError
  deriving DecidableEq

/-- Where a call is. -/
inductive CallPoint (V : Type)
  /-- in `_send_request` -/
  | sending
  /-- in `event.wait` -/
  | waiting
  /-- past `self._done.is_set` -/
  | woken
  /-- in the `finally` clause -/
  | leaving (outcome : Outcome V)
  | returned (outcome : Outcome V)
  deriving DecidableEq

structure Call (V : Type) where
  msgID : Nat
  event : Bool
  point : CallPoint V
  deriving DecidableEq

/-- Where `_read_loop` is. -/
inductive Reader
  | reading
  /-- in `_handle_response`, before `event.set` -/
  | setting (c : CallNo)
  /-- past `self._done.set` -/
  | ended
  /-- setting the events that are left -/
  | waking (events : List CallNo)
  deriving DecidableEq

/-- `Client`, and the calls that are made with it. -/
structure State (K V : Type) where
  nextID : Nat
  /-- the events; an event is that of a call -/
  pending : AList fun _ : Key K => CallNo
  results : AList fun _ : Key K => Option V × Option V
  calls : List (Call V)
  reader : Reader
  done : Bool

variable {K V : Type}

/-- After `__init__`, when the thread of the reader starts. -/
def State.new : State K V :=
  { nextID := 0, pending := ∅, results := ∅, calls := [], reader := .reading, done := false }

inductive Action (K V : Type)
  /-- a thread starts a call: the first `with` block of `_call` -/
  | start
  /-- `_send_request` returns -/
  | send (c : CallNo)
  /-- `_send_request` raises an exception -/
  | sendError (c : CallNo)
  /-- `event.wait` returns false -/
  | expire (c : CallNo)
  /-- `event.wait` returns true, and `self._done.is_set` is called -/
  | wake (c : CallNo)
  /-- `self._results.pop`, and what follows it -/
  | collect (c : CallNo)
  /-- the `finally` clause -/
  | release (c : CallNo)
  /-- `_handle_response` up to the end of its `with` block -/
  | receive (r : Response K V)
  /-- `event.set` in `_handle_response` -/
  | setEvent
  /-- the loop of `_read_loop` ends, and `self._done.set` is called -/
  | eof
  /-- `events = list(self._pending.values())` -/
  | listEvents
  /-- one round of the loop that sets these events -/
  | wakeNext
  /-- `self._done.set` in `close` -/
  | close

/-- What follows `self._results.pop` of this. -/
def outcome (err result : Option V) : Outcome V :=
  match err with
  | some err => .rpcError err
  | none => .result result

def Response.outcome (r : Response K V) : Outcome V := PythonClient.outcome r.err r.result

namespace State

def setPoint (s : State K V) (c : CallNo) (p : CallPoint V) : State K V :=
  { s with calls := s.calls.modify c fun call => { call with point := p } }

/-- `event.set`. -/
def setEvent (s : State K V) (c : CallNo) : State K V :=
  { s with calls := s.calls.modify c fun call => { call with event := true } }

variable [DecidableEq K]

/-- The state after an action, if it can be taken. -/
def next (s : State K V) : Action K V → Option (State K V)
  | .start =>
    some { s with
      nextID := s.nextID + 1
      pending := s.pending.insert (.int s.nextID) s.calls.length
      calls := s.calls ++ [⟨s.nextID, false, .sending⟩] }
  | .send c =>
    match s.calls[c]? with
    | some ⟨_, _, .sending⟩ => some (s.setPoint c .waiting)
    | _ => none
  | .sendError c =>
    match s.calls[c]? with
    | some ⟨_, _, .sending⟩ => some (s.setPoint c (.leaving .sendError))
    | _ => none
  -- `event.wait` timed out: the event is still unset
  | .expire c =>
    match s.calls[c]? with
    | some ⟨_, false, .waiting⟩ => some (s.setPoint c (.leaving .timeout))
    | _ => none
  -- the event is set, by a response or by the reader's end
  | .wake c =>
    match s.calls[c]? with
    | some ⟨_, true, .waiting⟩ => some (s.setPoint c (if s.done then .leaving .closed else .woken))
    | _ => none
  -- `self._results.pop(msg_id)`, which raises when there is nothing
  | .collect c =>
    match s.calls[c]? with
    | some ⟨msgID, _, .woken⟩ =>
      match s.results.lookup (.int msgID) with
      | some (err, result) =>
        some ({ s with results := s.results.erase (.int msgID) }.setPoint c
          (.leaving (outcome err result)))
      | none => some (s.setPoint c (.leaving .keyError))
    | _ => none
  -- the `finally` of the call
  | .release c =>
    match s.calls[c]? with
    | some ⟨msgID, _, .leaving o⟩ =>
      some ({ s with pending := s.pending.erase (.int msgID) }.setPoint c (.returned o))
    | _ => none
  -- the result is stored whether somebody waits for it or not
  | .receive r =>
    match s.reader with
    | .reading =>
      some { s with
        results := s.results.insert r.msgID (r.err, r.result)
        reader :=
          match s.pending.lookup r.msgID with
          | some c => .setting c
          | none => .reading }
    | _ => none
  | .setEvent =>
    match s.reader with
    | .setting c => some ({ s with reader := .reading }.setEvent c)
    | _ => none
  | .eof =>
    match s.reader with
    | .reading => some { s with reader := .ended, done := true }
    | _ => none
  -- `list(self._pending.values())`: a copy, so calls that start later are not in it
  | .listEvents =>
    match s.reader with
    | .ended => some { s with reader := .waking (s.pending.entries.map Sigma.snd) }
    | _ => none
  | .wakeNext =>
    match s.reader with
    | .waking (c :: events) => some ({ s with reader := .waking events }.setEvent c)
    | _ => none
  | .close => some { s with done := true }

end State

def Step [DecidableEq K] (s : State K V) (a : Action K V) (s' : State K V) : Prop :=
  s.next a = some s'

end PythonClient

end Kgd
