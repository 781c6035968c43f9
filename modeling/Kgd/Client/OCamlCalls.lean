import Mathlib.Data.List.AList
import Kgd.Client.OCaml
import Kgd.Client.Rpc
import Kgd.ForStd.MsgpackEncode

/-!
# The OCaml client: calls

`call`, `handle_response`, `read_loop` and `close` of `clients/ocaml/lib/kgd_client.ml`. Any
number of threads call. A step is what a thread does under a mutex, or between two of them. The
timer of a call can fire at any moment, and a table is iterated over in any order.
-/

namespace Kgd

namespace OCamlClient

open Msgpack (utf8)

/-! ## Extraction -/

/-- `to_int`. -/
def toInt : T → Int
  | .int n => n
  | .nil | .bool _ | .str _ | .bin _ | .array _ | .map _ => 0

/-- `to_string`. -/
def toString : T → List UInt8
  | .str s => s
  | .nil | .bool _ | .int _ | .bin _ | .array _ | .map _ => []

/-- `k = Str key`. -/
def isStr (key : List UInt8) : T → Bool
  | .str s => s == key
  | .nil | .bool _ | .int _ | .bin _ | .array _ | .map _ => false

/-- `lookup`. -/
def lookup (key : List UInt8) : T → T
  | .map pairs =>
    match pairs.find? fun kv => isStr key kv.1 with
    | some (_, v) => v
    | none => .nil
  | .nil | .bool _ | .int _ | .str _ | .bin _ | .array _ => .nil

/-! ## Calls -/

/-- A response of four elements. -/
structure Response where
  msgID : T
  err : T
  result : T

/-- What `call` returns, or the exception that it raises. -/
inductive Outcome
  | result (result : T)
  /-- `Failure`, with this text -/
  | rpcError (text : List UInt8)
  /-- what `send_request` raises -/
  | sendError
  /-- "RPC call %s timed out" -/
  | timeout
  /-- "connection closed" -/
  | closed

/-- The match at the end of `call`. -/
def outcome (methodName : List UInt8) (err result : T) : Outcome :=
  match err with
  | .nil => .result result
  | .map _ =>
    let msg := toString (lookup (utf8 "message") err)
    -- an error map without a message has the method's name instead
    if msg ≠ [] then .rpcError msg else .rpcError (utf8 "RPC error: " ++ methodName)
  | .bool _ | .int _ | .str _ | .bin _ | .array _ => .rpcError (utf8 "RPC error: " ++ methodName)

/-- Where a call is. -/
inductive CallPoint
  /-- in `send_request` -/
  | sending
  /-- in `Condition.wait`, or before it -/
  | waiting
  /-- past the mutex, with these values -/
  | woken (err result : T)
  /-- in `finally` -/
  | leaving (outcome : Outcome)
  | returned (outcome : Outcome)

/-- `pending_call` and `timed_out` of a call, and where it is. -/
structure Call where
  msgID : Nat
  methodName : List UInt8
  resolved : Bool
  error : T
  result : T
  timedOut : Bool
  point : CallPoint

/-- Where `read_loop` is. -/
inductive ReaderPoint
  | reading
  /-- in `handle_response`, with the call it has found -/
  | resolving (c : CallNo) (r : Response)
  /-- the loop has ended -/
  | ended
  /-- in `Hashtbl.iter`, with the calls that are left; it holds `pending_lock` -/
  | waking (calls : List CallNo)
  | exited

/-- `Kgd_client.t`, and the calls that are made with it. -/
structure State where
  /-- `next_id`, without the wraparound of a 63-bit `int` after 2^62 calls -/
  nextID : Nat
  pending : AList fun _ : Int => CallNo
  calls : List Call
  reader : ReaderPoint
  done : Bool

/-- When `connect` starts the thread of the reader. -/
def State.new : State :=
  { nextID := 0, pending := ∅, calls := [], reader := .reading, done := false }

inductive Action
  /-- a thread starts a call: `call` up to the first unlock -/
  | start (methodName : List UInt8)
  /-- the timer of the call takes `p.mtx`, and the call is not resolved -/
  | fire (c : CallNo)
  /-- `send_request` returns -/
  | send (c : CallNo)
  /-- `send_request` raises an exception -/
  | sendError (c : CallNo)
  /-- the loop around `Condition.wait` ends, and the fields are read -/
  | wake (c : CallNo)
  /-- `!timed_out` and `client.done_` are read, and what follows -/
  | check (c : CallNo)
  /-- `finally` -/
  | release (c : CallNo)
  /-- `handle_response` up to the first unlock -/
  | receive (r : Response)
  /-- the rest of it -/
  | resolve
  /-- the loop ends, and `client.done_ <- true` -/
  | eof
  /-- `pending_lock` is taken to wake the calls -/
  | lockPending
  /-- one round of `Hashtbl.iter` -/
  | wakeNext (c : CallNo)
  /-- `pending_lock` is released -/
  | unlockPending
  /-- `client.done_ <- true` in `close` -/
  | close

namespace State

/-- Whether another thread can take `pending_lock`. -/
def unlocked (s : State) : Bool :=
  match s.reader with
  | .waking _ => false
  | .reading | .resolving .. | .ended | .exited => true

def setPoint (s : State) (c : CallNo) (p : CallPoint) : State :=
  { s with calls := s.calls.modify c fun call => { call with point := p } }

/-- `p.resolved <- true`, after what `f` does to the fields. -/
def resolve (s : State) (c : CallNo) (f : Call → Call) : State :=
  { s with calls := s.calls.modify c fun call => { f call with resolved := true } }

/-- The state after an action, if it can be taken. -/
def next (s : State) : Action → Option State
  -- the ID is taken and the entry stored under one lock
  | .start methodName =>
    if s.unlocked then
      some { s with
        nextID := s.nextID + 1
        pending := s.pending.insert s.nextID s.calls.length
        calls := s.calls ++ [⟨s.nextID, methodName, false, .nil, .nil, false, .sending⟩] }
    else none
  -- the timer's thread resolves the entry, if nobody has by then
  | .fire c =>
    match s.calls[c]? with
    | some ⟨_, _, false, _, _, _, _⟩ =>
      some (s.resolve c fun call => { call with timedOut := true })
    | _ => none
  | .send c =>
    match s.calls[c]? with
    | some ⟨_, _, _, _, _, _, .sending⟩ => some (s.setPoint c .waiting)
    | _ => none
  | .sendError c =>
    match s.calls[c]? with
    | some ⟨_, _, _, _, _, _, .sending⟩ => some (s.setPoint c (.leaving .sendError))
    | _ => none
  | .wake c =>
    match s.calls[c]? with
    | some ⟨_, _, true, err, result, _, .waiting⟩ => some (s.setPoint c (.woken err result))
    | _ => none
  -- woken for any reason: a timeout goes before a close, a close before a result
  | .check c =>
    match s.calls[c]? with
    | some ⟨_, methodName, _, _, _, timedOut, .woken err result⟩ =>
      some (s.setPoint c (.leaving (
        if timedOut then .timeout
        else if s.done then .closed
        else outcome methodName err result)))
    | _ => none
  | .release c =>
    match s.calls[c]? with
    | some ⟨msgID, _, _, _, _, _, .leaving o⟩ =>
      if s.unlocked then
        some ({ s with pending := s.pending.erase msgID }.setPoint c (.returned o))
      else none
    | _ => none
  -- a response nobody waits for is dropped
  | .receive r =>
    match s.reader with
    | .reading =>
      some { s with
        reader :=
          match s.pending.lookup (toInt r.msgID) with
          | some c => .resolving c r
          | none => .reading }
    | _ => none
  | .resolve =>
    match s.reader with
    | .resolving c r =>
      some ({ s with reader := .reading }.resolve c fun call =>
        { call with error := r.err, result := r.result })
    | _ => none
  | .eof =>
    match s.reader with
    | .reading => some { s with reader := .ended, done := true }
    | _ => none
  | .lockPending =>
    match s.reader with
    | .ended => some { s with reader := .waking (s.pending.entries.map Sigma.snd) }
    | _ => none
  -- the entries are resolved in the hash table's order, which is not fixed
  | .wakeNext c =>
    match s.reader with
    | .waking calls =>
      if c ∈ calls then some ({ s with reader := .waking (calls.erase c) }.resolve c id) else none
    | _ => none
  | .unlockPending =>
    match s.reader with
    | .waking [] => some { s with reader := .exited }
    | _ => none
  | .close => some { s with done := true }

end State

def Step (s : State) (a : Action) (s' : State) : Prop := s.next a = some s'

end OCamlClient

end Kgd
