import Mathlib.Data.List.AList
import Kgd.Client.Rpc

/-!
# The Rust client: calls

`call` and `read_loop` of `clients/rust/src/lib.rs`. Any number of tasks call, and every call is
polled until it returns. A step is what a task does under a lock, or between two of them; a
timeout can fire at any moment, and a map is drained in any order.
-/

namespace Kgd

namespace RustClient

/-- What is sent to the channel of a call; `Value::Nil` is `none`. -/
inductive Message (V : Type)
  | response (error result : Option V)
  /-- the string "connection closed" as an error -/
  | connectionClosed
  deriving DecidableEq

/-- `oneshot::channel`. -/
inductive Channel (V : Type)
  | empty
  | sent (msg : Message V)
  /-- the sender has been dropped -/
  | dropped
  deriving DecidableEq

/-- `Result<Value>`. -/
inductive Outcome (V : Type)
  | ok (value : Option V)
  /-- `KgdError::Rpc`, with a text made of the error -/
  | rpc (err : V)
  /-- `KgdError::Rpc`, with the text made of the reader's error -/
  | rpcClosed
  | send
  | timeout
  | connectionClosed
  deriving DecidableEq

/-- Where a call is. -/
inductive CallPoint (V : Type)
  /-- before `insert` -/
  | registering
  /-- in `write_all`, or waiting for the writer -/
  | sending
  /-- in `timeout` -/
  | waiting
  | returned (outcome : Outcome V)
  deriving DecidableEq

structure Call (V : Type) where
  msgid : UInt32
  channel : Channel V
  point : CallPoint V
  deriving DecidableEq

/-- Where `read_loop` is. -/
inductive Reader (V : Type)
  | reading
  /-- with the sender it has removed -/
  | delivering (c : CallNo) (msg : Message V)
  /-- in `map.drain`, with the calls that are left; it holds the lock -/
  | draining (calls : List CallNo)
  | exited
  deriving DecidableEq

/-- `Client`, and the calls that are made with it. -/
structure State (V : Type) where
  nextID : UInt32
  /-- the senders; a sender is that of a call -/
  pending : AList fun _ : UInt32 => CallNo
  calls : List (Call V)
  reader : Reader V

variable {V : Type}

/-- When `connect` spawns the reader. -/
def State.new : State V := { nextID := 0, pending := ∅, calls := [], reader := .reading }

inductive Action (V : Type)
  /-- a task starts a call: `fetch_add` -/
  | start
  /-- `insert` -/
  | register (c : CallNo)
  /-- `write_all` returns -/
  | send (c : CallNo)
  /-- `write_all` fails -/
  | sendError (c : CallNo)
  /-- the receiver is ready -/
  | wake (c : CallNo)
  /-- the timeout is over, and the receiver is not ready -/
  | expire (c : CallNo)
  /-- a response: `remove` -/
  | receive (msgid : UInt32) (error result : Option V)
  /-- `tx.send` -/
  | deliver
  /-- the loop ends, and the lock is taken -/
  | eof
  /-- one round of the loop that drains the map -/
  | drainNext (c : CallNo)
  /-- the end of `read_loop` -/
  | exit

/-- What `call` makes of what is in its channel. -/
def Channel.outcome? : Channel V → Option (Outcome V)
  | .empty => none
  | .sent (.response (some err) _) => some (.rpc err)
  | .sent (.response none value) => some (.ok value)
  | .sent .connectionClosed => some .rpcClosed
  | .dropped => some .connectionClosed

/-- `tx.send`; there is nothing yet in the channel. -/
def Channel.send (ch : Channel V) (msg : Message V) : Channel V :=
  match ch with
  | .empty => .sent msg
  | .sent _ | .dropped => ch

/-- The sender goes out of scope; what it has sent stays. -/
def Channel.drop (ch : Channel V) : Channel V :=
  match ch with
  | .empty => .dropped
  | .sent _ | .dropped => ch

namespace State

/-- Whether a task can take the lock of the map. -/
def unlocked (s : State V) : Bool :=
  match s.reader with
  | .draining _ => false
  | .reading | .delivering .. | .exited => true

def setPoint (s : State V) (c : CallNo) (p : CallPoint V) : State V :=
  { s with calls := s.calls.modify c fun call => { call with point := p } }

def setChannel (s : State V) (c : CallNo) (f : Channel V → Channel V) : State V :=
  { s with calls := s.calls.modify c fun call => { call with channel := f call.channel } }

/-- `insert`; the sender that was there is dropped. -/
def insert (s : State V) (msgid : UInt32) (c : CallNo) : State V :=
  match s.pending.lookup msgid with
  | some old => { s with pending := s.pending.insert msgid c }.setChannel old .drop
  | none => { s with pending := s.pending.insert msgid c }

/-- The state after an action, if it can be taken. -/
def next (s : State V) : Action V → Option (State V)
  | .start =>
    some { s with
      nextID := s.nextID + 1
      calls := s.calls ++ [⟨s.nextID, .empty, .registering⟩] }
  -- the map is behind a lock, which the reader holds while it drains
  | .register c =>
    match s.calls[c]? with
    | some ⟨msgid, _, .registering⟩ =>
      if s.unlocked then some ((s.insert msgid c).setPoint c .sending) else none
    | _ => none
  | .send c =>
    match s.calls[c]? with
    | some ⟨_, _, .sending⟩ => some (s.setPoint c .waiting)
    | _ => none
  | .sendError c =>
    match s.calls[c]? with
    | some ⟨_, _, .sending⟩ => some (s.setPoint c (.returned .send))
    | _ => none
  -- the channel has a message, or its sender is gone
  | .wake c =>
    match s.calls[c]? with
    | some ⟨_, channel, .waiting⟩ =>
      match channel.outcome? with
      | some o => some (s.setPoint c (.returned o))
      | none => none
    | _ => none
  -- the entry stays in the map
  | .expire c =>
    match s.calls[c]? with
    | some ⟨_, .empty, .waiting⟩ => some (s.setPoint c (.returned .timeout))
    | _ => none
  | .receive msgid error result =>
    match s.reader with
    | .reading =>
      some { s with
        pending := s.pending.erase msgid
        reader :=
          match s.pending.lookup msgid with
          | some c => .delivering c (.response error result)
          | none => .reading }
    | _ => none
  | .deliver =>
    match s.reader with
    | .delivering c msg => some ({ s with reader := .reading }.setChannel c (·.send msg))
    | _ => none
  -- the map is emptied, and every sender in it is sent the close
  | .eof =>
    match s.reader with
    | .reading =>
      some { s with pending := ∅, reader := .draining (s.pending.entries.map Sigma.snd) }
    | _ => none
  | .drainNext c =>
    match s.reader with
    | .draining calls =>
      if c ∈ calls then
        some ({ s with reader := .draining (calls.erase c) }.setChannel c
          (·.send .connectionClosed))
      else none
    | _ => none
  | .exit =>
    match s.reader with
    | .draining [] => some { s with reader := .exited }
    | _ => none

end State

def Step (s : State V) (a : Action V) (s' : State V) : Prop := s.next a = some s'

end RustClient

end Kgd
