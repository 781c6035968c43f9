import Mathlib.Data.List.AList
import Kgd.Client.Rpc

/-!
# The neovim client: requests

`send_request`, `process_message` for a response, `close_pipe`, `M.setup` and `M.disconnect` of
`nvim/lua/kgd/client.lua`. Everything runs in one event loop; a step is one of these functions,
which the loop or a caller invokes in any order. Ids are taken to stay below 2^53, where numbers
are exact.
-/

namespace Kgd

namespace NvimClient

/-- What a callback is called with. -/
inductive Reply (V : Type)
  | result (result : Option V)
  /-- an error with a text made of the error of a response -/
  | rpcError (err : V)
  /-- "connection lost" -/
  | connectionLost
  /-- "not connected" -/
  | notConnected
  deriving DecidableEq

/-- The local variables of the module, and the callbacks it has been given. -/
structure State (K V : Type) where
  /-- there is a pipe -/
  pipe : Bool
  connected : Bool
  /-- `next_id`; a number of Lua counts to 2^53 -/
  nextID : Nat
  /-- the callbacks, by their numbers -/
  pending : AList fun _ : Key K => Nat
  /-- for each callback, the calls that have been made or scheduled -/
  callbacks : List (List (Reply V))

variable {K V : Type}

def State.new : State K V :=
  { pipe := false, connected := false, nextID := 0, pending := ∅, callbacks := [] }

inductive Action (K V : Type)
  /-- `M.setup` starts to connect -/
  | setup
  /-- the callback of `pipe:connect`, without an error, up to the hello request -/
  | connect
  /-- the callback of `pipe:connect`, with an error -/
  | connectError
  /-- `send_request`, with a callback or without -/
  | sendRequest (callback : Bool)
  /-- `process_message` with a response; nil and `vim.NIL` are `none` -/
  | response (msgid : Key K) (err result : Option V)
  /-- `close_pipe`: an error or the end of the file in `on_read`, or an error of a write -/
  | closePipe
  /-- `M.disconnect` -/
  | disconnect

namespace State

variable [DecidableEq K]

/-- A callback is called or scheduled. -/
def fire (s : State K V) (callback : Nat) (reply : Reply V) : State K V :=
  { s with callbacks := s.callbacks.modify callback (· ++ [reply]) }

/-- `send_request`. -/
def sendRequest (s : State K V) (callback : Bool) : State K V :=
  if !s.connected || !s.pipe then
    -- the callback is told at once, and nothing is pending
    if callback then { s with callbacks := s.callbacks ++ [[.notConnected]] } else s
  else
    let msgid := s.nextID + 1
    if callback then
      { s with
        nextID := msgid
        pending := s.pending.insert (.int msgid) s.callbacks.length
        callbacks := s.callbacks ++ [[]] }
    -- with no callback, `pending[msgid] = callback` takes out whatever stood there
    else { s with nextID := msgid, pending := s.pending.erase (.int msgid) }

/-- `process_message` with a response. -/
def response (s : State K V) (msgid : Key K) (err result : Option V) : State K V :=
  let cb := s.pending.lookup msgid
  -- the entry goes before the callback runs
  let s := { s with pending := s.pending.erase msgid }
  match cb with
  | some cb =>
    match err with
    | some err => s.fire cb (.rpcError err)
    | none => s.fire cb (.result result)
  | none => s

/-- `close_pipe`. -/
def closePipe (s : State K V) : State K V :=
  { s with
    connected := false
    pipe := false
    callbacks := (s.pending.entries.map Sigma.snd).foldl
      (fun callbacks cb => callbacks.modify cb (· ++ [.connectionLost])) s.callbacks
    pending := ∅ }

/-- `M.disconnect`. -/
def disconnect (s : State K V) : State K V :=
  { s with connected := false, pipe := false, pending := ∅ }

/-- `M.setup`. -/
def setup (s : State K V) : State K V :=
  if s.connected then s else { s with pipe := true }

/-- The state after an action. -/
def next (s : State K V) : Action K V → State K V
  | .setup => s.setup
  | .connect => { s with connected := true }
  | .connectError => { s with pipe := false }
  | .sendRequest callback => s.sendRequest callback
  | .response msgid err result => s.response msgid err result
  | .closePipe => s.closePipe
  | .disconnect => s.disconnect

end State

def Step [DecidableEq K] (s : State K V) (a : Action K V) (s' : State K V) : Prop := s.next a = s'

end NvimClient

end Kgd
