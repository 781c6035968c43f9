import Kgd.Daemon.Engine
import Kgd.Daemon.Server

/-!
# The RPC server and the engine together

The server's goroutines and the engine's goroutine share one buffered channel,
`engine.Events`. A connection sends it the requests it has decoded, each with the client ID
the connection has at that moment; `ClientDisconnected` sends it a `ClientDisconnect`, from the
teardown of a connection or from the reaper; the tmux watcher sends it `UpdatePanes`.

The engine here is one that has not been told to stop.
-/

namespace Kgd

/-- The capacity of `engine.Events`. -/
def eventsCap : Nat := 256

/-- The `ClientID` field of an event. -/
def Event.clientID? : Event → Option ClientID
  | .helloRequest c _ | .placeRequest c _ | .unplaceRequest c _ | .unplaceAllRequest c
  | .uploadRequest c _ | .freeRequest c _ | .scrollUpdate c _ _ | .registerWin c _
  | .unregisterWin c _ | .clientDisconnect c | .listRequest c => some c
  | .updatePanes _ | .statusRequest | .stopRequest => none

/-- The events that `dispatch` sends. -/
def Event.isRequest : Event → Bool
  | .helloRequest .. | .placeRequest .. | .unplaceRequest .. | .unplaceAllRequest ..
  | .uploadRequest .. | .freeRequest .. | .scrollUpdate .. | .registerWin ..
  | .unregisterWin .. | .listRequest .. | .statusRequest | .stopRequest => true
  | .updatePanes .. | .clientDisconnect .. => false

/-- The server, the channel with its oldest event first, and the engine. -/
structure System where
  server : Server
  events : List Event
  engine : Engine

namespace System

def new (engine : Engine) : System := { server := .new, events := [], engine }

/-- `e.Events <- ev`, which blocks while the channel is full. -/
def send (s : System) (ev : Event) : Option System :=
  if s.events.length < eventsCap then some { s with events := s.events ++ [ev] } else none

/-- One step of one goroutine. -/
inductive Action
  /-- a step of the server; what it calls `ClientDisconnected` for is sent -/
  | server (a : Server.Action)
  /-- a connection sends a request -/
  | request (c : ClientRef) (ev : Event)
  /-- the tmux watcher sends a new topology -/
  | updatePanes (panes : List PaneGeometry)
  /-- the engine takes a terminal size -/
  | size (env : Env) (sz : WinSize)
  /-- the engine takes terminal colors -/
  | colors (env : Env) (colors : TermColors)
  /-- the engine takes the oldest event and handles it -/
  | handle (env : Env)

/-- The engine handles an input; what it does to the outside world is left out. -/
def receive (hash128 : Data → Hash) (s : System) (env : Env) (input : Input) : Option System :=
  (s.engine.receive hash128 env input).map fun r => { s with engine := r.1 }

/-- The state after an action, if it can be taken. -/
def next (newString : Nat → ClientID) (hash128 : Data → Hash) (s : System) :
    Action → Option System
  | .server a => do
    let server ← s.server.next newString a
    -- what this step reported goes to the engine as an event
    let calls := server.disconnected.drop s.server.disconnected.length
    (calls.map Event.clientDisconnect).foldlM send { s with server }
  | .request c ev => do
    let o ← s.server.at? c .serve
    -- the connection sends under the ID it has now
    if ev.isRequest ∧ (ev.clientID? = none ∨ ev.clientID? = some o.ID) then s.send ev else none
  | .updatePanes panes => s.send (.updatePanes panes)
  | .size env sz => s.receive hash128 env (.size sz)
  | .colors env colors => s.receive hash128 env (.colors colors)
  | .handle env =>
    match s.events with
    | [] => none
    | ev :: rest => { s with events := rest }.receive hash128 env (.event ev)

/-- The step relation of `next`. -/
def Step (newString : Nat → ClientID) (hash128 : Data → Hash) (s : System) (a : Action)
    (s' : System) : Prop :=
  s.next newString hash128 a = some s'

end System

end Kgd
