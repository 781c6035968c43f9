import Kgd.Daemon.Protocol

/-!
# The RPC server's connections and sessions

`internal/rpc/server.go` with the parts of `client.go` and `dispatch.go` that touch the
server: `addClient`, `removeClient`, `RegisterSession`, `SetStateless`, `updateClientID`,
`reapSessions` and the deferred part of `handleClient`.

A `*Client` is a reference into a heap, so the map entry and the connection's own goroutine
see the same struct. Every critical section of `Server.mu` is one action; between two of them
any other goroutine may run. What a connection does between its hellos does not touch the
server and is no action.
-/

namespace Kgd

/-- A reference to a `Client` struct, numbered in the order of the accepts. -/
abbrev ClientRef := Nat

/-- Where the goroutine of a connection is. -/
inductive ConnPoint
  /-- in `Serve`, between two messages or in one that is no session hello -/
  | serve
  /-- in a hello: `RegisterSession` has returned `clientID`, `SetStateless` comes next -/
  | registered (sessionID : String) (clientID : ClientID)
  /-- `Serve` has returned, the deferred function of `handleClient` comes next -/
  | ended
  /-- past `removeClient` -/
  | removed
  /-- past the end of `handleClient` -/
  | closed
deriving DecidableEq, Repr

/-- What `RegisterSession` was called with and returned, in a hello. -/
def ConnPoint.session? : ConnPoint → Option (String × ClientID)
  | .registered sessionID clientID => some (sessionID, clientID)
  | .serve | .ended | .removed | .closed => none

/-- `rpc.Client`, with the state of its goroutine and of its connection. -/
structure Client where
  ID : ClientID
  stateless : Bool
  sessionID : String
  point : ConnPoint
  /-- `updateClientID` has closed the connection in favour of a new owner of its ID -/
  evicted : Bool
deriving DecidableEq, Repr

/-- `rpc.session`; times are in nanoseconds since the server started. -/
structure Session where
  clientID : ClientID
  lastSeen : Nat
deriving DecidableEq, Repr

def sessionIdleTimeout : Nat := 5 * 60 * 1000000000

/-- `rpc.Server`, with the clients accepted so far, the clock and the reaper's goroutine. -/
structure Server where
  heap : List Client
  clients : GoMap String ClientRef
  sessions : GoMap String Session
  now : Nat
  /-- the client IDs whose sessions the reaper has deleted and not yet reported -/
  expiredClientIDs : List ClientID
  /-- the calls of `engine.ClientDisconnected`, oldest first -/
  disconnected : List ClientID

namespace Server

/-- `NewServer`. -/
def new : Server :=
  { heap := [], clients := ∅, sessions := ∅, now := 0, expiredClientIDs := [], disconnected := [] }

/-- A write to a field of a client. -/
def modify (s : Server) (c : ClientRef) (f : Client → Client) : Server :=
  { s with heap := s.heap.modify c f }

/-- `NewClient` and `addClient`; `newID` is what `uuid.NewString` returned. -/
def addClient (s : Server) (newID : ClientID) : Server :=
  { s with
    heap := s.heap ++ [{ ID := newID, stateless := false, sessionID := "", point := .serve,
                         evicted := false }]
    clients := s.clients.insert newID s.heap.length }

/-- `removeClient`, given the client's current ID. -/
def removeClient (s : Server) (id : ClientID) : Server := { s with clients := s.clients.erase id }

/-- `RegisterSession`: the session's client ID, and the sessions afterwards. -/
def registerSession (s : Server) (sessionID : String) (clientID : ClientID) : Server × ClientID :=
  match s.sessions[sessionID]? with
  -- the session's own client ID, whatever ID the connection had
  | some sess =>
    ({ s with sessions := s.sessions.insert sessionID { sess with lastSeen := s.now } },
      sess.clientID)
  | none =>
    ({ s with sessions := s.sessions.insert sessionID { clientID, lastSeen := s.now } }, clientID)

/-- `updateClientID` for the client `c` whose current ID is `id`. -/
def updateClientID (s : Server) (c : ClientRef) (id newID : ClientID) : Server :=
  let clients := s.clients.erase id
  let s' :=
    match clients[newID]? with
    -- the connection under that ID before is closed
    | some old => if old ≠ c then s.modify old fun o => { o with evicted := true } else s
    | none => s
  { s'.modify c (fun o => { o with ID := newID }) with clients := clients.insert newID c }

/-- `SetStateless` of a client with a server. -/
def setStateless (s : Server) (c : ClientRef) (id : ClientID) (sessionID : String)
    (clientID : ClientID) : Server :=
  (s.modify c fun o => { o with stateless := true, sessionID }).updateClientID c id clientID

/-- The deferred function of `handleClient` after `removeClient`: the session of a stateless
    client is touched, any other client is reported to the engine. -/
def closeClient (s : Server) (client : Client) : Server :=
  -- a session outlives its connection: the reaper reports it
  if client.stateless then
    match s.sessions[client.sessionID]? with
    | some sess =>
      { s with sessions := s.sessions.insert client.sessionID { sess with lastSeen := s.now } }
    | none => s
  else { s with disconnected := s.disconnected ++ [client.ID] }

/-- What a tick of `reapSessions` does with a session. -/
def reapSession (now : Nat) (_sessionID : String) (sess : Session) :
    Option Session × List ClientID :=
  if sessionIdleTimeout < now - sess.lastSeen then (none, [sess.clientID]) else (some sess, [])

/-- The critical section of a tick of `reapSessions`. -/
def reapSessions (s : Server) (order : RangeOrder String) : Server :=
  let (sessions, expired) := GoMap.rangeUpdate order (reapSession s.now) s.sessions
  { s with sessions, expiredClientIDs := expired }

/-- The connection that `NotifyClient` writes to. -/
def notifyClient (s : Server) (clientID : ClientID) : Option ClientRef := s.clients[clientID]?

/-- The connections that `NotifyAll` writes to. -/
def notifyAll (s : Server) (order : RangeOrder String) : List ClientRef :=
  (GoMap.entries order s.clients).map Prod.snd

/-! ## Interleavings -/

/-- One step of one goroutine. -/
inductive Action
  | accept
  /-- the client says hello; an empty session ID is none -/
  | hello (c : ClientRef) (sessionID : String)
  | setStateless (c : ClientRef)
  | serveEnd (c : ClientRef)
  | removeClient (c : ClientRef)
  | closeClient (c : ClientRef)
  /-- time passes -/
  | elapse (d : Nat)
  | reapSessions (order : RangeOrder String)
  /-- the reaper calls `ClientDisconnected` for the next client ID it collected -/
  | reapNotify

/-- The client `c`, if its goroutine is at `point`. -/
def at? (s : Server) (c : ClientRef) (point : ConnPoint) : Option Client :=
  s.heap[c]?.filter fun o => o.point = point

/-- The state after an action, if it can be taken. The `n`-th accepted client is given the
    UUID `newString n`. -/
def next (newString : Nat → ClientID) (s : Server) : Action → Option Server
  | .accept => some (s.addClient (newString s.heap.length))
  | .hello c sessionID => do
    let o ← s.at? c .serve
    if sessionID = "" then some s
    else
      let r := s.registerSession sessionID o.ID
      some (r.1.modify c fun o => { o with point := .registered sessionID r.2 })
  | .setStateless c => do
    let o ← s.heap[c]?
    let (sessionID, clientID) ← o.point.session?
    some ((s.setStateless c o.ID sessionID clientID).modify c fun o => { o with point := .serve })
  | .serveEnd c => do
    let _ ← s.at? c .serve
    some (s.modify c fun o => { o with point := .ended })
  | .removeClient c => do
    let o ← s.at? c .ended
    some ((s.removeClient o.ID).modify c fun o => { o with point := .removed })
  | .closeClient c => do
    let o ← s.at? c .removed
    some ((s.closeClient o).modify c fun o => { o with point := .closed })
  | .elapse d => some { s with now := s.now + d }
  | .reapSessions order =>
    -- the reaper is one goroutine: the next tick waits until it has reported the last one's
    match s.expiredClientIDs with
    | [] => some (s.reapSessions order)
    | _ :: _ => none
  | .reapNotify =>
    match s.expiredClientIDs with
    | [] => none
    | clientID :: rest =>
      some { s with expiredClientIDs := rest, disconnected := s.disconnected ++ [clientID] }

/-- The step relation of `next`. -/
def Step (newString : Nat → ClientID) (s : Server) (a : Action) (s' : Server) : Prop :=
  s.next newString a = some s'

end Server

end Kgd
