import Kgd.Daemon.Serve
import Kgd.Daemon.System

/-!
# Calls to the engine, until it has shut down

`sendAndWait` and `sendEvent` of `internal/rpc/dispatch.go` against `Run` of
`internal/engine/engine.go` with its deferred calls: `cleanupRenderedPlacements`, `drain` and
`close(e.done)`, in this order. Any number of goroutines call; a call is numbered by when it
starts. The engine is the one of `Kgd.Daemon.Engine`; how its handlers use the terminal and
the notifier is left out, what they send on `Reply` is not.

A step is one channel operation, or what a goroutine does between two of them. Where a `select`
has several ready cases each is a step of its own.
-/

namespace Kgd

/-! ## Requests and replies -/

/-- A value on a reply channel, with the channel's type. -/
abbrev Answer := Σ k : ReplyKind, k.Reply

/-- What a handler sends on `Reply`. -/
def Reply.answer : Reply → Answer
  | .hello result => ⟨.hello, .ok result⟩
  | .place placementID => ⟨.place, placementID⟩
  | .upload handle => ⟨.upload, handle⟩
  | .list placements => ⟨.list, placements⟩
  | .status result => ⟨.status, result⟩

/-- The type of the `Reply` channel of a request. Only these are sent with `sendAndWait`. -/
def Event.replyKind? : Event → Option ReplyKind
  | .helloRequest .. => some .hello
  | .placeRequest .. => some .place
  | .uploadRequest .. => some .upload
  | .listRequest .. => some .list
  | .statusRequest => some .status
  | .unplaceRequest .. | .unplaceAllRequest .. | .freeRequest .. | .scrollUpdate ..
  | .registerWin .. | .unregisterWin .. | .updatePanes .. | .clientDisconnect .. | .stopRequest =>
    none

/-- The switch in `drain`: what is sent on the event's `Reply`. -/
def Event.drainAnswer : Event → Option Answer
  | .helloRequest .. => some ⟨.hello, .error "shutting down"⟩
  | .placeRequest .. => some ⟨.place, .error "shutting down"⟩
  | .uploadRequest .. => some ⟨.upload, .error "shutting down"⟩
  | .listRequest .. => some ⟨.list, []⟩
  | .statusRequest =>
    some ⟨.status, { clients := 0, placements := 0, images := 0, cols := 0, rows := 0 }⟩
  | _ => none

/-- The answers among the effects of a handler, in their order. -/
def answers (out : List Action) : List Answer :=
  out.filterMap fun
    | .reply r => some r.answer
    | .gfx _ | .notifyClient .. | .notifyAll _ | .stop => none

/-! ## State -/

/-- How a call has returned. -/
inductive Outcome
  /-- the error "engine stopped" -/
  | stopped
  /-- `sendEvent` has sent its event -/
  | sent
  /-- `sendAndWait` has received a reply -/
  | answered (a : Answer)

/-- Where a call is. -/
inductive CallPoint
  /-- in the select that sends the event -/
  | sending
  /-- in the select that waits for the reply -/
  | waiting
  | returned (o : Outcome)

/-- One call of `sendAndWait` or `sendEvent`, with its reply channel, of capacity 1. -/
structure Call where
  event : Event
  point : CallPoint
  reply : Option Answer

/-- The number of a call. -/
abbrev CallRef := Nat

/-- Where the engine's goroutine is. -/
inductive RunPoint
  /-- in the select of `Run` -/
  | select
  /-- handling the event of a call; these are the replies it has yet to send -/
  | handling (c : CallRef) (pending : List Answer)
  /-- in a handler that does not return: `assignHandle` finds no unused handle -/
  | looping (c : CallRef)
  /-- in `cleanupRenderedPlacements` -/
  | cleanup
  /-- in the select of `drain` -/
  | drain
  /-- in `drain`, sending the reply to a request -/
  | draining (c : CallRef) (a : Answer)
  /-- past `drain` -/
  | drained
  /-- past `close(e.done)` -/
  | closed

/-- The engine's goroutine and the calls to it. `events` holds the calls whose events are in the
    channel, oldest first. -/
structure Calls where
  engine : Engine
  point : RunPoint
  events : List CallRef
  calls : List Call
  ctxDone : Bool

namespace Calls

/-- The engine has started and nothing has called it. -/
def new (engine : Engine) : Calls :=
  { engine, point := .select, events := [], calls := [], ctxDone := false }

def modify (s : Calls) (c : CallRef) (f : Call → Call) : Calls :=
  { s with calls := s.calls.modify c f }

/-! ## Steps -/

/-- One step of one goroutine. -/
inductive Action
  /-- a goroutine calls `sendAndWait` or `sendEvent` -/
  | call (ev : Event)
  /-- the first select of a call takes `Events <- ev` -/
  | send (c : CallRef)
  /-- the first select of a call takes `<-Done()` -/
  | sendStopped (c : CallRef)
  /-- the second select of a call takes `<-reply` -/
  | receive (c : CallRef)
  /-- the second select of a call takes `<-Done()` -/
  | receiveStopped (c : CallRef)
  /-- the daemon's context is cancelled from outside -/
  | cancel
  /-- `Run` takes a terminal size -/
  | size (env : Env) (sz : WinSize)
  /-- `Run` takes terminal colors -/
  | colors (colors : TermColors)
  /-- `Run` takes the oldest event; a stop request cancels the context -/
  | take (env : Env)
  /-- a handler or `drain` sends a reply -/
  | reply
  /-- a handler returns -/
  | handled
  /-- `Run` takes `<-ctx.Done()` -/
  | stop
  /-- `cleanupRenderedPlacements` returns -/
  | cleaned
  /-- `drain` takes the oldest event -/
  | drainTake
  /-- `drain` finds the channel empty -/
  | drainDefault
  /-- `close(e.done)` -/
  | close

/-- `reply <- a`, which blocks while the channel is full. -/
def deliver (s : Calls) (c : CallRef) (a : Answer) : Option Calls :=
  match s.calls[c]? with
  | some k => if k.reply.isNone then some (s.modify c ({ · with reply := some a })) else none
  | none => none

/-- The state after an action, if it can be taken. -/
def next (hash128 : Data → Hash) (s : Calls) : Action → Option Calls
  | .call ev => some { s with calls := s.calls ++ [⟨ev, .sending, none⟩] }
  | .send c =>
    match s.calls[c]? with
    | some ⟨ev, .sending, _⟩ =>
      -- a send into a full channel waits
      if s.events.length < eventsCap then
        let point := if ev.replyKind?.isSome then .waiting else .returned .sent
        some ({ s with events := s.events ++ [c] }.modify c ({ · with point }))
      else none
    | _ => none
  -- the other case of the same `select`: done is closed
  | .sendStopped c =>
    match s.point, s.calls[c]? with
    | .closed, some ⟨_, .sending, _⟩ => some (s.modify c ({ · with point := .returned .stopped }))
    | _, _ => none
  | .receive c =>
    match s.calls[c]? with
    | some ⟨_, .waiting, some a⟩ =>
      some (s.modify c ({ · with point := .returned (.answered a), reply := none }))
    | _ => none
  -- the second `select`, which gives the reply up once done is closed
  | .receiveStopped c =>
    match s.point, s.calls[c]? with
    | .closed, some ⟨_, .waiting, _⟩ => some (s.modify c ({ · with point := .returned .stopped }))
    | _, _ => none
  | .cancel => some { s with ctxDone := true }
  | .size env sz =>
    match s.point with
    | .select => some { s with engine := (s.engine.onSize env sz).1 }
    | _ => none
  | .colors colors =>
    match s.point with
    | .select => some { s with engine := (s.engine.onColors colors).1 }
    | _ => none
  -- `Run` takes the oldest event and keeps its replies until they are delivered
  | .take env =>
    match s.point, s.events with
    | .select, c :: events =>
      s.calls[c]?.map fun k =>
        match s.engine.handle hash128 env k.event with
        | some (engine, out) =>
          { s with
            engine, events, point := .handling c (answers out)
            ctxDone := s.ctxDone || out.contains .stop }
        -- `assignHandle` would look for a free handle forever
        | none => { s with events, point := .looping c }
    | _, _ => none
  | .reply =>
    match s.point with
    | .handling c (a :: pending) => { s with point := .handling c pending }.deliver c a
    | .draining c a => { s with point := .drain }.deliver c a
    | _ => none
  | .handled =>
    match s.point with
    | .handling _ [] => some { s with point := .select }
    | _ => none
  -- only at the `select`, and only when the context is done
  | .stop =>
    match s.point with
    | .select => if s.ctxDone then some { s with point := .cleanup } else none
    | _ => none
  | .cleaned =>
    match s.point with
    | .cleanup => some { s with point := .drain }
    | _ => none
  | .drainTake =>
    match s.point, s.events with
    | .drain, c :: events =>
      s.calls[c]?.map fun k =>
        match k.event.drainAnswer with
        | some a => { s with events, point := .draining c a }
        | none => { s with events }
    | _, _ => none
  -- the channel was empty for this moment, and the drain returns
  | .drainDefault =>
    match s.point, s.events with
    | .drain, [] => some { s with point := .drained }
    | _, _ => none
  | .close =>
    match s.point with
    | .drained => some { s with point := .closed }
    | _ => none

/-- The step relation of `next`. -/
def Step (hash128 : Data → Hash) (s : Calls) (a : Action) (s' : Calls) : Prop :=
  s.next hash128 a = some s'

end Calls

end Kgd
