import Mathlib.Data.List.Basic

/-!
# The goroutines of `Daemon.Run`

`Daemon.Run` starts the TTY writer under a context of its own, the engine and (inside tmux)
the tmux watcher under the daemon's context, and serves RPC until that context is cancelled.
It then waits for the engine, cancels the writer's context and waits for the writer.

A state holds the program point of each goroutine and the `Writes` channel; an action is one
step of one goroutine. `next` is defined where the action can be taken, so a run is any
interleaving and any choice among the ready cases of a `select`. The runs modelled are those
in which `server.Run` returns nil: when it cannot listen, `Run` returns at once and waits for
nobody.
-/

namespace Kgd

/-- The capacity of `Writer.Writes`. -/
def writesCap : Nat := 256

/-- `Engine.Run`: its loop, the deferred `cleanupRenderedPlacements`, and past `close(e.done)`. -/
inductive EnginePoint
  | loop | cleanup | exited
deriving DecidableEq, Repr

/-- `Daemon.Run`: in `server.Run`, in `engineWg.Wait`, in `writerWg.Wait`, returned. -/
inductive MainPoint
  | serving | waitEngine | waitWriter | returned
deriving DecidableEq, Repr

/-- `Writer.Run`: the queries before its loop, the loop, returned. -/
inductive WriterPoint
  | starting | loop | returned
deriving DecidableEq, Repr

/-- The goroutines of `Daemon.Run`. `sent` and `written` record the buffers the engine has put
    into `Writes` and those the writer has handed to `unix.Write`, oldest first. -/
structure Goroutines (B : Type) where
  ctxDone : Bool
  writerCtxDone : Bool
  main : MainPoint
  engine : EnginePoint
  /-- what the cleanup has yet to send -/
  cleanup : List B
  /-- the tmux watcher is running; `engineWg` counts it too -/
  watcher : Bool
  writer : WriterPoint
  writes : List B
  /-- a SIGWINCH is waiting in `sigCh`, of capacity 1 -/
  sigCh : Bool
  sent : List B
  written : List B
deriving DecidableEq, Repr

/-- One step of one goroutine. -/
inductive Goroutines.Action (B : Type)
  /-- the daemon's context is cancelled, from outside or by a stop request -/
  | cancel
  /-- the engine sends a buffer while it handles an event -/
  | engineSend (buf : B)
  /-- the engine's loop takes `ctx.Done`; `bufs` is what its cleanup will send -/
  | engineDone (bufs : List B)
  | cleanupSend
  | engineExit
  | watcherExit
  | serverReturn
  /-- `engineWg.Wait` returns and `writerCancel` is called -/
  | writerCancel
  /-- `writerWg.Wait` returns and `Run` with it -/
  | mainReturn
  | writerStart
  /-- the writer's `select` takes `ctx.Done` -/
  | writerDone
  /-- the writer's `select` takes a buffer and writes it -/
  | writerWrite
  | sigwinch
  /-- the writer's `select` takes a signal; the size it queries goes to the engine's loop -/
  | writerResize
deriving DecidableEq, Repr

namespace Goroutines

variable {B : Type}

/-- The state of `Daemon.Run` once every goroutine is started. -/
def init (B : Type) (inTmux : Bool) : Goroutines B where
  ctxDone := false
  writerCtxDone := false
  main := .serving
  engine := .loop
  cleanup := []
  watcher := inTmux
  writer := .starting
  writes := []
  sigCh := false
  sent := []
  written := []

/-- `writer.Writes <- buf`, which blocks while the channel is full. -/
def send (s : Goroutines B) (buf : B) : Option (Goroutines B) :=
  if s.writes.length < writesCap then
    some { s with writes := s.writes ++ [buf], sent := s.sent ++ [buf] }
  else none

/-- The state after an action, if it can be taken. -/
def next (s : Goroutines B) : Action B → Option (Goroutines B)
  | .cancel => some { s with ctxDone := true }
  | .engineSend buf => if s.engine = .loop then s.send buf else none
  | .engineDone bufs =>
    if s.engine = .loop ∧ s.ctxDone then some { s with engine := .cleanup, cleanup := bufs }
    else none
  | .cleanupSend =>
    match s.engine, s.cleanup with
    | .cleanup, buf :: bufs => { s with cleanup := bufs }.send buf
    | _, _ => none
  | .engineExit =>
    if s.engine = .cleanup ∧ s.cleanup.isEmpty then some { s with engine := .exited } else none
  | .watcherExit => if s.watcher ∧ s.ctxDone then some { s with watcher := false } else none
  | .serverReturn =>
    if s.main = .serving ∧ s.ctxDone then some { s with main := .waitEngine } else none
  | .writerCancel =>
    if s.main = .waitEngine ∧ s.engine = .exited ∧ ¬ s.watcher then
      some { s with main := .waitWriter, writerCtxDone := true }
    else none
  | .mainReturn =>
    if s.main = .waitWriter ∧ s.writer = .returned then some { s with main := .returned } else none
  | .writerStart => if s.writer = .starting then some { s with writer := .loop } else none
  -- the three cases of the writer's `select`, each guarded by its own readiness only
  | .writerDone =>
    if s.writer = .loop ∧ s.writerCtxDone then some { s with writer := .returned } else none
  | .writerWrite =>
    match s.writer, s.writes with
    | .loop, buf :: bufs => some { s with writes := bufs, written := s.written ++ [buf] }
    | _, _ => none
  | .writerResize => if s.writer = .loop ∧ s.sigCh then some { s with sigCh := false } else none
  | .sigwinch => some { s with sigCh := true }

/-- The step relation of `next`. -/
def Step (s : Goroutines B) (a : Action B) (s' : Goroutines B) : Prop := s.next a = some s'

end Goroutines

end Kgd
