import Kgd.Daemon.System

/-!
# Pane geometry from tmux

`Run`, `runControlMode`, `runPolling` and `queryAndUpdate` of `internal/topology/tmux.go`, with
the engine that takes their events, until the daemon's context is cancelled.

Of tmux there is what its clients see: a layout, which can change at any time, and the lines of
control mode. A step is one operation on a channel, a timer or a pipe, or one `tmux` command.
-/

namespace Kgd

/-! ## Lines of control mode -/

/-- The cases of `shouldRefreshPanes`. -/
def refreshPrefixes : List String :=
  ["%layout-change", "%window-pane-changed", "%session-window-changed", "%window-add",
    "%window-close", "%unlinked-window-add", "%unlinked-window-close"]

/-- `shouldRefreshPanes`. -/
def shouldRefreshPanes (line : String) : Bool :=
  refreshPrefixes.any fun pre => pre.toList.isPrefixOf line.toList

/-! ## State -/

/-- Where a call of `queryAndUpdate` is. -/
inductive Query
  /-- in `QueryPanes`, and tmux has yet to look at the layout -/
  | running
  /-- tmux has looked at the layout, after so many changes to it, and this is what it saw -/
  | snapshot (changes : Nat) (panes : List PaneGeometry)
  | returned
  deriving DecidableEq, Repr

/-- The number of a call of `queryAndUpdate`. -/
abbrev QueryRef := Nat

/-- Where `Run` is. -/
inductive WatcherPoint
  /-- in its own `queryAndUpdate`, number 0, or between that and `tmux -C attach` -/
  | initial
  /-- in the loop of `runControlMode` -/
  | control
  /-- in `runPolling`, and the last query it made -/
  | polling (query : Option QueryRef)
  deriving DecidableEq, Repr

/-- The watcher, the engine with its channel, and tmux. -/
structure TmuxWatcher where
  engine : Engine
  events : List Event
  point : WatcherPoint
  /-- whether the timer `debounce` is running -/
  debounce : Bool
  queries : List Query
  /-- what `tmux list-panes` would print -/
  layout : List PaneGeometry
  -- The rest is history: no step depends on it.
  /-- how often the layout has changed -/
  changes : Nat
  /-- the changes made before the last refresh line was written, or before the attach -/
  reported : Nat
  /-- the changes in the snapshot that was sent last -/
  sent : Option Nat

namespace TmuxWatcher

/-- `Run` has called `queryAndUpdate`. -/
def new (engine : Engine) (layout : List PaneGeometry) : TmuxWatcher :=
  { engine, events := [], point := .initial, debounce := false, queries := [.running], layout,
    changes := 0, reported := 0, sent := none }

/-! ## Steps -/

inductive Action
  /-- the layout changes -/
  | layoutChange (layout : List PaneGeometry)
  /-- `runControlMode` reads a line, written after so many changes -/
  | line (line : String) (changes : Nat)
  /-- the debounce timer fires and starts a goroutine -/
  | fire
  /-- tmux looks at the layout for `list-panes` -/
  | snapshot (q : QueryRef)
  /-- `QueryPanes` returns an error, such as a timeout -/
  | fail (q : QueryRef)
  /-- `queryAndUpdate` sends its event -/
  | send (q : QueryRef)
  /-- `tmux -C attach` has started -/
  | attach
  /-- `tmux -C attach` does not start -/
  | attachFailed
  /-- control mode exits, which stops the timer -/
  | exit
  /-- the ticker of `runPolling` -/
  | tick
  /-- another goroutine sends an event -/
  | other (ev : Event)
  /-- the engine takes the oldest event -/
  | take (env : Env)
  /-- the engine takes a terminal size -/
  | size (env : Env) (sz : WinSize)
  /-- the engine takes terminal colors -/
  | colors (colors : TermColors)

/-- `e.Events <- ev`. -/
def push (s : TmuxWatcher) (ev : Event) : Option TmuxWatcher :=
  if s.events.length < eventsCap then some { s with events := s.events ++ [ev] } else none

/-- A new call of `queryAndUpdate`. -/
def query (s : TmuxWatcher) : TmuxWatcher :=
  { s with queries := s.queries ++ [.running] }

/-- The state after an action, if it can be taken. -/
def next (hash128 : Data → Hash) (s : TmuxWatcher) : Action → Option TmuxWatcher
  | .layoutChange layout => some { s with layout, changes := s.changes + 1 }
  | .line line n =>
    match s.point with
    | .control =>
      if shouldRefreshPanes line then
        -- the lines come in the order in which they are written
        if s.reported ≤ n ∧ n ≤ s.changes then some { s with debounce := true, reported := n }
        else none
      else some s
    | _ => none
  | .fire => if s.debounce then some { s with debounce := false }.query else none
  | .snapshot q =>
    match s.queries[q]? with
    | some .running => some { s with queries := s.queries.set q (.snapshot s.changes s.layout) }
    | _ => none
  | .fail q =>
    match s.queries[q]? with
    | some .running | some (.snapshot ..) => some { s with queries := s.queries.set q .returned }
    | _ => none
  | .send q =>
    match s.queries[q]? with
    | some (.snapshot n panes) =>
      { s with queries := s.queries.set q .returned, sent := some n }.push (.updatePanes panes)
    | _ => none
  | .attach =>
    match s.point, s.queries.head? with
    | .initial, some .returned => some { s with point := .control, reported := s.changes }
    | _, _ => none
  | .attachFailed =>
    match s.point, s.queries.head? with
    | .initial, some .returned => some { s with point := .polling none }
    | _, _ => none
  | .exit =>
    match s.point with
    | .control => some { s with point := .polling none, debounce := false }
    | _ => none
  | .tick =>
    match s.point with
    | .polling none => some { s with point := .polling (some s.queries.length) }.query
    | .polling (some q) =>
      if s.queries[q]? = some .returned then
        some { s with point := .polling (some s.queries.length) }.query
      else none
    | _ => none
  | .other (.updatePanes _) => none
  | .other ev => s.push ev
  | .take env =>
    match s.events with
    | ev :: events =>
      (s.engine.handle hash128 env ev).map fun r => { s with events, engine := r.1 }
    | [] => none
  | .size env sz => some { s with engine := (s.engine.onSize env sz).1 }
  | .colors colors => some { s with engine := (s.engine.onColors colors).1 }

/-- The step relation of `next`. -/
def Step (hash128 : Data → Hash) (s : TmuxWatcher) (a : Action) (s' : TmuxWatcher) : Prop :=
  s.next hash128 a = some s'

end TmuxWatcher

end Kgd
