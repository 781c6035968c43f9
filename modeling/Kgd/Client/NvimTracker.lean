import Mathlib.Data.Finset.Basic
import Kgd.Client.Nvim

/-!
# The neovim client: windows

`nvim/lua/kgd/tracker.lua`, and `M.setup` and `M.disconnect` of `nvim/lua/kgd/init.lua`. Windows
are opened and closed at any time; what that triggers is handled later, in any order. The
geometry of a window is left out: it is read when the window is registered.
-/

namespace Kgd

namespace NvimTracker

/-- What the tracker has autocmds for. -/
inductive Event
  | winNew
  | bufWinEnter
  | winResized
  | winScrolled (win : Nat)
  | winClosed (win : Nat)
  deriving DecidableEq

/-- The client, the local variables of the tracker, neovim and the daemon. -/
structure State (K V : Type) where
  client : NvimClient.State K V
  /-- `augroup` is set -/
  augroup : Bool
  registeredWins : Finset Nat
  /-- `nvim_list_wins` -/
  wins : List Nat
  /-- the handle of the next window; handles are not used again -/
  nextWin : Nat
  /-- the events whose autocmds have not been run -/
  events : List Event
  /-- the windows that are registered on the daemon's side of the connection -/
  daemon : Finset Nat

variable {K V : Type}

/-- Neovim starts with one window. -/
def State.new : State K V :=
  { client := .new, augroup := false, registeredWins := ∅, wins := [1000], nextWin := 1001,
    events := [], daemon := ∅ }

inductive Action (K V : Type)
  /-- `M.setup` of `init.lua` -/
  | setup
  /-- `M.disconnect` of `init.lua` -/
  | disconnect
  /-- what else the client does -/
  | client (a : NvimClient.Action K V)
  /-- a window is opened -/
  | openWin
  /-- a window is closed, and is not the last one -/
  | closeWin (win : Nat)
  /-- another change of a window or its buffer -/
  | change (e : Event)
  /-- the autocmd of an event is run -/
  | autocmd (e : Event)

namespace State

/-- `register_win`. -/
def registerWin (s : State K V) (win : Nat) : State K V :=
  if !s.client.connected then s
  -- there is a geometry if the window is open
  else if win ∉ s.wins then s
  else
    let s := if s.client.pipe then { s with daemon := insert win s.daemon } else s
    { s with registeredWins := insert win s.registeredWins }

/-- `unregister_win`. -/
def unregisterWin (s : State K V) (win : Nat) : State K V :=
  if !s.client.connected then s
  else if win ∈ s.registeredWins then
    let s := if s.client.pipe then { s with daemon := s.daemon.erase win } else s
    { s with registeredWins := s.registeredWins.erase win }
  else s

/-- `register_all_wins`. -/
def registerAllWins (s : State K V) : State K V := s.wins.foldl registerWin s

/-- The callback of an autocmd. -/
def handle (s : State K V) : Event → State K V
  | .winNew | .bufWinEnter | .winResized => s.registerAllWins
  | .winScrolled win => if win ∈ s.wins then s.registerWin win else s
  | .winClosed win => s.unregisterWin win

/-- `M.setup` of `tracker.lua`. -/
def setupTracker (s : State K V) : State K V :=
  if s.augroup then s else { s with augroup := true }.registerAllWins

/-- `M.teardown`. -/
def teardown (s : State K V) : State K V :=
  { s with
    augroup := false
    daemon :=
      if s.client.connected && s.client.pipe then s.daemon \ s.registeredWins else s.daemon
    registeredWins := ∅ }

variable [DecidableEq K]

/-- The state after an action, if it can be taken. -/
def next (s : State K V) : Action K V → Option (State K V)
  | .setup => some { s with client := s.client.setup }.setupTracker
  | .disconnect =>
    let s := s.teardown
    some { s with client := s.client.disconnect }
  | .client .setup | .client .disconnect => none
  | .client .connect =>
    -- a connection of its own, of which the daemon knows no windows yet
    some { s with client := s.client.next .connect, daemon := ∅ }
  | .client a => some { s with client := s.client.next a }
  | .openWin =>
    some { s with
      wins := s.wins ++ [s.nextWin], nextWin := s.nextWin + 1, events := s.events ++ [.winNew] }
  | .closeWin win =>
    if win ∈ s.wins ∧ 1 < s.wins.length then
      some { s with wins := s.wins.erase win, events := s.events ++ [.winClosed win] }
    else none
  | .change .winNew | .change (.winClosed _) => none
  | .change e => some { s with events := s.events ++ [e] }
  | .autocmd e =>
    if e ∈ s.events then
      let s := { s with events := s.events.erase e }
      some (if s.augroup then s.handle e else s)
    else none

end State

def Step [DecidableEq K] (s : State K V) (a : Action K V) (s' : State K V) : Prop :=
  s.next a = some s'

end NvimTracker

end Kgd
