import Mathlib.Logic.Function.Basic

/-!
# The socket file

What any number of daemons do to the entry at one socket path: `checkSocket` in `New`
(`internal/daemon/daemon.go`), `Server.Run` (`internal/rpc/server.go`), and the end of the process.
Every call into the system that touches the path is a step of its own, so a run is any interleaving
of daemons. `net.Listen` is two of them: `bind` makes the socket, on which nobody answers before
`listen`. `ln.Close` is two as well: it unlinks the path, whoever has made what is there, and then
closes the listener.
-/

namespace Kgd

/-- A daemon process. -/
abbrev DaemonNo := Nat

/-- What is at the path. -/
inductive SocketEntry
  /-- left by a process that is gone, or no socket -/
  | leftover
  /-- the socket that a daemon has made -/
  | socket (d : DaemonNo)
  deriving DecidableEq, Repr

/-- Where a daemon stands. -/
inductive DaemonPoint
  /-- before `os.Stat` -/
  | idle
  /-- `os.Stat` has found something -/
  | found
  /-- `net.Dial` has failed -/
  | dead
  /-- `checkSocket` has returned nil -/
  | checked
  /-- `Server.Run` has removed what was at the path -/
  | cleared
  /-- `bind` in `net.Listen` has made the socket -/
  | bound
  /-- past `net.Listen` -/
  | serving
  /-- `ln.Close` has unlinked the path -/
  | unlinked
  /-- `ln.Close` has closed the listener -/
  | closed
  /-- `Server.Run` or `New` has returned, past the check -/
  | leaving
  | exited
  deriving DecidableEq, Repr

/-- The entry at the path, and the daemons. -/
structure SocketFile where
  entry : Option SocketEntry
  point : DaemonNo → DaemonPoint

/-- One step of one daemon. -/
inductive SocketFile.Action
  /-- `os.Stat` in `checkSocket` -/
  | stat (d : DaemonNo)
  /-- `net.Dial` in `checkSocket` -/
  | dial (d : DaemonNo)
  /-- `os.Remove` in `checkSocket` -/
  | removeStale (d : DaemonNo)
  /-- `New` cannot open the tty -/
  | fail (d : DaemonNo)
  /-- `os.Remove` at the start of `Server.Run` -/
  | removeOld (d : DaemonNo)
  /-- `net.Listen`, its first half -/
  | bind (d : DaemonNo)
  /-- `net.Listen`, its second half -/
  | listen (d : DaemonNo)
  /-- `ln.Close`, its first half -/
  | unlink (d : DaemonNo)
  /-- `ln.Close`, its second half -/
  | close (d : DaemonNo)
  /-- the deferred `os.Remove` of `Server.Run` -/
  | removeOwn (d : DaemonNo)
  | exit (d : DaemonNo)
  /-- the process is killed -/
  | crash (d : DaemonNo)
  deriving DecidableEq, Repr

namespace SocketFile

/-- Before any daemon has started. -/
def init (leftover : Bool) : SocketFile :=
  ⟨if leftover then some .leftover else none, fun _ => .idle⟩

/-- The listener of a daemon is open, and connections to it succeed. -/
def listening (s : SocketFile) (d : DaemonNo) : Bool :=
  s.point d == .serving || s.point d == .unlinked

/-- A connection to the path succeeds. -/
def answers (s : SocketFile) : Bool :=
  match s.entry with
  | some (.socket d) => s.listening d
  | some .leftover | none => false

/-- The daemon moves on. -/
def goTo (s : SocketFile) (d : DaemonNo) (p : DaemonPoint) : SocketFile :=
  { s with point := Function.update s.point d p }

/-- The state after a step, if the daemon can take it. -/
def next (s : SocketFile) : Action → Option SocketFile
  | .stat d =>
    if s.point d = .idle then
      match s.entry with
      | none => some (s.goTo d .checked)
      | some _ => some (s.goTo d .found)
    else none
  | .dial d =>
    if s.point d = .found then
      some (s.goTo d (if s.answers then .exited else .dead))
    else none
  | .removeStale d =>
    if s.point d = .dead then
      match s.entry with
      -- the error is returned
      | none => some (s.goTo d .exited)
      | some _ => some ({ s with entry := none }.goTo d .checked)
    else none
  | .fail d => if s.point d = .checked then some (s.goTo d .leaving) else none
  | .removeOld d =>
    if s.point d = .checked then some ({ s with entry := none }.goTo d .cleared) else none
  | .bind d =>
    if s.point d = .cleared then
      match s.entry with
      | none => some ({ s with entry := some (.socket d) }.goTo d .bound)
      -- the address is in use, whether anybody answers there or not
      | some _ => some (s.goTo d .leaving)
    else none
  | .listen d => if s.point d = .bound then some (s.goTo d .serving) else none
  | .unlink d =>
    if s.point d = .serving then some ({ s with entry := none }.goTo d .unlinked) else none
  | .close d => if s.point d = .unlinked then some (s.goTo d .closed) else none
  | .removeOwn d =>
    if s.point d = .closed then some ({ s with entry := none }.goTo d .leaving) else none
  | .exit d => if s.point d = .leaving then some (s.goTo d .exited) else none
  | .crash d =>
    if s.point d = .idle ∨ s.point d = .exited then none else some (s.goTo d .exited)

/-- One step of one daemon. -/
abbrev Step (s : SocketFile) (a : Action) (s' : SocketFile) : Prop := s.next a = some s'

end SocketFile

end Kgd
