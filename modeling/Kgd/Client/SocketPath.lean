import Kgd.Daemon.SocketPath

/-!
# Socket paths in the clients

`_default_socket_path` of `clients/python/kgdclient/client.py` with the expression around its call,
`resolve_socket_path` of `clients/rust/src/lib.rs`, and `resolveSocketPath` of
`clients/nodejs/src/index.ts`.
-/

namespace Kgd

open PosixPath

/-! ## Python -/

namespace PythonClient

/-- The root of a `PosixPath`; two slashes, and not more, are a root of their own. -/
def root (s : PosixPath) : PosixPath :=
  if !isRooted s then []
  else if isRooted (s.drop 1) && !isRooted (s.drop 2) then ['/', '/']
  else ['/']

/-- `str(Path(s))`. -/
def pathStr (s : PosixPath) : PosixPath :=
  let formatted := root s ++ ['/'].intercalate ((components s).filter Counts)
  if formatted = [] then dot else formatted

/-- What `Path(a) / b` joins; `b` has no root. -/
def pathJoin (a b : PosixPath) : PosixPath :=
  if a = [] ∨ a.getLast? = some '/' then a ++ b else a ++ '/' :: b

/-- `_default_socket_path`. -/
def defaultSocketPath (env : Environment) : PosixPath :=
  let runtimeDir := env.xdgRuntimeDir.getD []
  let runtimeDir := if runtimeDir = [] then env.tempDir else runtimeDir
  let kittyID := env.kittyWindowID.getD "default".toList
  pathStr (pathJoin runtimeDir ("kgd-".toList ++ kittyID ++ ".sock".toList))

/-- The socket path of `connect`. -/
def socketPath (option : PosixPath) (env : Environment) : PosixPath :=
  if option ≠ [] then option
  else if env.kgdSocket.getD [] ≠ [] then env.kgdSocket.getD []
  else defaultSocketPath env

end PythonClient

/-! ## Rust -/

namespace RustClient

/-- `PathBuf::push` of a path without root. -/
def push (path elem : PosixPath) : PosixPath :=
  if path = [] ∨ path.getLast? = some '/' then path ++ elem else path ++ '/' :: elem

/-- `resolve_socket_path`. -/
def resolveSocketPath (overridePath : PosixPath) (env : Environment) : PosixPath :=
  if overridePath ≠ [] then overridePath
  else
    let kgdSocket := env.kgdSocket.filter (· ≠ [])
    if let some val := kgdSocket then val
    else
      -- a variable that is set but empty counts as unset
      let runtimeDir := (env.xdgRuntimeDir.filter (· ≠ [])).getD env.tempDir
      let kittyID := (env.kittyWindowID.filter (· ≠ [])).getD "default".toList
      push runtimeDir ("kgd-".toList ++ kittyID ++ ".sock".toList)

end RustClient

/-! ## Node -/

namespace NodeClient

/-- `path.normalize`, which keeps a slash at the end. -/
def normalize (s : PosixPath) : PosixPath :=
  let path := clean s
  if s.getLast? = some '/' ∧ path ≠ ['/'] then path ++ ['/'] else path

/-- `path.join`. -/
def join (elems : List PosixPath) : PosixPath :=
  if joined elems = [] then dot else normalize (joined elems)

/-- The first of two values that is not empty. -/
def orElse (value : Option PosixPath) (other : PosixPath) : PosixPath :=
  (value.filter (· ≠ [])).getD other

/-- `resolveSocketPath`. -/
def resolveSocketPath (socketPath : Option PosixPath) (env : Environment) : PosixPath :=
  match socketPath.filter (· ≠ []) with
  | some path => path
  | none =>
    match env.kgdSocket.filter (· ≠ []) with
    | some envSocket => envSocket
    | none =>
      let runtimeDir := orElse env.xdgRuntimeDir env.tempDir
      let kittyID := orElse env.kittyWindowID "default".toList
      join [runtimeDir, "kgd-".toList ++ kittyID ++ ".sock".toList]

end NodeClient

end Kgd
