import Kgd.ForStd.PosixPath

/-!
# The default socket path

`DefaultPath` and `SessionKey` of `pkg/kgdsocket/socket.go`.
-/

namespace Kgd

/-- What the paths are computed from; an environment variable is none if it is not set. -/
structure Environment where
  kgdSocket : Option PosixPath
  xdgRuntimeDir : Option PosixPath
  kittyWindowID : Option PosixPath
  weztermPane : Option PosixPath
  /-- the temp directory of the system -/
  tempDir : PosixPath
  /-- what `ttyDevicePath` returns -/
  ttyDevicePath : PosixPath

namespace Kgdsocket

/-- `os.Getenv`. -/
def getenv (var : Option PosixPath) : PosixPath := var.getD []

/-- `filepath.Join`. -/
def filepathJoin (elems : List PosixPath) : PosixPath :=
  if elems.all (· == []) then [] else PosixPath.clean (PosixPath.joined elems)

/-- `SessionKey`. -/
def sessionKey (env : Environment) : PosixPath :=
  if getenv env.kittyWindowID ≠ [] then "kitty-".toList ++ getenv env.kittyWindowID
  else if getenv env.weztermPane ≠ [] then "wezterm-".toList ++ getenv env.weztermPane
  else if env.ttyDevicePath ≠ [] then
    let safe := env.ttyDevicePath.map fun c => if c = '/' then '-' else c
    -- `/dev/pts/3` gives `pts-3`
    let safe := if "-dev-".toList.isPrefixOf safe then safe.drop 5 else safe
    "tty-".toList ++ safe
  else "default".toList

/-- `DefaultPath`. -/
def defaultPath (env : Environment) : PosixPath :=
  let runtimeDir := getenv env.xdgRuntimeDir
  let runtimeDir := if runtimeDir = [] then env.tempDir else runtimeDir
  filepathJoin [runtimeDir, "kgd-".toList ++ sessionKey env ++ ".sock".toList]

end Kgdsocket

end Kgd
