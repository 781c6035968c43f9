import Kgd.Client.SocketPath

/-!
# Clients and daemon disagree on the default socket

In a kitty window, the daemon puts `kitty-` before the id of the window and no client does.

## Key results

- `rust_ne`, `python_ne`, `node_eq_iff`: for each client
- `socket_paths_differ`: all of them
-/

namespace Kgd

open PosixPath

/-- The file name of a socket. -/
def sockName (key : PosixPath) : PosixPath := "kgd-".toList ++ key ++ ".sock".toList

/-- The directory that all of them use. -/
def Environment.runtimeDir (env : Environment) : PosixPath :=
  if env.xdgRuntimeDir.getD [] = [] then env.tempDir else env.xdgRuntimeDir.getD []

/-- In a kitty window, without another socket path. -/
structure Environment.Kitty (env : Environment) (id : PosixPath) : Prop where
  kgdSocket : env.kgdSocket.getD [] = []
  windowID : env.kittyWindowID = some id
  ne_nil : id ≠ []

variable {env : Environment} {id : PosixPath}

/-! ## File names -/

theorem sockName_ne_nil (key : PosixPath) : sockName key ≠ [] := by
  simp [sockName]

/-- The components of a window's file name after the first one. -/
def idRest (id : PosixPath) : List PosixPath := (components (id ++ ".sock".toList)).tail

/-- The components of a window's file name, whatever is put before its id. -/
theorem components_sockName (id : PosixPath) :
    ∃ first, ∀ q, '/' ∉ q →
      components (sockName (q ++ id)) = ("kgd-".toList ++ q ++ first) :: idRest id := by
  -- a prefix without a slash joins the first component of the name
  have hsplit : ∀ q, '/' ∉ q → components (sockName (q ++ id)) =
      (components (id ++ ".sock".toList)).modifyHead ("kgd-".toList ++ q ++ ·) := by
    intro q hq
    have happend : sockName (q ++ id) = ("kgd-".toList ++ q) ++ (id ++ ".sock".toList) := by
      simp only [sockName, List.append_assoc]
    rw [happend]
    apply components_append_of_not_mem
    rw [List.mem_append, not_or]
    exact ⟨by decide, hq⟩
  cases hc : components (id ++ ".sock".toList) with
  | nil => exact absurd hc (List.splitOn_ne_nil _ _)
  | cons first rest =>
    have hrest : idRest id = rest := by rw [idRest, hc, List.tail_cons]
    rw [hc] at hsplit
    exact ⟨first, fun q hq => by rw [hsplit q hq, hrest, List.modifyHead_cons]⟩

/-- The first component of a socket's name is a name. -/
theorem isName_first (q first : PosixPath) : IsName ("kgd-".toList ++ q ++ first) := by
  have hhead : ("kgd-".toList ++ q ++ first).head? = some 'k' := rfl
  refine ⟨?_, ?_, ?_⟩
  all_goals
    intro heq
    rw [heq] at hhead
    exact absurd hhead (by decide)

/-- The name in the daemon's path is another one. -/
theorem first_ne (first : PosixPath) :
    "kgd-".toList ++ "kitty-".toList ++ first ≠ "kgd-".toList ++ [] ++ first := by
  intro heq
  have hlen := congrArg List.length heq
  simp only [List.length_append] at hlen
  have hkitty : "kitty-".toList.length = 6 := rfl
  simp only [hkitty, List.length_nil] at hlen
  omega

/-! ## Paths in a kitty window -/

/-- The daemon's path in a Kitty window. -/
theorem defaultPath_eq (h : env.Kitty id) :
    Kgdsocket.defaultPath env =
      clean (joined [env.runtimeDir, sockName ("kitty-".toList ++ id)]) := by
  have hkey : Kgdsocket.sessionKey env = "kitty-".toList ++ id := by
    have hid : Kgdsocket.getenv env.kittyWindowID = id := by rw [h.windowID]; rfl
    unfold Kgdsocket.sessionKey
    rw [hid, if_pos h.ne_nil]
  rw [Kgdsocket.defaultPath, hkey, Kgdsocket.filepathJoin]
  show (if ([env.runtimeDir, sockName ("kitty-".toList ++ id)]).all (· == []) = true then _
    else _) = _
  rw [if_neg (by simp [sockName_ne_nil])]
  rfl

/-- A variable that is set to something, or else a default. -/
theorem getD_filter (v : Option PosixPath) (w : PosixPath) :
    (v.filter (· ≠ [])).getD w = if v.getD [] = [] then w else v.getD [] := by
  cases v with
  | none => rfl
  | some v => by_cases hv : v = [] <;> simp [hv, Option.filter]

/-- In a Kitty window without `KGD_SOCKET` there is no path to prefer. -/
theorem filter_kgdSocket (h : env.Kitty id) : env.kgdSocket.filter (· ≠ []) = none := by
  cases hs : env.kgdSocket with
  | none => rfl
  | some s =>
    have hempty := h.kgdSocket
    rw [hs] at hempty
    simpa using hempty

/-- In a Kitty window its ID is the key of the name. -/
theorem getD_windowID (h : env.Kitty id) (w : PosixPath) :
    (env.kittyWindowID.filter (· ≠ [])).getD w = id := by
  rw [getD_filter, h.windowID, Option.getD_some, if_neg h.ne_nil]

/-- The Rust client's path in a Kitty window. -/
theorem rust_eq (h : env.Kitty id) :
    RustClient.resolveSocketPath [] env = RustClient.push env.runtimeDir (sockName id) := by
  unfold RustClient.resolveSocketPath
  rw [if_neg (by simp), filter_kgdSocket h]
  dsimp only
  rw [getD_windowID h, getD_filter]
  rfl

/-- The Python client's path in a Kitty window. -/
theorem python_eq (h : env.Kitty id) :
    PythonClient.socketPath [] env =
      PythonClient.pathStr (PythonClient.pathJoin env.runtimeDir (sockName id)) := by
  rw [PythonClient.socketPath, if_neg (by simp), if_neg (by simp [h.kgdSocket]),
    PythonClient.defaultSocketPath, h.windowID]
  rfl

/-- The Node client's path in a Kitty window. -/
theorem node_eq (h : env.Kitty id) :
    NodeClient.resolveSocketPath none env = clean (joined [env.runtimeDir, sockName id]) := by
  have hjoined := joined_pair (d := env.runtimeDir) (sockName_ne_nil id)
  have hne : joined [env.runtimeDir, sockName id] ≠ [] := by
    rw [hjoined]
    split
    · exact sockName_ne_nil id
    · simp
  -- the path ends with the suffix of the file name
  have hlast : (joined [env.runtimeDir, sockName id]).getLast? ≠ some '/' := by
    have hsuffix : [('k' : Char)] <:+ joined [env.runtimeDir, sockName id] := by
      have hname : [('k' : Char)] <:+ sockName id :=
        ⟨"kgd-".toList ++ id ++ ".soc".toList, by simp [sockName]⟩
      rw [hjoined]
      split
      · exact hname
      · exact hname.trans ((List.suffix_cons _ _).trans (List.suffix_append _ _))
    obtain ⟨front, hfront⟩ := hsuffix
    rw [← hfront, List.getLast?_concat]
    decide
  rw [NodeClient.resolveSocketPath, filter_kgdSocket h]
  dsimp only [Option.filter_none]
  rw [NodeClient.orElse, NodeClient.orElse, getD_windowID h, getD_filter]
  show NodeClient.join [env.runtimeDir, sockName id] = _
  rw [NodeClient.join, if_neg hne, NodeClient.normalize]
  exact if_neg fun h => hlast h.1

/-! ## The daemon and the clients -/

/-- Pushing a name keeps its components last. -/
theorem components_push (d n : PosixPath) :
    ∃ front, components (RustClient.push d n) = front ++ components n := by
  rw [RustClient.push]
  split
  · rename_i hd
    rcases hd with rfl | hd
    · exact ⟨[], rfl⟩
    · obtain ⟨d', rfl⟩ := List.getLast?_eq_some_iff.mp hd
      exact ⟨components d', by rw [List.append_assoc, List.singleton_append,
        components_append_slash]⟩
  · exact ⟨components d, components_append_slash d n⟩

/-- The Rust client never finds the daemon's path. -/
theorem rust_ne (h : env.Kitty id) :
    RustClient.resolveSocketPath [] env ≠ Kgdsocket.defaultPath env := by
  obtain ⟨first, hfirst⟩ := components_sockName id
  obtain ⟨front, hfront⟩ := components_push env.runtimeDir (sockName id)
  obtain ⟨front', hfront'⟩ := components_joined (d := env.runtimeDir)
  have ht := hfirst [] nofun
  rw [List.nil_append] at ht
  rw [ht] at hfront
  have hs := hfront' _ (sockName_ne_nil ("kitty-".toList ++ id))
  -- the daemon's name has `kitty-` in it, and the client's has not
  rw [hfirst "kitty-".toList (by decide)] at hs
  rw [rust_eq h, defaultPath_eq h]
  exact (clean_ne_of_name hs hfront rfl (isName_first _ _) (isName_first _ _)
    (first_ne first)).symm

/-- The components of a `Path` as text: those that count, after its root. -/
theorem components_pathStr {s : PosixPath} {c : PosixPath} (hc : c ∈ (components s).filter Counts) :
    ∃ front, components (PythonClient.pathStr s) = front ++ (components s).filter Counts := by
  have hne : (components s).filter Counts ≠ [] := List.ne_nil_of_mem hc
  have hslash : ∀ c ∈ (components s).filter Counts, '/' ∉ c :=
    fun c hc => slash_not_mem_components s c (List.mem_of_mem_filter hc)
  have hsplit : components (['/'].intercalate ((components s).filter Counts)) =
      (components s).filter Counts := List.splitOn_intercalate '/' hslash hne
  have hformatted : ['/'].intercalate ((components s).filter Counts) ≠ [] := by
    intro heq
    rw [heq] at hsplit
    -- the only component of nothing is empty, and does not count
    rw [← hsplit] at hc
    obtain rfl : c = [] := List.mem_singleton.mp hc
    rw [hsplit, List.mem_filter] at hc
    exact absurd hc.2 (by decide)
  have hcons : ∀ t, components ('/' :: t) = [] :: components t := components_append_slash []
  rw [PythonClient.pathStr, if_neg (by simp [hformatted]), PythonClient.root]
  split_ifs with hroot htwo
  · exact ⟨[], hsplit⟩
  · refine ⟨[[], []], ?_⟩
    rw [List.cons_append, List.cons_append, hcons, hcons, List.nil_append, hsplit]
    rfl
  · refine ⟨[[]], ?_⟩
    rw [List.cons_append, hcons, List.nil_append, hsplit]
    rfl

/-- The Python client never finds the daemon's path. -/
theorem python_ne (h : env.Kitty id) :
    PythonClient.socketPath [] env ≠ Kgdsocket.defaultPath env := by
  obtain ⟨first, hfirst⟩ := components_sockName id
  -- a path is joined as in the Rust client
  obtain ⟨front, hfront⟩ : ∃ front,
      components (PythonClient.pathJoin env.runtimeDir (sockName id)) =
        front ++ components (sockName id) := components_push env.runtimeDir (sockName id)
  obtain ⟨front', hfront'⟩ := components_joined (d := env.runtimeDir)
  have ht := hfirst [] nofun
  rw [List.nil_append] at ht
  have hname := isName_first [] first
  have hfilter : (components (PythonClient.pathJoin env.runtimeDir (sockName id))).filter Counts =
      front.filter Counts ++ ("kgd-".toList ++ [] ++ first) :: (idRest id).filter Counts := by
    rw [hfront, ht, List.filter_append, List.filter_cons, if_pos (counts_of_name hname)]
  obtain ⟨before, hbefore⟩ := components_pathStr
    (hfilter ▸ List.mem_append_right _ List.mem_cons_self)
  rw [hfilter, ← List.append_assoc] at hbefore
  have hs := hfront' _ (sockName_ne_nil ("kitty-".toList ++ id))
  rw [hfirst "kitty-".toList (by decide)] at hs
  have hrest : ((idRest id).filter Counts).filter Counts = (idRest id).filter Counts := by
    rw [List.filter_filter]
    simp
  rw [python_eq h, defaultPath_eq h]
  exact (clean_ne_of_name hs hbefore hrest hname (isName_first _ _) (first_ne first)).symm

/-- The Node client finds the daemon's path exactly if the id leads out of the directory that its
    first component names. -/
theorem node_eq_iff (h : env.Kitty id) :
    NodeClient.resolveSocketPath none env = Kgdsocket.defaultPath env ↔
      leaves 0 (idRest id) = true := by
  obtain ⟨first, hfirst⟩ := components_sockName id
  obtain ⟨front, hfront⟩ := components_joined (d := env.runtimeDir)
  have hs := hfront _ (sockName_ne_nil id)
  have ht := hfront _ (sockName_ne_nil ("kitty-".toList ++ id))
  have hid := hfirst [] nofun
  rw [List.nil_append] at hid
  rw [hid] at hs
  rw [hfirst "kitty-".toList (by decide)] at ht
  -- both paths begin with the runtime directory
  have hroot : isRooted (joined [env.runtimeDir, sockName id]) =
      isRooted (joined [env.runtimeDir, sockName ("kitty-".toList ++ id)]) := by
    rw [joined_pair (sockName_ne_nil _), joined_pair (sockName_ne_nil _)]
    cases env.runtimeDir <;> rfl
  rw [node_eq h, defaultPath_eq h]
  exact clean_eq_iff_leaves hroot hs ht (isName_first _ _) (isName_first _ _) (first_ne first).symm

/-- In a kitty window no environment leads all clients to the daemon's socket: the Python and the
    Rust client never find it, and the Node client only for an id with a path in it that leads out
    of its own directory. -/
theorem socket_paths_differ (h : env.Kitty id) :
    PythonClient.socketPath [] env ≠ Kgdsocket.defaultPath env ∧
    RustClient.resolveSocketPath [] env ≠ Kgdsocket.defaultPath env ∧
    (NodeClient.resolveSocketPath none env = Kgdsocket.defaultPath env ↔
      leaves 0 (idRest id) = true) :=
  ⟨python_ne h, rust_ne h, node_eq_iff h⟩

/-- The first window of kitty. -/
def firstWindow : Environment where
  kgdSocket := none
  xdgRuntimeDir := some "/run/user/1000".toList
  kittyWindowID := some "1".toList
  weztermPane := none
  tempDir := "/tmp".toList
  ttyDevicePath := []

/-- The first window, with the usual runtime directory. -/
theorem socket_paths_differ_firstWindow :
    Kgdsocket.defaultPath firstWindow = "/run/user/1000/kgd-kitty-1.sock".toList ∧
    PythonClient.socketPath [] firstWindow ≠ Kgdsocket.defaultPath firstWindow ∧
    NodeClient.resolveSocketPath none firstWindow ≠ Kgdsocket.defaultPath firstWindow := by
  have hkitty : firstWindow.Kitty "1".toList := ⟨rfl, rfl, by decide⟩
  obtain ⟨hpython, -, hnode⟩ := socket_paths_differ hkitty
  refine ⟨by decide, hpython, fun heq => ?_⟩
  exact absurd (hnode.mp heq) (by decide)

/-- All clients look for the same socket, and the daemon makes another one. -/
theorem firstWindow_sockets :
    firstWindow.Kitty "1".toList ∧
    PythonClient.socketPath [] firstWindow = "/run/user/1000/kgd-1.sock".toList ∧
    RustClient.resolveSocketPath [] firstWindow = "/run/user/1000/kgd-1.sock".toList ∧
    NodeClient.resolveSocketPath none firstWindow = "/run/user/1000/kgd-1.sock".toList ∧
    Kgdsocket.defaultPath firstWindow ≠ "/run/user/1000/kgd-1.sock".toList :=
  ⟨⟨rfl, rfl, by decide⟩, by decide, by decide, by decide,
    by decide⟩

end Kgd
