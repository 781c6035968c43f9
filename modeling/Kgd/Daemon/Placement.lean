import Kgd.Daemon.Protocol

/-!
# Placements and their screen position

`internal/engine/placement.go`: a placed image, the pane and window geometry it can be
anchored to, and `ScreenPos`, which resolves an anchor to terminal coordinates.
-/

namespace Kgd

/-- A tmux pane's position and size in terminal coordinates. -/
structure PaneGeometry where
  id : String
  top : Int64
  left : Int64
  width : Int64
  height : Int64
  /-- whether the pane's window is the active tmux window -/
  active : Bool
  deriving DecidableEq, Repr, Inhabited

/-- A neovim window's position within a pane, and the client that registered it. -/
structure WinGeometry where
  winID : Int64
  clientID : ClientID
  paneID : String
  top : Int64
  left : Int64
  width : Int64
  height : Int64
  scrollTop : Int64
  deriving DecidableEq, Repr, Inhabited

/-- A placed image on the terminal. -/
structure Placement where
  id : UInt32
  clientID : ClientID
  imageHandle : UInt32
  kittyImgID : UInt32
  anchor : Anchor
  width : Int64
  height : Int64
  srcX : Int64
  srcY : Int64
  srcW : Int64
  srcH : Int64
  zIndex : Int32
  /-- resolved terminal coordinates, recomputed on topology changes -/
  termRow : Int64
  termCol : Int64
  /-- whether this placement is currently visible on screen -/
  visible : Bool
  /-- whether the placement has been rendered to the TTY -/
  rendered : Bool
  deriving DecidableEq, Repr, Inhabited

/-- What `ScreenPos` returns: 0-based row and column, and visibility. -/
structure ScreenPos where
  row : Int64
  col : Int64
  visible : Bool
  deriving DecidableEq, Repr

/-- The result for an anchor that cannot be shown: `return 0, 0, false`. -/
def ScreenPos.hidden : ScreenPos := ⟨0, 0, false⟩

namespace Anchor

/-- The `"absolute"` case: a bound of 0 means the terminal size is unknown. -/
def absolutePos (a : Anchor) (termRows termCols : Int64) : ScreenPos :=
  let visible := decide (0 ≤ a.row) && decide (0 ≤ a.col)
  let visible := if 0 < termRows then visible && decide (a.row < termRows) else visible
  let visible := if 0 < termCols then visible && decide (a.col < termCols) else visible
  ⟨a.row, a.col, visible⟩

/-- The `"pane"` case: offsets within the pane, hidden in a non-active tmux window. -/
def panePos (a : Anchor) (panes : GoMap String PaneGeometry) : ScreenPos :=
  match panes[a.paneID]? with
  | none => .hidden
  | some pane =>
    if !pane.active then .hidden
    else
      -- outside the pane the position is kept and the flag is false
      ⟨pane.top + a.row, pane.left + a.col,
        decide (0 ≤ a.row) && decide (a.row < pane.height) &&
          decide (0 ≤ a.col) && decide (a.col < pane.width)⟩

/-- The `"nvim_win"` case once the window is known. -/
def winPos (a : Anchor) (panes : GoMap String PaneGeometry) (win : WinGeometry) : ScreenPos :=
  let relRow := a.bufLine - win.scrollTop
  if relRow < 0 || win.height ≤ relRow then .hidden
  else
    let row := win.top + relRow
    let col := win.left + a.col
    -- inside tmux the window's place is relative to its pane
    if win.paneID != "" then
      match panes[win.paneID]? with
      | none => .hidden
      | some pane =>
        if !pane.active then .hidden
        else
          -- clipped to the pane, not to the terminal
          let row := row + pane.top
          let col := col + pane.left
          if row < pane.top || pane.top + pane.height ≤ row ||
              col < pane.left || pane.left + pane.width ≤ col then .hidden
          else ⟨row, col, true⟩
    else ⟨row, col, true⟩

/-- The anchor resolution of `(*Placement).ScreenPos`; it reads nothing else of the
    placement. -/
def screenPos (a : Anchor) (panes : GoMap String PaneGeometry) (wins : GoMap Int64 WinGeometry)
    (termRows termCols : Int64) : ScreenPos :=
  match a.type with
  | "absolute" => a.absolutePos termRows termCols
  | "pane" => a.panePos panes
  | "nvim_win" =>
    match wins[a.winID]? with
    | none => .hidden
    | some win => a.winPos panes win
  -- a type the daemon does not know
  | _ => .hidden

end Anchor

/-- `(*Placement).ScreenPos`. -/
def Placement.screenPos (p : Placement) (panes : GoMap String PaneGeometry)
    (wins : GoMap Int64 WinGeometry) (termRows termCols : Int64) : ScreenPos :=
  p.anchor.screenPos panes wins termRows termCols

/-- The resolved coordinates stored in a placement. -/
def Placement.resolved (p : Placement) : ScreenPos := ⟨p.termRow, p.termCol, p.visible⟩

/-- An anchor to a window resolves through that window's registration only. -/
theorem Anchor.screenPos_nvimWin {a : Anchor} (ha : a.type = "nvim_win")
    (panes : GoMap String PaneGeometry) (wins : GoMap Int64 WinGeometry) (rows cols : Int64) :
    a.screenPos panes wins rows cols =
      (wins[a.winID]?.map (a.winPos panes)).getD .hidden := by
  simp only [screenPos, ha]
  cases wins[a.winID]? <;> rfl

/-- An anchor of another kind does not read the windows. -/
theorem Anchor.screenPos_of_ne {a : Anchor} (ha : a.type ≠ "nvim_win")
    (panes : GoMap String PaneGeometry) (wins wins' : GoMap Int64 WinGeometry)
    (rows cols : Int64) :
    a.screenPos panes wins rows cols = a.screenPos panes wins' rows cols := by
  unfold screenPos
  split
  · rfl
  · rfl
  · exact absurd (by assumption) ha
  · rfl

example : ({ type := "absolute", paneID := "", winID := 0, bufLine := 0, row := 3, col := 4 } :
    Anchor).screenPos ∅ ∅ 24 80 = ⟨3, 4, true⟩ := by decide

end Kgd
