import Kgd.Daemon.TTYGraphics
import Kgd.ForStd.Int64

/-!
# Visible means on screen

What `ScreenPos` calls visible, against where the anchored cell lies (`Anchor.OnScreen`, in
unbounded integers). The branch for editor windows looks at the rows of the window and not at its
columns, and the sums wrap around at 64 bits. `Anchor.visible_iff` says for every anchor and
geometry whether the two agree.

## Key results

- `Anchor.visible_iff`
- `Anchor.visible_fails`: a column left of the terminal
-/

namespace Kgd

/-! ## Rectangles -/

/-- A rectangle of cells. -/
structure Rect where
  top : Int
  left : Int
  height : Int
  width : Int

/-- The cell lies in the rectangle. -/
def Rect.Contains (r : Rect) (row col : Int) : Prop :=
  (r.top ≤ row ∧ row < r.top + r.height) ∧ r.left ≤ col ∧ col < r.left + r.width

def PaneGeometry.rect (p : PaneGeometry) : Rect :=
  ⟨p.top.toInt, p.left.toInt, p.height.toInt, p.width.toInt⟩

def WinGeometry.rect (w : WinGeometry) : Rect :=
  ⟨w.top.toInt, w.left.toInt, w.height.toInt, w.width.toInt⟩

/-- No coordinate or extent is negative. -/
def Rect.NonNeg (r : Rect) : Prop := (0 ≤ r.top ∧ 0 ≤ r.left) ∧ 0 ≤ r.height ∧ 0 ≤ r.width

/-- The last row and column, and the ones after them, are 64-bit integers. -/
def Rect.Fits (r : Rect) : Prop := r.top + r.height < 2 ^ 63 ∧ r.left + r.width < 2 ^ 63

namespace Anchor

/-! ## The anchored cell -/

/-- The line of the window that the anchor is on, the scroll offset taken off. -/
def line (a : Anchor) (win : WinGeometry) : Int := a.bufLine.toInt - win.scrollTop.toInt

/-- The cell of an anchor to a window lies in the window and, where there is one, in its pane,
    which is active. -/
def InWindow (a : Anchor) (panes : GoMap String PaneGeometry) (win : WinGeometry) : Prop :=
  win.rect.Contains (win.rect.top + a.line win) (win.rect.left + a.col.toInt) ∧
    (win.paneID ≠ "" → ∃ pane, panes[win.paneID]? = some pane ∧ pane.active = true ∧
      pane.rect.Contains (pane.rect.top + (win.rect.top + a.line win))
        (pane.rect.left + (win.rect.left + a.col.toInt)))

/-- The anchored cell lies in every rectangle around it. A terminal size of 0 is not known. -/
def OnScreen (a : Anchor) (panes : GoMap String PaneGeometry) (wins : GoMap Int64 WinGeometry)
    (termRows termCols : Int64) : Prop :=
  match a.type with
  | "absolute" =>
    (0 ≤ a.row.toInt ∧ 0 ≤ a.col.toInt) ∧
      (0 < termRows.toInt → a.row.toInt < termRows.toInt) ∧
      (0 < termCols.toInt → a.col.toInt < termCols.toInt)
  | "pane" =>
    ∃ pane, panes[a.paneID]? = some pane ∧ pane.active = true ∧
      pane.rect.Contains (pane.rect.top + a.row.toInt) (pane.rect.left + a.col.toInt)
  | "nvim_win" => ∃ win, wins[a.winID]? = some win ∧ a.InWindow panes win
  | _ => False

/-- `ScreenPos` says visible exactly for an anchor that is on screen, and then gives a position
    for which a command is sent. -/
def ShowsRight (a : Anchor) (panes : GoMap String PaneGeometry) (wins : GoMap Int64 WinGeometry)
    (termRows termCols : Int64) : Prop :=
  let pos := a.screenPos panes wins termRows termCols
  (pos.visible = true ↔ a.OnScreen panes wins termRows termCols) ∧
    (pos.visible = true → (0 ≤ pos.row ∧ 0 ≤ pos.col) ∧
      ∀ imageID placementID info,
        (TTYGraphics.placeCommand imageID placementID pos.row pos.col info).serialize ≠ [])

/-! ## Where the branches go right -/

/-- The column is one of the window's, and the anchor is not above the first line shown. -/
def InColumns (a : Anchor) (win : WinGeometry) : Prop :=
  0 ≤ a.line win ∧ 0 ≤ a.col.toInt ∧ a.col.toInt < win.width.toInt

/-- For an anchor to a window whose line, computed with 64 bits, is one of the window's: outside
    of a pane the column is one of the window's and the position fits 64 bits; in an active pane
    that contains the cell the column is one of the window's, unless the end of the pane does not
    fit 64 bits. -/
def WinRight (a : Anchor) (panes : GoMap String PaneGeometry) (win : WinGeometry) : Prop :=
  0 ≤ a.bufLine - win.scrollTop → a.bufLine - win.scrollTop < win.height →
    (win.paneID = "" → a.InColumns win ∧ win.rect.top + a.line win < 2 ^ 63 ∧
      win.rect.left + a.col.toInt < 2 ^ 63) ∧
    (win.paneID ≠ "" → ∀ pane, panes[win.paneID]? = some pane → pane.active = true →
      pane.rect.Contains (pane.rect.top + (win.rect.top + (a.bufLine - win.scrollTop).toInt))
        (pane.rect.left + (win.rect.left + a.col.toInt)) → (a.InColumns win ↔ pane.rect.Fits))

/-- An anchor to an active pane that contains the cell has a position that fits 64 bits. -/
def PaneRight (a : Anchor) (pane : PaneGeometry) : Prop :=
  pane.active = true →
    pane.rect.Contains (pane.rect.top + a.row.toInt) (pane.rect.left + a.col.toInt) →
    pane.rect.top + a.row.toInt < 2 ^ 63 ∧ pane.rect.left + a.col.toInt < 2 ^ 63

/-- When `ScreenPos` goes right, as a condition on the anchor and the geometry. -/
def Right (a : Anchor) (panes : GoMap String PaneGeometry) (wins : GoMap Int64 WinGeometry) :
    Prop :=
  match a.type with
  | "pane" => ∀ pane, panes[a.paneID]? = some pane → a.PaneRight pane
  | "nvim_win" => ∀ win, wins[a.winID]? = some win → a.WinRight panes win
  | _ => True

/-! ## The branches -/

section Branches
variable {a : Anchor} {panes : GoMap String PaneGeometry} {wins : GoMap Int64 WinGeometry}
  {termRows termCols : Int64}

/-- A number of 64 bits is not negative exactly if its integer is not. -/
theorem zero_le_iff {x : Int64} : 0 ≤ x ↔ 0 ≤ x.toInt := Int64.le_iff_toInt_le

/-- For a position in the terminal's quadrant a command is sent. -/
theorem serialize_ne_nil {row col : Int64} (hrow : 0 ≤ row) (hcol : 0 ≤ col)
    (imageID placementID : UInt32) (info : GfxPlacementInfo) :
    (TTYGraphics.placeCommand imageID placementID row col info).serialize ≠ [] := by
  have hpos : ¬ (row < 0 ∨ col < 0) := by
    rw [Int64.lt_iff_toInt_lt, Int64.lt_iff_toInt_lt]
    rw [zero_le_iff] at hrow hcol
    have hzero : (0 : Int64).toInt = 0 := rfl
    omega
  intro hnil
  rw [PlaceCommand.serialize, TTYGraphics.placeCommand, if_neg hpos] at hnil
  simp only [bytes_append, List.append_eq_nil_iff] at hnil
  exact absurd hnil.2 (by decide)

/-- The branch for terminal coordinates. -/
theorem visible_absolutePos :
    (a.absolutePos termRows termCols).visible = true ↔ (0 ≤ a.row.toInt ∧ 0 ≤ a.col.toInt) ∧
      (0 < termRows.toInt → a.row.toInt < termRows.toInt) ∧
      (0 < termCols.toInt → a.col.toInt < termCols.toInt) := by
  simp only [absolutePos, zero_le_iff, Int64.lt_iff_toInt_lt]
  have hzero : (0 : Int64).toInt = 0 := rfl
  rw [hzero]
  by_cases hrows : 0 < termRows.toInt
  all_goals
    by_cases hcols : 0 < termCols.toInt
    all_goals
      simp [hrows, hcols]
      try tauto

/-- The branch for panes. -/
theorem visible_panePos :
    (a.panePos panes).visible = true ↔ ∃ pane, panes[a.paneID]? = some pane ∧
      pane.active = true ∧
      pane.rect.Contains (pane.rect.top + a.row.toInt) (pane.rect.left + a.col.toInt) := by
  unfold panePos
  cases hpane : panes[a.paneID]? with
  | none => simp [ScreenPos.hidden]
  | some pane =>
    cases hactive : pane.active with
    | false => simp [ScreenPos.hidden, hactive]
    | true =>
      -- adding the pane's corner on both sides changes nothing
      have hzero : (0 : Int64).toInt = 0 := rfl
      simp [hactive, Rect.Contains, PaneGeometry.rect, zero_le_iff, Int64.lt_iff_toInt_lt]
      tauto

/-- Whether a wrapped sum lies in a wrapped range: where the range ends within 64 bits, exactly
    if the sum lies in it; elsewhere never. -/
theorem wrapped_inRange {start len x y : Int64} (hstart : 0 ≤ start.toInt) (hlen : 0 ≤ len.toInt)
    (hx : 0 ≤ x.toInt) :
    (start ≤ x + y + start ∧ x + y + start < start + len) ↔
      start.toInt + len.toInt < 2 ^ 63 ∧
        start.toInt ≤ start.toInt + (x.toInt + y.toInt) ∧
        start.toInt + (x.toInt + y.toInt) < start.toInt + len.toInt := by
  obtain ⟨k, hk⟩ := Int64.exists_toInt_add start len
  obtain ⟨j, hj⟩ := Int64.exists_toInt_add x y
  obtain ⟨i, hi⟩ := Int64.exists_toInt_add (x + y) start
  have hend := Int64.le_toInt (start + len)
  have hend' := Int64.toInt_lt (start + len)
  have hsum := Int64.le_toInt (x + y)
  have hsum' := Int64.toInt_lt (x + y)
  have hpos := Int64.le_toInt (x + y + start)
  have hpos' := Int64.toInt_lt (x + y + start)
  have hx' := Int64.toInt_lt x
  have hy := Int64.le_toInt y
  have hy' := Int64.toInt_lt y
  have hstart' := Int64.toInt_lt start
  have hlen' := Int64.toInt_lt len
  -- both sums are one wrap away from the true ones, and `omega` tries the wraps
  rw [Int64.le_iff_toInt_le, Int64.lt_iff_toInt_lt]
  omega

/-- The test of the code for a cell in a pane. -/
theorem inside_iff {pane : PaneGeometry} {win : WinGeometry} (hwin : win.rect.NonNeg)
    (hpane : pane.rect.NonNeg) (line col : Int64) :
    (pane.rect.Fits ∧ pane.rect.Contains (pane.rect.top + (win.rect.top + line.toInt))
        (pane.rect.left + (win.rect.left + col.toInt))) ↔
      (pane.top ≤ win.top + line + pane.top ∧
        win.top + line + pane.top < pane.top + pane.height) ∧
      pane.left ≤ win.left + col + pane.left ∧
        win.left + col + pane.left < pane.left + pane.width := by
  -- rows and columns are clipped alike
  have hrow := wrapped_inRange (y := line) hpane.1.1 hpane.2.1 hwin.1.1
  have hcol := wrapped_inRange (y := col) hpane.1.2 hpane.2.2 hwin.1.2
  constructor
  · intro h
    obtain ⟨⟨hbottom, hright⟩, hrows, hcols⟩ := h
    exact ⟨hrow.mpr ⟨hbottom, hrows⟩, hcol.mpr ⟨hright, hcols⟩⟩
  · intro h
    obtain ⟨hrows, hcols⟩ := h
    obtain ⟨hbottom, hrows⟩ := hrow.mp hrows
    obtain ⟨hright, hcols⟩ := hcol.mp hcols
    exact ⟨⟨hbottom, hright⟩, hrows, hcols⟩

theorem not_lt_iff {x y : Int64} : ¬ x < y ↔ y ≤ x := by
  rw [Int64.lt_iff_toInt_lt, Int64.le_iff_toInt_le, not_lt]

theorem not_le_iff {x y : Int64} : ¬ x ≤ y ↔ y < x := by
  rw [Int64.lt_iff_toInt_lt, Int64.le_iff_toInt_le, not_le]

section Win
variable {win : WinGeometry}

/-- A line outside of the window. -/
theorem winPos_of_not
    (hrows : ¬ (0 ≤ a.bufLine - win.scrollTop ∧ a.bufLine - win.scrollTop < win.height)) :
    a.winPos panes win = .hidden := by
  have hout : (decide (a.bufLine - win.scrollTop < 0) ||
      decide (win.height ≤ a.bufLine - win.scrollTop)) = true := by
    simp only [Bool.or_eq_true, decide_eq_true_eq]
    simp only [Int64.lt_iff_toInt_lt, Int64.le_iff_toInt_le] at hrows ⊢
    omega
  unfold winPos
  simp only [hout, ↓reduceIte]

section Rows
variable (hrows : 0 ≤ a.bufLine - win.scrollTop ∧ a.bufLine - win.scrollTop < win.height)
include hrows

/-- A line that the window shows passes the checks on its row. -/
theorem rows_false : (decide (a.bufLine - win.scrollTop < 0) ||
    decide (win.height ≤ a.bufLine - win.scrollTop)) = false := by
  rw [Bool.or_eq_false_iff, decide_eq_false_iff_not, decide_eq_false_iff_not, not_lt_iff,
    not_le_iff]
  exact hrows

/-- A line of a window outside of any pane. -/
theorem winPos_noPane (hpaneID : win.paneID = "") :
    a.winPos panes win =
      ⟨win.top + (a.bufLine - win.scrollTop), win.left + a.col, true⟩ := by
  unfold winPos
  simp [rows_false hrows, hpaneID]

/-- A line of a window in a pane that is not there or not active. -/
theorem winPos_hidden (hpaneID : win.paneID ≠ "")
    (hpane : ∀ pane, panes[win.paneID]? = some pane → pane.active = false) :
    a.winPos panes win = .hidden := by
  unfold winPos
  simp only [rows_false hrows, Bool.false_eq_true, ↓reduceIte, bne_iff_ne, hpaneID, ne_eq,
    not_false_eq_true]
  cases hp : panes[win.paneID]? with
  | none => rfl
  | some pane => simp [hpane pane hp]

/-- A line of a window in an active pane. -/
theorem winPos_pane (hpaneID : win.paneID ≠ "") {pane : PaneGeometry}
    (hpane : panes[win.paneID]? = some pane) (hactive : pane.active = true) :
    a.winPos panes win =
      if (pane.top ≤ win.top + (a.bufLine - win.scrollTop) + pane.top ∧
          win.top + (a.bufLine - win.scrollTop) + pane.top < pane.top + pane.height) ∧
        pane.left ≤ win.left + a.col + pane.left ∧
          win.left + a.col + pane.left < pane.left + pane.width
      then ⟨win.top + (a.bufLine - win.scrollTop) + pane.top, win.left + a.col + pane.left, true⟩
      else .hidden := by
  unfold winPos
  simp only [rows_false hrows, Bool.false_eq_true, ↓reduceIte, bne_iff_ne, hpaneID, ne_eq,
    not_false_eq_true, hpane, hactive, Bool.not_true]
  -- the code asks for a cell outside, the statement for one inside
  split
  · rename_i hout
    rw [if_neg]
    simp only [Bool.or_eq_true, decide_eq_true_eq] at hout
    simp only [Int64.lt_iff_toInt_lt, Int64.le_iff_toInt_le] at hout ⊢
    omega
  · rename_i hin
    rw [if_pos]
    simp only [Bool.or_eq_true, decide_eq_true_eq] at hin
    simp only [Int64.lt_iff_toInt_lt, Int64.le_iff_toInt_le] at hin ⊢
    omega

end Rows

end Win

/-- The line without wrap-around, where the anchor is not above the first line shown. -/
theorem line_eq {win : WinGeometry} (hline : 0 ≤ a.line win)
    (hwrapped : 0 ≤ a.bufLine - win.scrollTop) :
    (a.bufLine - win.scrollTop).toInt = a.line win := by
  obtain ⟨k, hk⟩ := Int64.exists_toInt_sub a.bufLine win.scrollTop
  have hlt := Int64.toInt_lt (a.bufLine - win.scrollTop)
  have hbuf := Int64.toInt_lt a.bufLine
  have hscroll := Int64.le_toInt win.scrollTop
  rw [zero_le_iff] at hwrapped
  unfold line at hline ⊢
  omega

/-- A line of the window is computed without wrap-around. -/
theorem line_of_lt {win : WinGeometry} (hline : 0 ≤ a.line win)
    (hlt : a.line win < win.height.toInt) :
    0 ≤ a.bufLine - win.scrollTop ∧ a.bufLine - win.scrollTop < win.height := by
  obtain ⟨k, hk⟩ := Int64.exists_toInt_sub a.bufLine win.scrollTop
  have hle' := Int64.le_toInt (a.bufLine - win.scrollTop)
  have hlt' := Int64.toInt_lt (a.bufLine - win.scrollTop)
  have hheight := Int64.toInt_lt win.height
  rw [zero_le_iff, Int64.lt_iff_toInt_lt]
  unfold line at hline hlt
  omega

/-- A cell of the window, for an anchor whose line is in the window. -/
theorem inWindow_iff {win : WinGeometry}
    (hrows : 0 ≤ a.bufLine - win.scrollTop ∧ a.bufLine - win.scrollTop < win.height) :
    a.InWindow panes win ↔ a.InColumns win ∧
      (win.paneID ≠ "" → ∃ pane, panes[win.paneID]? = some pane ∧ pane.active = true ∧
        pane.rect.Contains (pane.rect.top + (win.rect.top + (a.bufLine - win.scrollTop).toInt))
          (pane.rect.left + (win.rect.left + a.col.toInt))) := by
  have hheight := Int64.lt_iff_toInt_lt.mp hrows.2
  -- the row is in range already, only the columns say something
  have hcontains : win.rect.Contains (win.rect.top + a.line win) (win.rect.left + a.col.toInt) ↔
      a.InColumns win := by
    simp only [Rect.Contains, InColumns, WinGeometry.rect]
    constructor
    · intro h
      omega
    · intro h
      have hline := line_eq h.1 hrows.1
      omega
  unfold InWindow
  rw [hcontains]
  refine and_congr_right fun hcolumns => ?_
  rw [line_eq hcolumns.1 hrows.1]

/-- A sum that does not wrap around is not negative. -/
theorem zero_le_add_iff {x y : Int64} (hx : 0 ≤ x.toInt) (hy : 0 ≤ y.toInt) :
    0 ≤ x + y ↔ x.toInt + y.toInt < 2 ^ 63 := by
  obtain ⟨k, hk⟩ := Int64.exists_toInt_add x y
  have hle := Int64.le_toInt (x + y)
  have hlt := Int64.toInt_lt (x + y)
  have hx' := Int64.toInt_lt x
  have hy' := Int64.toInt_lt y
  rw [zero_le_iff]
  omega

/-- A window outside of any pane: visible whatever the column is. -/
theorem winRight_noPane {win : WinGeometry} (hwin : win.rect.NonNeg)
    (hrows : 0 ≤ a.bufLine - win.scrollTop ∧ a.bufLine - win.scrollTop < win.height)
    (hpaneID : win.paneID = "") :
    (((a.winPos panes win).visible = true ↔ a.InWindow panes win) ∧
      ((a.winPos panes win).visible = true →
        0 ≤ (a.winPos panes win).row ∧ 0 ≤ (a.winPos panes win).col)) ↔ a.WinRight panes win := by
  -- without a pane the window is all there is to be inside of
  have hinWindow : a.InWindow panes win ↔ a.InColumns win := by
    rw [inWindow_iff hrows]
    exact and_iff_left fun h => absurd hpaneID h
  rw [hinWindow, winPos_noPane hrows hpaneID]
  constructor
  · intro h _ _
    obtain ⟨hvisible, hposition⟩ := h
    have hcolumns : a.InColumns win := hvisible.mp rfl
    obtain ⟨hrow, hcol⟩ := hposition rfl
    refine ⟨fun _ => ⟨hcolumns, ?_, ?_⟩, fun h => absurd hpaneID h⟩
    · rw [← line_eq hcolumns.1 hrows.1]
      exact (zero_le_add_iff hwin.1.1 (zero_le_iff.mp hrows.1)).mp hrow
    · exact (zero_le_add_iff hwin.1.2 hcolumns.2.1).mp hcol
  · intro h
    obtain ⟨hcolumns, hrow, hcol⟩ := (h hrows.1 hrows.2).1 hpaneID
    rw [← line_eq hcolumns.1 hrows.1] at hrow
    refine ⟨iff_of_true rfl hcolumns, fun _ => ⟨?_, ?_⟩⟩
    · exact (zero_le_add_iff hwin.1.1 (zero_le_iff.mp hrows.1)).mpr hrow
    · exact (zero_le_add_iff hwin.1.2 hcolumns.2.1).mpr hcol

/-- A window in an active pane: visible in the pane whatever the column in the window is, but not
    in a pane whose end does not fit. -/
theorem winRight_pane {win : WinGeometry} {pane : PaneGeometry} (hwin : win.rect.NonNeg)
    (hnonneg : pane.rect.NonNeg)
    (hrows : 0 ≤ a.bufLine - win.scrollTop ∧ a.bufLine - win.scrollTop < win.height)
    (hpaneID : win.paneID ≠ "") (hpane : panes[win.paneID]? = some pane)
    (hactive : pane.active = true) :
    (((a.winPos panes win).visible = true ↔ a.InWindow panes win) ∧
      ((a.winPos panes win).visible = true →
        0 ≤ (a.winPos panes win).row ∧ 0 ≤ (a.winPos panes win).col)) ↔ a.WinRight panes win := by
  have hinside := inside_iff hwin hnonneg (a.bufLine - win.scrollTop) a.col
  -- the cell in the pane, with the line as 64 bits have it
  generalize hcell : pane.rect.Contains
    (pane.rect.top + (win.rect.top + (a.bufLine - win.scrollTop).toInt))
    (pane.rect.left + (win.rect.left + a.col.toInt)) = inPane at hinside
  have hinWindow : a.InWindow panes win ↔ a.InColumns win ∧ inPane := by
    rw [inWindow_iff hrows, ← hcell]
    simp [hpaneID, hpane, hactive]
  have hright : a.WinRight panes win ↔ (inPane → (a.InColumns win ↔ pane.rect.Fits)) := by
    rw [← hcell]
    simp [WinRight, hrows, hpaneID, hpane, hactive]
  rw [hinWindow, hright, winPos_pane hrows hpaneID hpane hactive]
  split
  · rename_i hin
    obtain ⟨hfits, hcontains⟩ := hinside.mpr hin
    obtain ⟨⟨htop, -⟩, hleft, -⟩ := hin
    have hrow : 0 ≤ win.top + (a.bufLine - win.scrollTop) + pane.top :=
      zero_le_iff.mpr (hnonneg.1.1.trans (Int64.le_iff_toInt_le.mp htop))
    have hcol : 0 ≤ win.left + a.col + pane.left :=
      zero_le_iff.mpr (hnonneg.1.2.trans (Int64.le_iff_toInt_le.mp hleft))
    constructor
    · intro h _
      exact iff_of_true (h.1.mp rfl).1 hfits
    · intro h
      exact ⟨iff_of_true rfl ⟨(h hcontains).mpr hfits, hcontains⟩, fun _ => ⟨hrow, hcol⟩⟩
  · rename_i hout
    have hnot : ¬ (pane.rect.Fits ∧ inPane) := fun h => hout (hinside.mp h)
    constructor
    · intro h hcontains
      have hcolumns : ¬ a.InColumns win := fun hc => nomatch h.1.mpr ⟨hc, hcontains⟩
      exact iff_of_false hcolumns fun hfits => hnot ⟨hfits, hcontains⟩
    · intro h
      refine ⟨iff_of_false nofun fun hboth => ?_, nofun⟩
      exact hnot ⟨(h hboth.2).mp hboth.1, hboth.2⟩

/-- The branch for editor windows goes right exactly as `WinRight` says. -/
theorem winRight_iff {win : WinGeometry} (hwin : win.rect.NonNeg)
    (hpanes : ∀ (id : String) (pane : PaneGeometry), panes[id]? = some pane → pane.rect.NonNeg) :
    (((a.winPos panes win).visible = true ↔ a.InWindow panes win) ∧
      ((a.winPos panes win).visible = true →
        0 ≤ (a.winPos panes win).row ∧ 0 ≤ (a.winPos panes win).col)) ↔ a.WinRight panes win := by
  by_cases hrows : 0 ≤ a.bufLine - win.scrollTop ∧ a.bufLine - win.scrollTop < win.height
  · by_cases hpaneID : win.paneID = ""
    · exact winRight_noPane hwin hrows hpaneID
    · by_cases hpane : ∃ pane, panes[win.paneID]? = some pane ∧ pane.active = true
      · obtain ⟨pane, hpane, hactive⟩ := hpane
        exact winRight_pane hwin (hpanes _ _ hpane) hrows hpaneID hpane hactive
      · -- no pane to be seen in: hidden, and off screen
        have hinactive : ∀ pane, panes[win.paneID]? = some pane → pane.active = false := by
          intro pane hp
          by_contra hactive
          exact hpane ⟨pane, hp, by simpa using hactive⟩
        rw [winPos_hidden hrows hpaneID hinactive, inWindow_iff hrows]
        refine iff_of_true ⟨iff_of_false nofun fun h => ?_, nofun⟩ fun _ _ => ⟨?_, ?_⟩
        · obtain ⟨pane, hp, hactive, -⟩ := h.2 hpaneID
          exact hpane ⟨pane, hp, hactive⟩
        · exact fun h => absurd h hpaneID
        · exact fun _ pane hp hactive => absurd ⟨pane, hp, hactive⟩ hpane
  · -- a line outside of the window: hidden, and off screen
    have hoff : ¬ a.InWindow panes win := by
      intro h
      obtain ⟨⟨⟨htop, hbottom⟩, -⟩, -⟩ := h
      exact hrows (line_of_lt (by omega) (by simp only [WinGeometry.rect] at hbottom; omega))
    rw [winPos_of_not hrows]
    refine iff_of_true ⟨iff_of_false nofun hoff, nofun⟩ ?_
    exact fun hline hlt => absurd ⟨hline, hlt⟩ hrows

/-- The branch for panes goes right exactly as `PaneRight` says. -/
theorem paneRight_iff
    (hpanes : ∀ (id : String) (pane : PaneGeometry), panes[id]? = some pane → pane.rect.NonNeg) :
    ((a.panePos panes).visible = true → 0 ≤ (a.panePos panes).row ∧ 0 ≤ (a.panePos panes).col) ↔
      ∀ pane, panes[a.paneID]? = some pane → a.PaneRight pane := by
  rw [visible_panePos]
  constructor
  · intro h pane hpane hactive hcontains
    -- inside the pane the offset is not negative, so only the final sum can have wrapped
    have hposition := h ⟨pane, hpane, hactive, hcontains⟩
    have hnonneg := hpanes _ _ hpane
    obtain ⟨⟨hrow, -⟩, hcol, -⟩ := hcontains
    simp only [panePos, hpane, hactive, Bool.not_true, Bool.false_eq_true, ↓reduceIte]
      at hposition
    exact ⟨(zero_le_add_iff hnonneg.1.1 (by omega)).mp hposition.1,
      (zero_le_add_iff hnonneg.1.2 (by omega)).mp hposition.2⟩
  · intro h hvisible
    obtain ⟨pane, hpane, hactive, hcontains⟩ := hvisible
    obtain ⟨hrow, hcol⟩ := h pane hpane hactive hcontains
    have hnonneg := hpanes _ _ hpane
    obtain ⟨⟨htop, -⟩, hleft, -⟩ := hcontains
    simp only [panePos, hpane, hactive, Bool.not_true, Bool.false_eq_true, ↓reduceIte]
    exact ⟨(zero_le_add_iff hnonneg.1.1 (by omega)).mpr hrow,
      (zero_le_add_iff hnonneg.1.2 (by omega)).mpr hcol⟩

/-- For every anchor and geometry, `ScreenPos` says visible for what is on screen, with a position
    for which a command is sent, exactly as `Right` says. -/
theorem visible_iff (a : Anchor) (panes : GoMap String PaneGeometry)
    (wins : GoMap Int64 WinGeometry) (termRows termCols : Int64)
    (hpanes : ∀ (id : String) (pane : PaneGeometry), panes[id]? = some pane → pane.rect.NonNeg)
    (hwins : ∀ (id : Int64) (win : WinGeometry), wins[id]? = some win → win.rect.NonNeg) :
    a.ShowsRight panes wins termRows termCols ↔ a.Right panes wins := by
  -- a visible placement always has a place command, so that part says nothing new
  have hsent : a.ShowsRight panes wins termRows termCols ↔
      ((a.screenPos panes wins termRows termCols).visible = true ↔
        a.OnScreen panes wins termRows termCols) ∧
      ((a.screenPos panes wins termRows termCols).visible = true →
        0 ≤ (a.screenPos panes wins termRows termCols).row ∧
          0 ≤ (a.screenPos panes wins termRows termCols).col) := by
    refine and_congr_right fun _ => forall_congr' fun _ => ?_
    exact and_iff_left_of_imp fun h => serialize_ne_nil h.1 h.2
  rw [hsent]
  by_cases habsolute : a.type = "absolute"
  · simp only [screenPos, OnScreen, Right, habsolute]
    refine iff_of_true ⟨visible_absolutePos, fun h => ?_⟩ trivial
    obtain ⟨⟨hrow, hcol⟩, -⟩ := visible_absolutePos.mp h
    exact ⟨zero_le_iff.mpr hrow, zero_le_iff.mpr hcol⟩
  · by_cases hpane : a.type = "pane"
    · simp only [screenPos, OnScreen, Right, hpane]
      rw [and_iff_right visible_panePos]
      exact paneRight_iff hpanes
    · by_cases hwin : a.type = "nvim_win"
      · simp only [screenPos, OnScreen, Right, hwin]
        cases hw : wins[a.winID]? with
        | none => simp [ScreenPos.hidden]
        | some win =>
          simp only [Option.some.injEq, exists_eq_left', forall_eq']
          exact winRight_iff (hwins _ _ hw) hpanes
      -- an anchor of another type is hidden
      · have hhidden : a.screenPos panes wins termRows termCols = .hidden := by
          simp [screenPos]
        have hoff : a.OnScreen panes wins termRows termCols ↔ False := by
          simp [OnScreen]
        have hright : a.Right panes wins ↔ True := by
          simp [Right]
        rw [hhidden, hoff, hright]
        simp [ScreenPos.hidden]

end Branches

/-! ## An anchor left of its window -/

/-- A 10×10 window in the corner of the terminal. -/
def cornerWin : WinGeometry := ⟨1000, "a", "", 0, 0, 10, 10, 0⟩

/-- The first line of the window, one column before it starts. -/
def beforeWin : Anchor := ⟨"nvim_win", "", 1000, 0, 0, -1⟩

/-- The window in the corner has no negative side. -/
theorem nonNeg_cornerWin {id : Int64} {win : WinGeometry}
    (h : ((∅ : GoMap Int64 WinGeometry).insert 1000 cornerWin)[id]? = some win) :
    win.rect.NonNeg := by
  rcases GoMap.getElem?_insert_eq_some.mp h with ⟨-, rfl⟩ | ⟨-, h⟩
  · exact ⟨⟨by decide, by decide⟩, by decide, by decide⟩
  · simp at h

/-- Neither side holds: the column is none of the window's. -/
theorem visible_iff_beforeWin :
    beforeWin.ShowsRight ∅ ((∅ : GoMap Int64 WinGeometry).insert 1000 cornerWin) 24 80 ↔
      beforeWin.Right ∅ ((∅ : GoMap Int64 WinGeometry).insert 1000 cornerWin) :=
  visible_iff beforeWin ∅ _ 24 80 (fun _ _ h => by simp at h) fun _ _ h => nonNeg_cornerWin h

/-- It counts as visible, and the command sent for it is empty. -/
theorem visible_fails :
    (∀ (id : Int64) (win : WinGeometry),
      ((∅ : GoMap Int64 WinGeometry).insert 1000 cornerWin)[id]? = some win → win.rect.NonNeg) ∧
      ¬ beforeWin.ShowsRight ∅ ((∅ : GoMap Int64 WinGeometry).insert 1000 cornerWin) 24 80 := by
  refine ⟨fun _ _ h => nonNeg_cornerWin h, fun h => ?_⟩
  have hvisible : (beforeWin.screenPos ∅ ((∅ : GoMap Int64 WinGeometry).insert 1000 cornerWin)
      24 80).visible = true := by decide
  obtain ⟨-, hcol⟩ := (h.2 hvisible).1
  exact absurd hcol (by decide)

end Anchor

end Kgd
