import Kgd.Spec.EngineSteps

/-!
# Resolved positions are current

`Engine.Current` says that the position stored in every placement is what `ScreenPos`
computes from the engine's panes, windows and terminal size. Every handler that changes
geometry recomputes all positions, except `handleClientDisconnect`, which drops the windows
of the client and leaves the placements of others in them where they were.

## Key results

- `Engine.current_step`: one input, with the exact condition on disconnects
- `World.current_iff`: whole runs
- `World.current_fails`: a placement that stays visible in a window that is gone
-/

namespace Kgd

namespace Engine

/-- The stored position and visibility of every placement is its `ScreenPos`. -/
def Current (e : Engine) : Prop :=
  ∀ (pid : UInt32) (p : Placement), e.placements[pid]? = some p → p.resolved = e.resolve p

/-- The client that disconnects registered no window in which a placement of another client
    shows. -/
def LeavesNoPlacement (e : Engine) (input : Input) : Prop :=
  ∀ c, input = .event (.clientDisconnect c) →
    ∀ (pid : UInt32) (p : Placement), e.placements[pid]? = some p → p.clientID ≠ c →
      p.anchor.type = "nvim_win" →
      ∀ win, e.wins[p.anchor.winID]? = some win → win.clientID = c → e.resolve p = .hidden

/-- A position depends on the anchor and the geometry only. -/
theorem resolve_congr {e e' : Engine} {p p' : Placement} (hanchor : p'.anchor = p.anchor)
    (hpanes : e'.panes = e.panes) (hwins : e'.wins = e.wins) (hsize : e'.termSize = e.termSize) :
    e'.resolve p' = e.resolve p := by
  rw [resolve, Placement.screenPos, hanchor, hpanes, hwins, hsize, resolve, Placement.screenPos]

/-- A placement anchored to a window is where that window puts it. -/
theorem resolve_nvimWin {p : Placement} (htype : p.anchor.type = "nvim_win") (e : Engine) :
    e.resolve p = (e.wins[p.anchor.winID]?.map (p.anchor.winPos e.panes)).getD .hidden :=
  Anchor.screenPos_nvimWin htype e.panes e.wins _ _

/-- A placement with another anchor is where it was, whatever happens to the windows. -/
theorem resolve_of_ne {p : Placement} (htype : p.anchor.type ≠ "nvim_win") {e e' : Engine}
    (hpanes : e'.panes = e.panes) (hsize : e'.termSize = e.termSize) :
    e'.resolve p = e.resolve p := by
  rw [resolve, Placement.screenPos, hpanes, hsize, Anchor.screenPos_of_ne htype e.panes e'.wins
    e.wins, resolve, Placement.screenPos]

section Disconnect
variable {e e' : Engine} {c : ClientID} {p : Placement}

/-- A placement in a window of the client that left is hidden. -/
theorem resolve_of_lostWindow
    (hwins : ∀ w : Int64, e'.wins[w]? =
      e.wins[w]?.bind fun win => if win.clientID = c then none else some win)
    (htype : p.anchor.type = "nvim_win") {win : WinGeometry}
    (hwin : e.wins[p.anchor.winID]? = some win) (hc : win.clientID = c) :
    e'.resolve p = .hidden := by
  rw [resolve_nvimWin htype, hwins, hwin, Option.bind_some, if_pos hc]
  rfl

/-- Any other placement is where it was. -/
theorem resolve_of_keptWindow
    (hwins : ∀ w : Int64, e'.wins[w]? =
      e.wins[w]?.bind fun win => if win.clientID = c then none else some win)
    (hpanes : e'.panes = e.panes) (hsize : e'.termSize = e.termSize)
    (hkept : p.anchor.type = "nvim_win" →
      ∀ win, e.wins[p.anchor.winID]? = some win → win.clientID ≠ c) :
    e'.resolve p = e.resolve p := by
  by_cases htype : p.anchor.type = "nvim_win"
  · rw [resolve_nvimWin htype, resolve_nvimWin htype, hwins, hpanes]
    cases hwin : e.wins[p.anchor.winID]? with
    | none => rfl
    | some win => rw [Option.bind_some, if_neg (hkept htype win hwin)]
  · exact resolve_of_ne htype hpanes hsize

end Disconnect

/-- From current positions one input leads to current positions exactly when it is not a
    disconnect that takes away a window in which another client shows something. -/
theorem current_step {env : Env} {e e' : Engine} {input : Input} {out : List Action}
    (h : e.Current) (hstep : PlacementStep env e input out e') :
    e'.Current ↔ e.LeavesNoPlacement input := by
  cases hstep with
  | same _ _ _ _ hdisc hplacements _ hpanes hwins hsize =>
    refine iff_of_true (fun pid p hp => ?_) fun c hc => absurd hc (hdisc c)
    rw [resolve_congr rfl hpanes hwins hsize]
    exact h pid p (hplacements ▸ hp)
  | @place c params kittyID himage =>
    refine iff_of_true (fun pid p hp => ?_) fun c hc => nomatch hc
    rcases GoMap.getElem?_insert_eq_some.mp hp with ⟨-, rfl⟩ | ⟨-, hp⟩
    · rfl
    · exact h pid p hp
  | unplace =>
    refine iff_of_true (fun pid p hp => ?_) fun c hc => nomatch hc
    exact h pid p (GoMap.getElem?_erase_eq_some.mp hp).2
  | unplaceAll =>
    refine iff_of_true (fun pid p hp => ?_) fun c hc => nomatch hc
    exact h pid p (removeOwned_eq_some.mp hp).1
  | @disconnect c _ hplacements _ hpanes hsize _ hwins =>
    have hlookup : ∀ (pid : UInt32) (p : Placement), e'.placements[pid]? = some p ↔
        e.placements[pid]? = some p ∧ p.clientID ≠ c := by
      intro pid p
      rw [hplacements]
      exact removeOwned_eq_some
    constructor
    · intro h' c' hc' pid p hp howner htype win hwin hown
      obtain rfl : c = c' := by simpa using hc'
      -- the stored position is the one from before, the window is gone now
      have hhidden := resolve_of_lostWindow hwins htype hwin hown
      rw [← h pid p hp, h' pid p ((hlookup pid p).mpr ⟨hp, howner⟩), hhidden]
    · intro hleaves pid p hp
      obtain ⟨hp, howner⟩ := (hlookup pid p).mp hp
      rw [h pid p hp]
      by_cases hkept : p.anchor.type = "nvim_win" →
          ∀ win, e.wins[p.anchor.winID]? = some win → win.clientID ≠ c
      · exact (resolve_of_keptWindow hwins hpanes hsize hkept).symm
      · push Not at hkept
        obtain ⟨htype, win, hwin, hown⟩ := hkept
        rw [resolve_of_lostWindow hwins htype hwin hown]
        exact hleaves c rfl pid p hp howner htype win hwin hown
  | @recompute _ g notes hgeometry =>
    have hdisc : ∀ c, input ≠ .event (.clientDisconnect c) := by
      intro c hc
      subst hc
      exact nomatch hgeometry
    -- whatever was stored before, every position is resolved anew
    refine iff_of_true (fun pid p hp => ?_) fun c hc => absurd hc (hdisc c)
    rw [placements_recompute, Option.map_eq_some_iff] at hp
    obtain ⟨p₀, -, rfl⟩ := hp
    rw [recomputeOne_fst]
    rfl

end Engine

namespace World

/-- Along every run, positions are current in every state exactly when no client leaves behind
    a placement of another client in a window it registered. -/
theorem current_iff {hash128 : Data → Hash} {gfx notifier stopFunc inTmux : Bool} {maxSize : Int}
    {tr : List (Transition World Label)} {w : World}
    (h : Runs hash128 (Engine.new gfx notifier stopFunc inTmux maxSize) tr w) :
    (∀ t ∈ tr, t.post.engine.Current) ↔
      ∀ t ∈ tr, t.pre.engine.LeavesNoPlacement t.label.input := by
  refine Run.forall_post_iff (P := fun w : World => w.engine.Current)
    (C := fun w l => w.engine.LeavesNoPlacement l.input) ?_ ?_ h
  · intro pid p hp
    simp [start, Engine.new] at hp
  · intro tr w l w' _ hcurrent hs
    obtain ⟨env, hr, -⟩ := hs
    exact Engine.current_step hcurrent (Engine.placementStep_of_receive hr)

/-- Client "b" places an image in a window of "a", who then disconnects. -/
def lostWindowScript : List (Env × Input) :=
  [Script.registerWin "a" 1000 2, Script.upload "b" [1],
    Script.place "b" 1 (Script.inWindow 1000), Script.disconnect "a"]

/-- A run that loses the window of a placement. -/
theorem current_iff_lostWindow :
    ∃ tr w, Runs Script.firstByte (Engine.new true true true false 1) tr w ∧
      ((∀ t ∈ tr, t.post.engine.Current) ↔
        ∀ t ∈ tr, t.pre.engine.LeavesNoPlacement t.label.input) := by
  have hrun := runs_of_exec Script.firstByte (Engine.new true true true false 1) lostWindowScript
    (by decide)
  exact ⟨_, _, hrun, current_iff hrun⟩

/-- The placement of "b" is stored as visible at row 2, and its window is gone. -/
theorem current_fails :
    ∃ tr w, Runs Script.firstByte (Engine.new true true true false 1) tr w ∧
      ¬ w.engine.Current := by
  have hrun := runs_of_exec Script.firstByte (Engine.new true true true false 1) lostWindowScript
    (by decide)
  refine ⟨_, _, hrun, fun hcurrent => ?_⟩
  -- the window is gone and the placement is where it was
  have hstale : ∃ p, ((exec Script.firstByte (Engine.new true true true false 1)
      lostWindowScript).get (by decide)).2.engine.placements[(1 : UInt32)]? = some p ∧
      p.resolved ≠ ((exec Script.firstByte (Engine.new true true true false 1)
        lostWindowScript).get (by decide)).2.engine.resolve p := by
    refine ⟨_, (Option.some_get (by decide)).symm, by decide⟩
  obtain ⟨p, hp, hne⟩ := hstale
  exact hne (hcurrent 1 p hp)

end World

end Kgd
