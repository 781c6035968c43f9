import Kgd.Spec.Positions

/-!
# Windows belong to the client that registered them

Window registrations are kept in one table keyed by window ID alone, and scroll updates and
unregistrations do not look at the client. So the windows of different clients stay apart
only as long as the clients use different IDs: `World.windows_apart` shows that this is
enough, `World.windows_collide` that nothing less is.

## Key results

- `World.owned_of_runs`: a registered window is in the table, as its client's
- `World.windows_apart`
- `World.windows_collide`
-/

namespace Kgd

/-! ## Events about windows -/

/-- The client and the window that a window event names. -/
def namedWindow : Input → Option (ClientID × Int64)
  | .event (.registerWin c params) => some (c, params.winID)
  | .event (.scrollUpdate c winID _) => some (c, winID)
  | .event (.unregisterWin c winID) => some (c, winID)
  | _ => none

/-- The client whose window events or disconnect an input is. -/
def windowClient : Input → Option ClientID
  | .event (.registerWin c _) => some c
  | .event (.scrollUpdate c _ _) => some c
  | .event (.unregisterWin c _) => some c
  | .event (.clientDisconnect c) => some c
  | _ => none

/-- Whether the client has the window registered after an input, given whether it had before. -/
def stillRegistered (c : ClientID) (winID : Int64) (before : Bool) : Input → Bool
  | .event (.registerWin c' params) => before || (c' == c && params.winID == winID)
  | .event (.unregisterWin c' winID') => before && !(c' == c && winID' == winID)
  | .event (.clientDisconnect c') => before && c' != c
  | _ => before

/-- Whether the client registered the window during a history and has not unregistered it nor
    disconnected since. -/
def registered (c : ClientID) (winID : Int64) (tr : List (Transition World Label)) : Bool :=
  tr.foldl (fun before t => stillRegistered c winID before t.label.input) false

/-- What is registered after a longer trace follows from what was, and the last input. -/
@[simp] theorem registered_concat (c : ClientID) (winID : Int64)
    (tr : List (Transition World Label)) (t : Transition World Label) :
    registered c winID (tr ++ [t]) =
      stillRegistered c winID (registered c winID tr) t.label.input := by
  rw [registered, List.foldl_append]
  rfl

namespace Engine

/-- The input names no window that another client registered. -/
def OwnWindow (e : Engine) (input : Input) : Prop :=
  ∀ c winID, namedWindow input = some (c, winID) →
    ∀ win, e.wins[winID]? = some win → win.clientID = c

instance (e : Engine) (input : Input) : Decidable (e.OwnWindow input) :=
  decidable_of_iff
    (∀ x ∈ namedWindow input, ∀ win ∈ e.wins[x.2]?, win.clientID = x.1)
    ⟨fun h c winID hc win hwin => h (c, winID) hc win hwin,
      fun h x hx win hwin => h x.1 x.2 hx win hwin⟩

/-- An owned window in which every placement of its owner is where it should be. -/
structure Owned (e : Engine) (c : ClientID) (winID : Int64) : Prop where
  win : ∃ win, e.wins[winID]? = some win ∧ win.clientID = c
  current : ∀ (pid : UInt32) (p : Placement), e.placements[pid]? = some p → p.clientID = c →
    p.anchor.type = "nvim_win" → p.anchor.winID = winID → p.resolved = e.resolve p

/-- A window is left alone by every event of other clients that names no window of its
    owner. -/
theorem wins_of_step {env : Env} {e e' : Engine} {input : Input} {out : List Action}
    (hstep : PlacementStep env e input out e') (hown : e.OwnWindow input) {winID : Int64}
    {win : WinGeometry} (hwin : e.wins[winID]? = some win)
    (hother : windowClient input ≠ some win.clientID) : e'.wins[winID]? = some win := by
  -- the window that the event names is its client's own, and this one is not
  have hunnamed {c : ClientID} {winID' : Int64} (hnamed : namedWindow input = some (c, winID'))
      (hclient : windowClient input = some c) : winID ≠ winID' := by
    intro heq
    subst heq
    have hc := hown c winID hnamed win hwin
    exact hother (hc ▸ hclient)
  cases hstep with
  | same _ _ _ _ _ _ _ _ hwins => rw [hwins]; exact hwin
  | place | unplace | unplaceAll => exact hwin
  | @disconnect c _ _ _ _ _ _ hwins =>
    have hne : win.clientID ≠ c := fun heq => hother (by rw [heq]; rfl)
    rw [hwins, hwin, Option.bind_some, if_neg hne]
  | @recompute _ g _ hgeometry =>
    show g.wins[winID]? = some win
    unfold geometryUpdate at hgeometry
    split at hgeometry
    · rw [← Option.some.inj hgeometry]; exact hwin
    · rename_i c winID' scrollTop
      obtain ⟨win', hwin', rfl⟩ := Option.map_eq_some_iff.mp hgeometry
      rw [GoMap.getElem?_insert_ne _ _ (hunnamed rfl rfl), hwin]
    · rename_i c params
      rw [← Option.some.inj hgeometry, GoMap.getElem?_insert_ne _ _ (hunnamed rfl rfl), hwin]
    · rename_i c winID'
      rw [← Option.some.inj hgeometry, GoMap.getElem?_erase_ne _ (hunnamed rfl rfl), hwin]
    · rw [← Option.some.inj hgeometry]; exact hwin
    · exact nomatch hgeometry

/-- What a client still has registered is in the table as its own after a geometry update. -/
theorem win_of_geometryUpdate {e g : Engine} {input : Input}
    (hgeometry : e.geometryUpdate input = some g) (hown : e.OwnWindow input) {c : ClientID}
    {winID : Int64} {before : Bool} (hstill : stillRegistered c winID before input = true)
    (hwin : before = true → ∃ win, e.wins[winID]? = some win ∧ win.clientID = c) :
    ∃ win, g.wins[winID]? = some win ∧ win.clientID = c := by
  unfold geometryUpdate at hgeometry
  split at hgeometry
  · rw [← Option.some.inj hgeometry]
    exact hwin hstill
  · rename_i c' winID' scrollTop
    obtain ⟨win', hwin', rfl⟩ := Option.map_eq_some_iff.mp hgeometry
    obtain ⟨win, hwin, hc⟩ := hwin hstill
    by_cases hid : winID = winID'
    · -- scrolled, by whomever: the owner stays
      subst hid
      obtain rfl := Option.some.inj (hwin.symm.trans hwin')
      exact ⟨{ win with scrollTop }, Std.ExtTreeMap.getElem?_insert_self, hc⟩
    · exact ⟨win, by rw [GoMap.getElem?_insert_ne _ _ hid, hwin], hc⟩
  · rename_i c' params
    rw [← Option.some.inj hgeometry]
    simp only [stillRegistered, Bool.or_eq_true, Bool.and_eq_true, beq_iff_eq] at hstill
    by_cases hid : winID = params.winID
    · subst hid
      refine ⟨winOfParams c' params, Std.ExtTreeMap.getElem?_insert_self, ?_⟩
      rcases hstill with hbefore | ⟨hc, -⟩
      · -- the window was the client's already, so the event is its own
        obtain ⟨win, hwin, hc⟩ := hwin hbefore
        exact (hown c' params.winID rfl win hwin).symm.trans hc
      · exact hc
    · have hbefore : before = true := hstill.resolve_right fun hnew => hid hnew.2.symm
      obtain ⟨win, hwin, hc⟩ := hwin hbefore
      exact ⟨win, by rw [GoMap.getElem?_insert_ne _ _ hid, hwin], hc⟩
  · rename_i c' winID'
    rw [← Option.some.inj hgeometry]
    simp only [stillRegistered, Bool.and_eq_true, Bool.not_eq_true', Bool.and_eq_false_iff,
      beq_eq_false_iff_ne] at hstill
    obtain ⟨win, hwin, hc⟩ := hwin hstill.1
    -- the event is the owner's, who did not name this window
    have hid : winID ≠ winID' := by
      rintro rfl
      have hc' := hown c' winID rfl win hwin
      rcases hstill.2 with hne | hne
      · exact hne (hc'.symm.trans hc)
      · exact hne rfl
    exact ⟨win, by rw [GoMap.getElem?_erase_ne _ hid, hwin], hc⟩
  · rw [← Option.some.inj hgeometry]
    exact hwin hstill
  · exact nomatch hgeometry

/-- One input keeps the windows that are still registered owned. -/
theorem owned_step {env : Env} {e e' : Engine} {input : Input} {out : List Action}
    (hstep : PlacementStep env e input out e') (hown : e.OwnWindow input) {c : ClientID}
    {winID : Int64} {before : Bool} (hbefore : before = true → e.Owned c winID)
    (hstill : stillRegistered c winID before input = true) : e'.Owned c winID := by
  cases hstep with
  | same hgeometry _ _ _ hdisc hplacements _ hpanes hwins hsize =>
    have h : e.Owned c winID := by
      refine hbefore ?_
      unfold stillRegistered at hstill
      split at hstill
      · exact nomatch hgeometry
      · exact nomatch hgeometry
      · exact absurd rfl (hdisc _)
      · exact hstill
    refine ⟨hwins ▸ h.win, fun pid p hp hc htype hid => ?_⟩
    rw [resolve_congr rfl hpanes hwins hsize]
    exact h.current pid p (hplacements ▸ hp) hc htype hid
  | @place c' params kittyID himage =>
    have h := hbefore hstill
    refine ⟨h.win, fun pid p hp hc htype hid => ?_⟩
    rcases GoMap.getElem?_insert_eq_some.mp hp with ⟨-, rfl⟩ | ⟨-, hp⟩
    · rfl
    · exact h.current pid p hp hc htype hid
  | unplace =>
    have h := hbefore hstill
    refine ⟨h.win, fun pid p hp hc htype hid => ?_⟩
    exact h.current pid p (GoMap.getElem?_erase_eq_some.mp hp).2 hc htype hid
  | unplaceAll =>
    have h := hbefore hstill
    refine ⟨h.win, fun pid p hp hc htype hid => ?_⟩
    exact h.current pid p (removeOwned_eq_some.mp hp).1 hc htype hid
  | @disconnect c' _ hplacements _ hpanes hsize _ hwins =>
    simp only [stillRegistered, Bool.and_eq_true, bne_iff_ne] at hstill
    have h := hbefore hstill.1
    obtain ⟨win, hwin, hc⟩ := h.win
    have hne : win.clientID ≠ c' := hc ▸ Ne.symm hstill.2
    refine ⟨⟨win, by rw [hwins, hwin, Option.bind_some, if_neg hne], hc⟩, ?_⟩
    intro pid p hp hpc htype hid
    rw [hplacements] at hp
    -- the window of the placement is not one of those that go
    rw [resolve_of_keptWindow hwins hpanes hsize]
    · exact h.current pid p (removeOwned_eq_some.mp hp).1 hpc htype hid
    · intro _ win' hwin'
      rw [hid, hwin] at hwin'
      exact Option.some.inj hwin' ▸ hne
  | @recompute _ g _ hgeometry =>
    refine ⟨win_of_geometryUpdate hgeometry hown hstill fun hb => (hbefore hb).win, ?_⟩
    -- the positions are those just recomputed
    intro pid p hp _ _ _
    rw [placements_recompute, Option.map_eq_some_iff] at hp
    obtain ⟨p₀, -, rfl⟩ := hp
    rw [recomputeOne_fst]
    rfl

/-- A window event leaves panes and terminal size alone. -/
theorem panes_of_windowEvent {e g : Engine} {input : Input} {b : ClientID}
    (hgeometry : e.geometryUpdate input = some g) (hb : windowClient input = some b) :
    g.panes = e.panes := by
  unfold geometryUpdate at hgeometry
  split at hgeometry
  · exact nomatch hb
  · obtain ⟨win, -, rfl⟩ := Option.map_eq_some_iff.mp hgeometry
    rfl
  · rw [← Option.some.inj hgeometry]
  · rw [← Option.some.inj hgeometry]
  · exact nomatch hb
  · exact nomatch hgeometry

/-- The window events of a client do not move a placement of another one in its own window. -/
theorem unmoved_step {env : Env} {e e' : Engine} {input : Input} {out : List Action}
    (hstep : PlacementStep env e input out e') (hown : e.OwnWindow input) {b : ClientID}
    (hb : windowClient input = some b) {pid : UInt32} {p : Placement}
    (hp : e.placements[pid]? = some p) (hne : p.clientID ≠ b) (htype : p.anchor.type = "nvim_win")
    (howned : e.Owned p.clientID p.anchor.winID) :
    ∃ p', e'.placements[pid]? = some p' ∧ p'.resolved = p.resolved := by
  obtain ⟨win, hwin, hc⟩ := howned.win
  have hother : windowClient input ≠ some win.clientID := by
    rw [hb, hc]
    exact fun heq => hne (Option.some.inj heq).symm
  have hkept := wins_of_step hstep hown hwin hother
  cases hstep with
  | same _ _ _ _ _ hplacements => exact ⟨p, hplacements ▸ hp, rfl⟩
  | place | unplace | unplaceAll => exact nomatch hb
  | @disconnect c _ hplacements =>
    have hc' : p.clientID ≠ c := fun heq => hne (heq.trans (Option.some.inj hb))
    refine ⟨p, ?_, rfl⟩
    rw [hplacements]
    exact removeOwned_eq_some.mpr ⟨hp, hc'⟩
  | @recompute _ g _ hgeometry =>
    have hg : e.placements = g.placements := by rw [geometryUpdate_eq_some hgeometry]
    refine ⟨(g.recomputeOne env p).1, by rw [placements_recompute, ← hg, hp]; rfl, ?_⟩
    -- both positions come from the same window
    have hcurrent := howned.current pid p hp rfl htype rfl
    have hwins : g.wins[p.anchor.winID]? = some win := hkept
    have hsame : g.resolve p = e.resolve p := by
      rw [resolve_nvimWin htype, resolve_nvimWin htype, hwins, hwin,
        panes_of_windowEvent hgeometry hb]
    rw [hcurrent, ← hsame, recomputeOne_fst]
    rfl

/-- A client's scroll update of its own window moves its placements in the window. -/
theorem scrolled_step {env : Env} {e e' : Engine} {out : List Action} {a : ClientID}
    {winID scrollTop : Int64}
    (hstep : PlacementStep env e (.event (.scrollUpdate a winID scrollTop)) out e')
    (howned : e.Owned a winID) :
    ∃ win, e'.wins[winID]? = some win ∧ win.clientID = a ∧ win.scrollTop = scrollTop ∧
      ∀ (pid : UInt32) (p : Placement), e.placements[pid]? = some p → p.clientID = a →
        p.anchor.type = "nvim_win" → p.anchor.winID = winID →
        ∃ p', e'.placements[pid]? = some p' ∧ p'.resolved = p.anchor.winPos e'.panes win := by
  obtain ⟨win, hwin, hc⟩ := howned.win
  have hsome : e.geometryUpdate (.event (.scrollUpdate a winID scrollTop)) =
      some { e with wins := e.wins.insert winID { win with scrollTop } } := by
    simp only [geometryUpdate, hwin, Option.map_some]
  -- the window is registered, so the handler recomputes
  cases hstep with
  | same hgeometry => cases hgeometry.symm.trans hsome
  | @recompute _ g _ hgeometry =>
    have hg := Option.some.inj (hgeometry.symm.trans hsome)
    have hplacements : g.placements = e.placements := by rw [hg]
    have hnew : g.wins[winID]? = some { win with scrollTop } := by rw [hg]; simp
    refine ⟨{ win with scrollTop }, hnew, hc, rfl, ?_⟩
    intro pid p hp _ htype hid
    subst hid
    refine ⟨(g.recomputeOne env p).1, by rw [placements_recompute, hplacements, hp]; rfl, ?_⟩
    have hresolve : g.resolve p = p.anchor.winPos g.panes { win with scrollTop } := by
      rw [resolve_nvimWin htype, hnew]
      rfl
    rw [recomputeOne_fst]
    exact hresolve

end Engine

namespace World

section Runs
variable {hash128 : Data → Hash} {gfx notifier stopFunc inTmux : Bool} {maxSize : Int}
  {tr : List (Transition World Label)} {w : World}

/-- As long as clients name only their own windows, a registered window is in the table as its
    client's, and the client's placements in it are where they should be. -/
theorem owned_of_runs (h : Runs hash128 (Engine.new gfx notifier stopFunc inTmux maxSize) tr w)
    (hown : ∀ t ∈ tr, t.pre.engine.OwnWindow t.label.input) (c : ClientID) (winID : Int64)
    (hreg : registered c winID tr = true) : w.engine.Owned c winID := by
  -- generalised over what is registered, which this step may change
  revert hown hreg
  refine Run.historyInvariant (I := fun tr w =>
    (∀ t ∈ tr, t.pre.engine.OwnWindow t.label.input) → registered c winID tr = true →
    w.engine.Owned c winID) ?_ ?_ h
  · intro _ hreg
    exact nomatch hreg
  · intro tr w l w' _ ih hs hown hreg
    obtain ⟨env, hr, -⟩ := hs
    rw [registered_concat] at hreg
    refine Engine.owned_step (Engine.placementStep_of_receive hr) (hown ⟨w, l, w'⟩ (by simp)) ?_
      hreg
    exact ih fun t ht => hown t (List.mem_append_left _ ht)

/-- What it means for one step, after the history `tr`, that windows are per client: the
    window events of a client move nothing of another client's in the other's own windows, and
    a client's scroll update of its own window takes effect. -/
structure WindowsApart (tr : List (Transition World Label)) (t : Transition World Label) : Prop
    where
  unmoved : ∀ b, windowClient t.label.input = some b →
    ∀ (pid : UInt32) (p : Placement), t.pre.engine.placements[pid]? = some p → p.clientID ≠ b →
      p.anchor.type = "nvim_win" → registered p.clientID p.anchor.winID tr = true →
      ∃ p', t.post.engine.placements[pid]? = some p' ∧ p'.resolved = p.resolved
  scrolled : ∀ a winID scrollTop, t.label.input = .event (.scrollUpdate a winID scrollTop) →
    registered a winID tr = true →
    ∃ win, t.post.engine.wins[winID]? = some win ∧ win.clientID = a ∧ win.scrollTop = scrollTop ∧
      ∀ (pid : UInt32) (p : Placement), t.pre.engine.placements[pid]? = some p →
        p.clientID = a → p.anchor.type = "nvim_win" → p.anchor.winID = winID →
        ∃ p', t.post.engine.placements[pid]? = some p' ∧
          p'.resolved = p.anchor.winPos t.post.engine.panes win

/-- In every run in which no client names a window that another one has registered, every step
    keeps the windows of the clients apart. -/
theorem windows_apart (h : Runs hash128 (Engine.new gfx notifier stopFunc inTmux maxSize) tr w)
    (hown : ∀ t ∈ tr, t.pre.engine.OwnWindow t.label.input) :
    ∀ tr₁ t tr₂, tr = tr₁ ++ t :: tr₂ → WindowsApart tr₁ t := by
  intro tr₁ t tr₂ heq
  subst heq
  obtain ⟨hpre, ⟨env, hr, -⟩, -⟩ := h.of_mid
  have hstep := Engine.placementStep_of_receive hr
  -- the window is the client's own before the step
  have howned := owned_of_runs hpre fun t' ht' => hown t' (List.mem_append_left _ ht')
  have ht := hown t (by simp)
  refine ⟨?_, ?_⟩
  · intro b hb pid p hp hne htype hreg
    exact Engine.unmoved_step hstep ht hb hp hne htype (howned _ _ hreg)
  · intro a winID scrollTop hin hreg
    rw [hin] at hstep
    exact Engine.scrolled_step hstep (howned a winID hreg)

end Runs

/-- Client "a" shows an image in its window 1000. -/
def windowScript : List (Env × Input) :=
  [Script.registerWin "a" 1000 2, Script.upload "a" [1],
    Script.place "a" 1 (Script.inWindow 1000)]

/-- Client "b" registers a window of another number. -/
theorem windows_apart_otherWindow :
    ∃ tr t w, Runs Script.firstByte (Engine.new true true true false 1) (tr ++ [t]) w ∧
      t.label.input = (Script.registerWin "b" 1001 5).2 ∧ WindowsApart tr t := by
  have hrun := runs_of_exec_concat Script.firstByte (Engine.new true true true false 1)
    windowScript (Script.registerWin "b" 1001 5) (by decide) (by decide)
  exact ⟨_, _, _, hrun, rfl, windows_apart hrun (by decide) _ _ [] rfl⟩

/-- Client "b" numbers its window 1000 too: its registration moves the placement of "a" from
    row 2 to row 5. -/
theorem windows_collide :
    ∃ tr t w, Runs Script.firstByte (Engine.new true true true false 1) (tr ++ [t]) w ∧
      t.label.input = (Script.registerWin "b" 1000 5).2 ∧ ¬ WindowsApart tr t := by
  have hrun := runs_of_exec_concat Script.firstByte (Engine.new true true true false 1)
    windowScript (Script.registerWin "b" 1000 5) (by decide) (by decide)
  refine ⟨_, _, _, hrun, rfl, fun h => ?_⟩
  -- the placement in the window before the other client registers its own
  have hbefore : ∃ p, ((exec Script.firstByte (Engine.new true true true false 1)
      windowScript).get (by decide)).2.engine.placements[(1 : UInt32)]? = some p ∧
      (p.clientID ≠ "b" ∧ p.anchor.type = "nvim_win" ∧
        registered p.clientID p.anchor.winID ((exec Script.firstByte
          (Engine.new true true true false 1) windowScript).get (by decide)).1 = true) ∧
      p.resolved = ⟨2, 0, true⟩ :=
    ⟨_, (Option.some_get (by decide)).symm, by decide, by decide⟩
  obtain ⟨p, hp, ⟨hne, htype, hreg⟩, hrow⟩ := hbefore
  obtain ⟨p', hp', hsame⟩ := h.unmoved "b" rfl 1 p hp hne htype hreg
  have hafter := congrArg (Option.map Placement.resolved) hp'
  rw [Option.map_some, hsame, hrow] at hafter
  exact absurd hafter (by decide)

end World

end Kgd
