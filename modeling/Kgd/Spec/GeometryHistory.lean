import Kgd.Daemon.TTYGraphics
import Kgd.ForStd.List
import Kgd.Spec.Positions
import Kgd.Spec.TerminalMirror

/-!
# Geometry history does not matter

The engine moves its placements by comparing each with where it was rendered last. From an
engine that is up to date (`Engine.UpToDate`), with graphics calls that succeed, every geometry
input leaves each placement as if it had been placed under the geometry of now
(`Engine.settle`). So only the last geometry counts, and the owner of a placement hears exactly
of the changes of its visibility.

## Key results

- `Engine.upToDate_geometry`: one geometry input
- `World.geometry_history`: two sequences of geometry inputs
- `World.upToDate_of_runs`: how engines come to be up to date
-/

namespace Kgd

/-- An event of the geometry handlers, or a terminal size. -/
def Input.isGeometry : Input → Bool
  | .size _ => true
  | .event (.scrollUpdate ..) => true
  | .event (.registerWin ..) => true
  | .event (.unregisterWin ..) => true
  | .event (.updatePanes _) => true
  | _ => false

/-- The `visibility_changed` notifications about a placement: whom each went to and what it
    said. -/
def visibilityNotices (pid : UInt32) (out : List Action) : List (ClientID × Bool) :=
  out.filterMap fun
    | .notifyClient c (.visibilityChanged id visible) =>
      if id = pid then some (c, visible) else none
    | _ => none

/-- The notices about a placement are those of the parts. -/
theorem visibilityNotices_append (pid : UInt32) (out out' : List Action) :
    visibilityNotices pid (out ++ out') =
      visibilityNotices pid out ++ visibilityNotices pid out' := List.filterMap_append

/-- A graphics call is no notice. -/
theorem visibilityNotices_gfx (pid : UInt32) (calls : List GfxCall) :
    visibilityNotices pid (calls.map .gfx) = [] := by
  simp [visibilityNotices]

/-- Neither are the calls to a backend that there may be. -/
theorem visibilityNotices_gfxCalls (pid : UInt32) (e : Engine) (calls : List GfxCall) :
    visibilityNotices pid (e.gfxCalls calls) = [] := by
  unfold Engine.gfxCalls
  split
  · exact visibilityNotices_gfx pid calls
  · rfl

namespace Engine

/-- The placement as the geometry of `e` has it. -/
def settle (e : Engine) (p : Placement) : Placement :=
  { p with
    termRow := (e.resolve p).row, termCol := (e.resolve p).col
    visible := (e.resolve p).visible, rendered := (e.resolve p).visible }

/-- Every placement is where the geometry puts it, rendered if it is visible, and on the
    terminal if it is rendered. -/
structure UpToDate (e : Engine) (t : Terminal) : Prop where
  gfx : e.gfx = true
  keyed : e.Keyed
  current : e.Current
  rendered : ∀ (pid : UInt32) (p : Placement), e.placements[pid]? = some p →
    p.rendered = p.visible
  mirrors : e.Mirrors t

section One
variable {env : Env} {e : Engine} {p : Placement} {t : Terminal}

/-- A placement that is up to date is settled. -/
theorem UpToDate.settle_eq (h : e.UpToDate t) {pid : UInt32}
    (hp : e.placements[pid]? = some p) : e.settle p = p := by
  have hpos : p.resolved = e.resolve p := h.current pid p hp
  have hrendered : p.rendered = p.visible := h.rendered pid p hp
  rw [settle, ← hpos]
  cases p
  simp only [Placement.resolved] at hrendered ⊢
  rw [hrendered]

/-- Settling depends on the geometry only. -/
theorem settle_congr {e e' : Engine} (hpanes : e'.panes = e.panes) (hwins : e'.wins = e.wins)
    (hsize : e'.termSize = e.termSize) : e'.settle = e.settle := by
  funext p
  rw [settle, resolve_congr rfl hpanes hwins hsize]
  rfl

/-- With calls that succeed, a recomputation settles every placement, wherever it was. -/
theorem recomputeOne_settle (hgfx : e.gfx = true) (hok : ∀ pid, env.placeOk pid = true)
    (p : Placement) : (e.recomputeOne env p).1 = e.settle p := by
  have hrendered : (rerender env p (e.resolve p)).1 = (e.resolve p).visible := by
    unfold rerender
    rw [hok]
    -- the four cases: appear, disappear, move, stay
    cases hv : (e.resolve p).visible <;> cases hr : p.rendered <;> simp
    split <;> rfl
  simp only [recomputeOne, hgfx, Bool.not_true, Bool.false_eq_true, ↓reduceIte]
  rw [hrendered]
  rfl

/-- Nothing is done about a placement that is up to date, and nobody is told. -/
theorem recomputeOne_upToDate (env : Env) (hgfx : e.gfx = true)
    (hpos : p.resolved = e.resolve p) (hrendered : p.rendered = p.visible) :
    e.recomputeOne env p = (p, []) := by
  have hrow : (e.resolve p).row = p.termRow := by rw [← hpos]; rfl
  have hcol : (e.resolve p).col = p.termCol := by rw [← hpos]; rfl
  have hvis : (e.resolve p).visible = p.visible := by rw [← hpos]; rfl
  have hstay : rerender env p (e.resolve p) = (p.rendered, []) := by
    unfold rerender
    rw [hrow, hcol, hvis, hrendered]
    cases p.visible <;> simp
  simp only [recomputeOne, hgfx, hstay]
  simp [hrow, hcol, hvis]

/-- The owner is told exactly when the visibility changes. -/
theorem notices_recomputeOne (env : Env) (hgfx : e.gfx = true) (hnotifier : e.notifier = true)
    (p : Placement) :
    visibilityNotices p.id (e.recomputeOne env p).2 =
      if (e.resolve p).visible ≠ p.visible then [(p.clientID, (e.resolve p).visible)] else [] := by
  simp only [recomputeOne, hgfx, Bool.not_true, Bool.false_eq_true, ↓reduceIte, hnotifier,
    Bool.and_true, visibilityNotices_append, visibilityNotices_gfx, List.nil_append, bne_iff_ne]
  split
  · simp [visibilityNotices]
  · rfl

/-- What is done about one placement tells nothing of another one. -/
theorem notices_recomputeOne_ne (env : Env) {pid : UInt32} (hne : p.id ≠ pid) :
    visibilityNotices pid (e.recomputeOne env p).2 = [] := by
  unfold recomputeOne
  split
  · rfl
  · simp only [visibilityNotices_append, visibilityNotices_gfx, List.nil_append]
    split
    · simp [visibilityNotices, hne]
    · rfl

end One

/-! ## Recomputation -/

/-- Of a recomputation only the round of a placement tells of it. -/
theorem notices_recomputePlacements (env : Env) {e : Engine} (hkeyed : e.Keyed) {pid : UInt32}
    {p : Placement} (hp : e.placements[pid]? = some p) :
    visibilityNotices pid (e.recomputePlacements env).2 =
      visibilityNotices pid (e.recomputeOne env p).2 := by
  simp only [recomputePlacements, visibilityNotices_append, visibilityNotices_gfxCalls,
    List.nil_append, List.append_nil, GoMap.rangeUpdate_snd]
  rw [visibilityNotices, List.filterMap_flatMap]
  -- the loop visits the placement once, and no other one speaks of it
  rw [List.flatMap_of_unique (a := pid) (GoMap.nodup_visit env.placementOrder e.placements)]
  · have hmem : pid ∈ env.placementOrder.visit e.placements.keys := by
      rw [GoMap.mem_visit]
      exact GoMap.mem_of_getElem? hp
    rw [if_pos hmem, hp]
    rfl
  · intro k _ hk
    cases hk' : e.placements[k]? with
    | none => rfl
    | some p' =>
      have hid : p'.id = k := hkeyed k p' hk'
      exact notices_recomputeOne_ne env (hid ▸ hk)

/-- A recomputation of an engine that is up to date does nothing between the two calls that
    bracket it. -/
theorem recomputePlacements_upToDate (env : Env) {e : Engine} {t : Terminal} (h : e.UpToDate t) :
    e.recomputePlacements env = (e, [.gfx .beginBatch, .gfx .flushBatch]) := by
  have hone : ∀ (pid : UInt32) (p : Placement), e.placements[pid]? = some p →
      e.recomputeOne env p = (p, []) := fun pid p hp =>
    recomputeOne_upToDate env h.gfx (h.current pid p hp) (h.rendered pid p hp)
  -- no turn of the loop changes anything
  have hloop : GoMap.rangeUpdate env.placementOrder
      (fun _ p => (some (e.recomputeOne env p).1, (e.recomputeOne env p).2)) e.placements =
      (e.placements, []) := by
    apply GoMap.rangeUpdate_eq_self
    intro pid p hp
    rw [hone pid p hp]
  unfold recomputePlacements
  simp only [hloop, List.append_nil]
  rw [gfxCalls, gfxCalls, if_pos h.gfx, if_pos h.gfx]
  rfl

/-! ## One geometry input -/

/-- What a geometry input does: it recomputes every position under a new geometry, or it
    scrolls a window that is not registered and does nothing. -/
theorem geometry_cases {hash128 : Data → Hash} {env : Env} {e e' : Engine} {input : Input}
    {out : List Action} (hgeo : input.isGeometry = true)
    (h : e.receive hash128 env input = some (e', out)) :
    (e' = e ∧ out = []) ∨
      ∃ (g : Engine) (notes : List Action),
        g = { e with panes := g.panes, wins := g.wins, termSize := g.termSize } ∧
        e' = (g.recomputePlacements env).1 ∧ out = (g.recomputePlacements env).2 ++ notes ∧
        ∀ a ∈ notes, ∃ n, a = .notifyAll n := by
  cases input with
  | size sz =>
    obtain ⟨rfl, rfl⟩ := Prod.mk.inj (Option.some.inj h)
    refine Or.inr ⟨{ e with termSize := sz }, _, rfl, rfl, rfl, ?_⟩
    intro a ha
    split at ha
    · exact ⟨_, List.mem_singleton.mp ha⟩
    · cases ha
  | colors colors => cases hgeo
  | event ev =>
    cases ev with
    | scrollUpdate c winID scrollTop =>
      -- a scroll of a window that is not registered changes nothing
      cases hwin : e.wins[winID]? with
      | none =>
        simp only [receive, handle, handleScrollUpdate, hwin, Option.some.injEq,
          Prod.mk.injEq] at h
        exact Or.inl ⟨h.1.symm, h.2.symm⟩
      | some win =>
        simp only [receive, handle, handleScrollUpdate, hwin] at h
        obtain ⟨rfl, rfl⟩ := Prod.mk.inj (Option.some.inj h)
        exact Or.inr ⟨_, [], rfl, rfl, (List.append_nil _).symm, by simp⟩
    | registerWin | unregisterWin | updatePanes =>
      obtain ⟨rfl, rfl⟩ := Prod.mk.inj (Option.some.inj h)
      exact Or.inr ⟨_, [], rfl, rfl, (List.append_nil _).symm, by simp⟩
    | _ => cases hgeo

/-- A geometry input settles every placement of an engine that is up to date, and tells the
    owners of those whose visibility changed. -/
theorem upToDate_geometry {hash128 : Data → Hash} {env : Env} {e e' : Engine} {input : Input}
    {out : List Action} {t : Terminal} (h : e.UpToDate t) (hgeo : input.isGeometry = true)
    (hok : ∀ pid, env.placeOk pid = true)
    (hrec : e.receive hash128 env input = some (e', out)) :
    e'.UpToDate (t.applyAll out) ∧ e'.notifier = e.notifier ∧
      ∀ pid : UInt32, e'.placements[pid]? = e.placements[pid]?.map e'.settle ∧
        (e.notifier = true → ∀ p, e.placements[pid]? = some p →
          visibilityNotices pid out =
            if (e'.settle p).visible ≠ p.visible then [(p.clientID, (e'.settle p).visible)]
            else []) := by
  rcases geometry_cases hgeo hrec with ⟨rfl, rfl⟩ | ⟨g, notes, hg, rfl, rfl, hnotes⟩
  · refine ⟨h, rfl, fun pid => ⟨?_, fun _ p hp => ?_⟩⟩
    · cases hp : e'.placements[pid]? with
      | none => rfl
      | some p => rw [Option.map_some, h.settle_eq hp]
    · rw [h.settle_eq hp, if_neg (not_not_intro rfl)]
      rfl
  · have hgfx : g.gfx = true := by rw [hg]; exact h.gfx
    have hplacements : g.placements = e.placements := by rw [hg]
    have hkeyed : g.Keyed := by rw [Keyed, hplacements]; exact h.keyed
    have hnotifier : g.notifier = e.notifier := by rw [hg]
    have hsettle : (g.recomputePlacements env).1.settle = g.settle := settle_congr rfl rfl rfl
    have hlookup : ∀ pid : UInt32, (g.recomputePlacements env).1.placements[pid]? =
        e.placements[pid]?.map g.settle := by
      intro pid
      rw [placements_recompute, hplacements]
      simp only [recomputeOne_settle hgfx hok]
    -- notifications reach no terminal
    have hcalls : ∀ call, Action.gfx call ∉ notes := by
      intro call hcall
      obtain ⟨n, hn⟩ := hnotes _ hcall
      exact nomatch hn
    refine ⟨⟨hgfx, ?_, ?_, ?_, ?_⟩, hnotifier, fun pid => ⟨?_, fun hn p hp => ?_⟩⟩
    · intro pid p hp
      rw [hlookup, Option.map_eq_some_iff] at hp
      obtain ⟨p₀, hp₀, rfl⟩ := hp
      exact h.keyed pid p₀ hp₀
    · intro pid p hp
      rw [hlookup, Option.map_eq_some_iff] at hp
      obtain ⟨p₀, -, rfl⟩ := hp
      exact (resolve_congr rfl rfl rfl rfl).symm
    · intro pid p hp
      rw [hlookup, Option.map_eq_some_iff] at hp
      obtain ⟨p₀, -, rfl⟩ := hp
      rfl
    -- per placement: what the recomputation left alone was right already, the rest it redraws
    · have hmirrors := (mirrors_iff h.keyed t).mp h.mirrors
      have hkeyed' : (g.recomputePlacements env).1.Keyed := by
        intro pid p hp
        rw [hlookup, Option.map_eq_some_iff] at hp
        obtain ⟨p₀, hp₀, rfl⟩ := hp
        exact h.keyed pid p₀ hp₀
      rw [mirrors_iff hkeyed']
      intro i pid
      rw [Terminal.applyAll_append, Terminal.applyAll_of_noCalls hcalls]
      rcases shown_recomputePlacements env hgfx hkeyed t i pid with hshown | ⟨hshown, hdisplay⟩
      · exact hshown
      · rw [hshown, hdisplay, hmirrors, display, display, hplacements]
    · rw [hlookup, hsettle]
    · have hp' : g.placements[pid]? = some p := by rw [hplacements]; exact hp
      have hid : p.id = pid := h.keyed pid p hp
      have hquiet : visibilityNotices pid notes = [] := by
        rw [visibilityNotices, List.filterMap_eq_nil_iff]
        intro a ha
        obtain ⟨n, rfl⟩ := hnotes a ha
        rfl
      rw [visibilityNotices_append, hquiet, List.append_nil, hsettle,
        notices_recomputePlacements env hkeyed hp', ← hid]
      exact notices_recomputeOne env hgfx (hnotifier.trans hn) p

/-- Placing, too, leaves a placement rendered exactly if it is visible. -/
theorem rendered_step {env : Env} {e e' : Engine} {input : Input} {out : List Action}
    (hgfx : e.gfx = true) (hok : ∀ pid, env.placeOk pid = true)
    (h : ∀ (pid : UInt32) (p : Placement), e.placements[pid]? = some p → p.rendered = p.visible)
    (hstep : PlacementStep env e input out e') :
    ∀ (pid : UInt32) (p : Placement), e'.placements[pid]? = some p → p.rendered = p.visible := by
  intro pid p hp
  rcases placement_cases hstep hp with hp | ⟨c, params, kittyID, -, -, -, rfl⟩ |
    ⟨g, p₀, hgeometry, -, rfl⟩
  · exact h pid p hp
  · simp [placed, hgfx, hok]
  · have hg : g.gfx = true := by rw [geometryUpdate_eq_some hgeometry]; exact hgfx
    rw [recomputeOne_settle hg hok]
    rfl

end Engine

namespace World

/-- One geometry input, while graphics calls succeed. -/
def GeometryStep (hash128 : Data → Hash) (w : World) (l : Label) (w' : World) : Prop :=
  ∃ env, l.input.isGeometry = true ∧ (∀ pid, env.placeOk pid = true) ∧
    w.engine.receive hash128 env l.input = some (w'.engine, l.out) ∧
    w'.terminal = w.terminal.applyAll l.out

/-- What the engine holds about the visibility of a placement. -/
def visibleAt (w : World) (pid : UInt32) : Option Bool :=
  w.engine.placements[pid]?.map Placement.visible

/-- The `visibility_changed` notifications about a placement over a run, oldest first. -/
def told (pid : UInt32) (tr : List (Transition World Label)) : List (ClientID × Bool) :=
  tr.flatMap fun t => visibilityNotices pid t.label.out

section Run
variable {hash128 : Data → Hash} {w w' w₁ w₂ : World} {tr tr₁ tr₂ : List (Transition World Label)}

/-- After any geometry inputs the placements are those from before, settled in the geometry of
    now. -/
theorem settled_of_run (h : w.engine.UpToDate w.terminal)
    (hrun : Run (GeometryStep hash128) w tr w') :
    w'.engine.UpToDate w'.terminal ∧ w'.engine.notifier = w.engine.notifier ∧
      ∀ pid : UInt32, w'.engine.placements[pid]? =
        w.engine.placements[pid]?.map w'.engine.settle := by
  refine Run.invariant (I := fun w' : World => w'.engine.UpToDate w'.terminal ∧
    w'.engine.notifier = w.engine.notifier ∧ ∀ pid : UInt32, w'.engine.placements[pid]? =
      w.engine.placements[pid]?.map w'.engine.settle) ?_ ?_ hrun
  · refine ⟨h, rfl, fun pid => ?_⟩
    cases hp : w.engine.placements[pid]? with
    | none => rfl
    | some p => rw [Option.map_some, h.settle_eq hp]
  · intro w₁ l w₂ ih hs
    obtain ⟨h₁, hn₁, hlookup₁⟩ := ih
    obtain ⟨env, hgeo, hok, hrec, ht⟩ := hs
    obtain ⟨h₂, hn₂, hstep⟩ := Engine.upToDate_geometry h₁ hgeo hok hrec
    refine ⟨ht ▸ h₂, hn₂.trans hn₁, fun pid => ?_⟩
    rw [(hstep pid).1, hlookup₁, Option.map_map]
    -- what was settled before does not show once the placement is settled again
    rfl

/-- One step tells the owner of a placement of its visibility if that changed, and of nothing
    else. -/
theorem notices_of_step {l : Label} (h : w.engine.UpToDate w.terminal)
    (hnotifier : w.engine.notifier = true) (hs : GeometryStep hash128 w l w') {pid : UInt32}
    {p : Placement} (hp : w.engine.placements[pid]? = some p) :
    ∃ visible, w'.visibleAt pid = some visible ∧
      visibilityNotices pid l.out =
        if visible ≠ p.visible then [(p.clientID, visible)] else [] := by
  obtain ⟨env, hgeo, hok, hrec, -⟩ := hs
  obtain ⟨-, -, hstep⟩ := Engine.upToDate_geometry h hgeo hok hrec
  refine ⟨(w'.engine.settle p).visible, ?_, (hstep pid).2 hnotifier p hp⟩
  rw [visibleAt, (hstep pid).1, hp]
  rfl

/-- Over a run the owner of a placement is told exactly of the changes of its visibility, in
    turn, and last of how it is now. -/
theorem told_of_run (h : w.engine.UpToDate w.terminal) (hnotifier : w.engine.notifier = true)
    (hrun : Run (GeometryStep hash128) w tr w') {pid : UInt32} {p : Placement}
    (hp : w.engine.placements[pid]? = some p) :
    (∀ t ∈ tr, ∃ was visible, t.pre.visibleAt pid = some was ∧
      t.post.visibleAt pid = some visible ∧ visibilityNotices pid t.label.out =
        if visible ≠ was then [(p.clientID, visible)] else []) ∧
      (p.visible :: (told pid tr).map Prod.snd).IsChain (· ≠ ·) ∧
      w'.visibleAt pid = some (((told pid tr).map Prod.snd).getLastD p.visible) := by
  induction hrun with
  | nil =>
    refine ⟨fun t ht => absurd ht List.not_mem_nil, List.isChain_singleton _, ?_⟩
    rw [visibleAt, hp]
    rfl
  | @snoc tr w₁ l w₂ hrun hs ih =>
    obtain ⟨ihsteps, ihchain, ihlast⟩ := ih
    obtain ⟨h₁, hn₁, hlookup⟩ := settled_of_run h hrun
    have hp₁ : w₁.engine.placements[pid]? = some (w₁.engine.settle p) := by
      rw [hlookup, hp]
      rfl
    obtain ⟨visible, hvisible, hnotices⟩ := notices_of_step h₁ (hn₁.trans hnotifier) hs hp₁
    have hwas : w₁.visibleAt pid = some (w₁.engine.settle p).visible := by
      rw [visibleAt, hp₁]
      rfl
    have htold : told pid (tr ++ [⟨w₁, l, w₂⟩]) = told pid tr ++ visibilityNotices pid l.out := by
      simp [told]
    -- the client's last notice is the visibility before this step
    have hlast : ((told pid tr).map Prod.snd).getLastD p.visible =
        (w₁.engine.settle p).visible := Option.some.inj (ihlast.symm.trans hwas)
    refine ⟨?_, ?_, ?_⟩
    · intro t ht
      rcases List.mem_append.mp ht with ht | ht
      · exact ihsteps t ht
      · obtain rfl := List.mem_singleton.mp ht
        exact ⟨_, visible, hwas, hvisible, hnotices⟩
    · rw [htold, hnotices]
      split
      · rename_i hne
        rw [List.map_append, ← List.cons_append, List.isChain_append]
        refine ⟨ihchain, List.isChain_singleton _, ?_⟩
        intro was hwas' now hnow
        rw [List.getLast?_cons, Option.mem_def, Option.some.injEq] at hwas'
        obtain rfl : visible = now := by simpa using hnow
        rw [← hwas', ← List.getLastD_eq_getLast?, hlast]
        exact Ne.symm hne
      · rw [List.append_nil]
        exact ihchain
    -- a step that changes nothing says nothing
    · rw [htold, hnotices, hvisible]
      split
      · simp
      · rename_i heq
        rw [List.append_nil, hlast]
        exact congrArg some (not_not.mp heq)

/-- Whatever the engine went through, only the geometry it ends with counts: after any sequence of
    geometry inputs everything is up to date, and two sequences that end with the same geometry
    leave the same placements and the same display, whatever the orders of map iteration. A
    recomputation without a change does nothing between the two calls that bracket it, for which the
    backend writes nothing; and the owner of a placement is told exactly of the changes of its
    visibility. -/
theorem geometry_history (h : w.engine.UpToDate w.terminal)
    (h₁ : Run (GeometryStep hash128) w tr₁ w₁) (h₂ : Run (GeometryStep hash128) w tr₂ w₂) :
    (w₁.engine.UpToDate w₁.terminal ∧ w₂.engine.UpToDate w₂.terminal) ∧
    (w₁.engine.panes = w₂.engine.panes → w₁.engine.wins = w₂.engine.wins →
      w₁.engine.termSize = w₂.engine.termSize →
      w₁.engine.placements = w₂.engine.placements ∧ w₁.terminal.shown = w₂.terminal.shown) ∧
    (∀ env, w₁.engine.recomputePlacements env =
      (w₁.engine, [.gfx .beginBatch, .gfx .flushBatch])) ∧
    (∀ g : TTYGraphics, (g.calls [.beginBatch, .flushBatch]).2 = []) ∧
    (w.engine.notifier = true → ∀ (pid : UInt32) (p : Placement),
      w.engine.placements[pid]? = some p →
      (∀ t ∈ tr₁, ∃ was visible, t.pre.visibleAt pid = some was ∧
        t.post.visibleAt pid = some visible ∧ visibilityNotices pid t.label.out =
          if visible ≠ was then [(p.clientID, visible)] else []) ∧
        (p.visible :: (told pid tr₁).map Prod.snd).IsChain (· ≠ ·) ∧
        w₁.visibleAt pid = some (((told pid tr₁).map Prod.snd).getLastD p.visible)) := by
  obtain ⟨hup₁, -, hlookup₁⟩ := settled_of_run h h₁
  obtain ⟨hup₂, -, hlookup₂⟩ := settled_of_run h h₂
  refine ⟨⟨hup₁, hup₂⟩, fun hpanes hwins hsize => ?_,
    fun env => Engine.recomputePlacements_upToDate env hup₁, fun g => rfl,
    fun hnotifier pid p hp => told_of_run h hnotifier h₁ hp⟩
  -- the placements of before, settled in the same geometry
  have hplacements : w₁.engine.placements = w₂.engine.placements := by
    apply Std.ExtTreeMap.ext_getElem?
    intro pid
    rw [hlookup₁, hlookup₂, Engine.settle_congr hpanes hwins hsize]
  refine ⟨hplacements, ?_⟩
  -- both terminals show what the placements say
  funext i pid
  rw [(Engine.mirrors_iff hup₁.keyed _).mp hup₁.mirrors,
    (Engine.mirrors_iff hup₂.keyed _).mp hup₂.mirrors, Engine.display, Engine.display,
    hplacements]

end Run

/-! ## Engines that are up to date -/

/-- An input in an environment where graphics calls succeed. -/
def CallsSucceed (hash128 : Data → Hash) (w : World) (l : Label) (w' : World) : Prop :=
  ∃ env, (∀ pid, env.placeOk pid = true) ∧
    w.engine.receive hash128 env l.input = some (w'.engine, l.out) ∧
    w'.terminal = w.terminal.applyAll l.out

/-- A run in which graphics calls succeed is a run. -/
theorem runs_of_callsSucceed {hash128 : Data → Hash} {e : Engine}
    {tr : List (Transition World Label)} {w : World}
    (h : Run (CallsSucceed hash128) (start e) tr w) : Runs hash128 e tr w := by
  apply h.mono
  intro w l w' hs
  obtain ⟨env, -, hrec, ht⟩ := hs
  exact ⟨env, hrec, ht⟩

/-- While graphics calls succeed, exactly the visible placements are rendered. -/
theorem rendered_of_runs {hash128 : Data → Hash} {notifier stopFunc inTmux : Bool} {maxSize : Int}
    {tr : List (Transition World Label)} {w : World}
    (h : Run (CallsSucceed hash128) (start (Engine.new true notifier stopFunc inTmux maxSize)) tr w)
    {pid : UInt32} {p : Placement} (hp : w.engine.placements[pid]? = some p) :
    p.rendered = p.visible := by
  -- the backend comes into the invariant, since without one nothing is rendered
  refine (Run.invariant (I := fun w : World => w.engine.gfx = true ∧
    ∀ (pid : UInt32) (p : Placement), w.engine.placements[pid]? = some p →
      p.rendered = p.visible) ?_ ?_ h).2 pid p hp
  · refine ⟨rfl, fun pid p hp => ?_⟩
    simp [start, Engine.new] at hp
  · intro w l w' ih hs
    obtain ⟨hgfx, ih⟩ := ih
    obtain ⟨env, hok, hrec, -⟩ := hs
    have hstep := Engine.placementStep_of_receive hrec
    exact ⟨(Engine.gfx_of_placementStep hstep).trans hgfx,
      Engine.rendered_step hgfx hok ih hstep⟩

/-- From its start the engine is up to date while graphics calls succeed, no image is evicted,
    nobody leaves a placement of another client in a window, and the placement counter has not
    come round. -/
theorem upToDate_of_runs {hash128 : Data → Hash} {notifier stopFunc inTmux : Bool} {maxSize : Int}
    {tr : List (Transition World Label)} {w : World}
    (h : Run (CallsSucceed hash128) (start (Engine.new true notifier stopFunc inTmux maxSize)) tr w)
    (hcount : placementsCreated tr < 2 ^ 32 - 1) (hout : ∀ t ∈ tr, EvictsNothing t.label.out)
    (hleaves : ∀ t ∈ tr, t.pre.engine.LeavesNoPlacement t.label.input) :
    w.engine.UpToDate w.terminal := by
  have hruns := runs_of_callsSucceed h
  have hcurrent : w.engine.Current := by
    -- `current_iff` speaks of the states after a step; the first state has no placement
    have hposts := (current_iff hruns).mpr hleaves
    cases hruns with
    | nil =>
      intro pid p hp
      simp [start, Engine.new] at hp
    | snoc hrun hs => exact hposts _ (List.mem_append_right _ (List.mem_singleton_self _))
  exact ⟨gfx_of_runs hruns, keyed_of_runs hruns, hcurrent,
    fun _ _ => rendered_of_runs h, (mirrors_of_runs hruns hcount hout).1⟩

/-- An input while every graphics call succeeds and maps are visited in key order. -/
theorem callsSucceed_of_next {hash128 : Data → Hash} {w w' : World} {input : Input} {l : Label}
    (h : w.next hash128 (default, input) = some (l, w')) : CallsSucceed hash128 w l w' := by
  simp only [next, Option.map_eq_some_iff, Prod.mk.injEq, Prod.exists] at h
  obtain ⟨e, out, hrec, rfl, rfl⟩ := h
  exact ⟨default, fun _ => rfl, hrec, rfl⟩

/-- A window can always be registered. -/
theorem exists_registerWin (hash128 : Data → Hash) (w : World) (c : ClientID)
    (params : RegisterWinParams) :
    ∃ l w', GeometryStep hash128 w l w' ∧ w'.engine.panes = w.engine.panes ∧
      w'.engine.wins = w.engine.wins.insert params.winID (Engine.winOfParams c params) ∧
      w'.engine.termSize = w.engine.termSize :=
  ⟨⟨.event (.registerWin c params), _⟩, ⟨_, _⟩, ⟨default, rfl, fun _ => rfl, rfl, rfl⟩, rfl, rfl,
    rfl⟩

/-- A window can always be unregistered. -/
theorem exists_unregisterWin (hash128 : Data → Hash) (w : World) (c : ClientID) (winID : Int64) :
    ∃ l w', GeometryStep hash128 w l w' ∧ w'.engine.panes = w.engine.panes ∧
      w'.engine.wins = w.engine.wins.erase winID ∧ w'.engine.termSize = w.engine.termSize :=
  ⟨⟨.event (.unregisterWin c winID), _⟩, ⟨_, _⟩, ⟨default, rfl, fun _ => rfl, rfl, rfl⟩, rfl, rfl,
    rfl⟩

/-- A window with one placement in it. -/
def singleScript : List Input :=
  [.event (.registerWin "a" ⟨1000, "", 2, 0, 10, 10, 0⟩),
    .event (.uploadRequest "a" ⟨[1], "png", 1, 1⟩),
    .event (.placeRequest "a" ⟨1, Script.inWindow 1000, 1, 1, 0, 0, 0, 0, 0⟩)]

/-- The run of `singleScript`. -/
def singleRun : Option (List (Transition World Label) × World) :=
  Run.exec (fun w input => next Script.firstByte w (default, input))
    (start (Engine.new true true true false 1)) singleScript

theorem isSome_singleRun : singleRun.isSome := by decide

theorem run_singleRun :
    Run (CallsSucceed Script.firstByte) (start (Engine.new true true true false 1))
      (singleRun.get isSome_singleRun).1 (singleRun.get isSome_singleRun).2 := by
  have hnext : ∀ w input l w', next Script.firstByte w (default, input) = some (l, w') →
      CallsSucceed Script.firstByte w l w' := fun _ _ _ _ => callsSucceed_of_next
  exact Run.of_exec hnext (Option.some_get isSome_singleRun).symm

/-- The run ends up to date. -/
theorem upToDate_singleRun :
    (singleRun.get isSome_singleRun).2.engine.UpToDate
      (singleRun.get isSome_singleRun).2.terminal := by
  refine upToDate_of_runs run_singleRun (by decide) (by decide) fun t ht c hc => ?_
  have hinputs : (singleRun.get isSome_singleRun).1.map (fun t => t.label.input) =
      singleScript := by decide
  have hinput : t.label.input ∈ singleScript := hinputs ▸ List.mem_map_of_mem ht
  rw [hc] at hinput
  exact absurd hinput (by simp [singleScript])

/-- The window goes and comes back at another row, or it moves there: the placement ends up in
    the same place. -/
theorem geometry_history_window :
    ∃ w tr₁ w₁ tr₂ w₂, Run (GeometryStep Script.firstByte) w tr₁ w₁ ∧
      Run (GeometryStep Script.firstByte) w tr₂ w₂ ∧ tr₁.length = 2 ∧ tr₂.length = 1 ∧
      w.engine.placements[(1 : UInt32)]?.isSome = true ∧
      w₁.engine.UpToDate w₁.terminal ∧ w₂.engine.UpToDate w₂.terminal ∧
      w₁.engine.placements = w₂.engine.placements ∧ w₁.terminal.shown = w₂.terminal.shown := by
  have hup := upToDate_singleRun
  have hplaced : (singleRun.get isSome_singleRun).2.engine.placements[(1 : UInt32)]?.isSome =
      true := by decide
  generalize (singleRun.get isSome_singleRun).2 = w at hup hplaced
  let params : RegisterWinParams := ⟨1000, "", 5, 0, 10, 10, 0⟩
  -- one run closes the window and opens it elsewhere, the other only moves it
  obtain ⟨l, w', hgone, hpanes', hwins', hsize'⟩ :=
    exists_unregisterWin Script.firstByte w "a" params.winID
  obtain ⟨l₁, w₁, hback, hpanes₁, hwins₁, hsize₁⟩ :=
    exists_registerWin Script.firstByte w' "a" params
  obtain ⟨l₂, w₂, hmoved, hpanes₂, hwins₂, hsize₂⟩ :=
    exists_registerWin Script.firstByte w "a" params
  have h₁ := (Run.nil.snoc hgone).snoc hback
  have h₂ := Run.nil.snoc hmoved
  have ⟨⟨hup₁, hup₂⟩, hsame, _⟩ := geometry_history hup h₁ h₂
  refine ⟨w, _, w₁, _, w₂, h₁, h₂, rfl, rfl, hplaced, hup₁, hup₂, hsame ?_ ?_ ?_⟩
  · rw [hpanes₁, hpanes', hpanes₂]
  · rw [hwins₁, hwins', hwins₂]
    refine Std.ExtTreeMap.ext_getElem? fun k => ?_
    rw [Std.ExtTreeMap.getElem?_insert, Std.ExtTreeMap.getElem?_insert,
      Std.ExtTreeMap.getElem?_erase]
    split <;> rfl
  · rw [hsize₁, hsize', hsize₂]

/-- A recomputation without a change of geometry still calls the backend. -/
theorem geometry_history_fails :
    ∃ (w w' : World) (l : Label), w.engine.UpToDate w.terminal ∧
      GeometryStep Script.firstByte w l w' ∧ w'.engine.panes = w.engine.panes ∧
      w'.engine.wins = w.engine.wins ∧ w'.engine.termSize = w.engine.termSize ∧
      Action.gfx .beginBatch ∈ l.out := by
  have hup := upToDate_singleRun
  have hnone : (singleRun.get isSome_singleRun).2.engine.wins[(0 : Int64)]? = none := by
    decide
  generalize (singleRun.get isSome_singleRun).2 = w at hup hnone
  refine ⟨w, ⟨_, _⟩, ⟨.event (.unregisterWin "a" 0), _⟩, hup,
    ⟨default, rfl, fun _ => rfl, rfl, rfl⟩, rfl, ?_, rfl, ?_⟩
  · refine Std.ExtTreeMap.ext_getElem? fun k => ?_
    show (w.engine.wins.erase 0)[k]? = w.engine.wins[k]?
    by_cases hk : k = 0
    · rw [hk, hnone, Std.ExtTreeMap.getElem?_erase_self]
    · exact GoMap.getElem?_erase_ne _ hk
  -- the brackets are written although nothing is between them
  · have hgfx : w.engine.gfx = true := hup.gfx
    refine List.mem_append_left _ (List.mem_append_left _ ?_)
    exact Engine.gfx_mem_gfxCalls.mpr ⟨hgfx, List.mem_singleton_self _⟩

end World

end Kgd
