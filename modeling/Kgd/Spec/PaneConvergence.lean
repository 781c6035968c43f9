import Kgd.Daemon.TmuxWatcher
import Kgd.ForStd.Run
import Kgd.Spec.EngineSteps

/-!
# Convergence of pane geometry

A query takes a snapshot of tmux's layout and sends it to the engine some time later. The
engine has the current layout at rest when no query that sends an older one, and none that
fails, is the last that could have brought it. Sending snapshots in the order in which they were
taken is one way to have that; nothing in the watcher sees to it.

## Key results

- `TmuxWatcher.inv_step`: while the engine lacks the current layout, it is on its way
- `TmuxWatcher.converges`: at rest the engine has the current layout
- `TmuxWatcher.converges_fails`: two queries that overlap
-/

namespace Kgd

/-! ## Panes of the engine -/

/-- The map that `handleUpdatePanes` makes. -/
def panesOf (panes : List PaneGeometry) : GoMap String PaneGeometry :=
  panes.foldl (fun m p => m.insert p.id p) ∅

/-- What an event makes of the panes. -/
def Event.panes (m : GoMap String PaneGeometry) : Event → GoMap String PaneGeometry
  | .updatePanes panes => panesOf panes
  | _ => m

/-- What an input makes of the panes. -/
def Input.panes (m : GoMap String PaneGeometry) : Input → GoMap String PaneGeometry
  | .event ev => ev.panes m
  | .size _ | .colors _ => m

namespace Engine

/-- A change of the geometry has the panes that its event brings. -/
theorem panes_of_geometryUpdate {e g : Engine} {input : Input}
    (h : e.geometryUpdate input = some g) : g.panes = input.panes e.panes := by
  unfold geometryUpdate at h
  split at h
  · rw [← Option.some.inj h]; rfl
  · obtain ⟨win, -, rfl⟩ := Option.map_eq_some_iff.mp h; rfl
  · rw [← Option.some.inj h]; rfl
  · rw [← Option.some.inj h]; rfl
  · rw [← Option.some.inj h]; rfl
  · exact nomatch h

/-- Only `UpdatePanes` changes the panes. -/
theorem panes_of_receive {hash128 : Data → Hash} {env : Env} {e e' : Engine} {input : Input}
    {out : List Action} (h : e.receive hash128 env input = some (e', out)) :
    e'.panes = input.panes e.panes := by
  cases placementStep_of_receive h with
  | same hgeometry _ _ _ _ _ _ hpanes =>
    rw [hpanes]
    cases input with
    | event ev =>
      cases ev with
      -- the one event that brings panes moves the placements too
      | updatePanes panes => exact nomatch hgeometry
      | _ => rfl
    | _ => rfl
  | disconnect _ _ hpanes => exact hpanes
  | place | unplace | unplaceAll => rfl
  | @recompute _ g _ hgeometry => exact panes_of_geometryUpdate (g := g) hgeometry

end Engine

/-- The query can still bring the layout of after so many changes. -/
def Query.brings (n : Nat) : Query → Bool
  | .running => true
  | .snapshot n' _ => n' == n
  | .returned => false

/-- The changes in the snapshot that the query holds. -/
def Query.taken? : Query → Option Nat
  | .snapshot n _ => some n
  | .running | .returned => none

namespace TmuxWatcher

variable {hash128 : Data → Hash} {s s' : TmuxWatcher} {a : Action}

/-! ## At rest -/

/-- Control mode is attached, every layout change since has produced a refresh line, and nothing
    is underway. -/
structure Resting (s : TmuxWatcher) : Prop where
  attached : s.point = .control
  reported : s.reported = s.changes
  debounce : s.debounce = false
  queries : ∀ k ∈ s.queries, k = .returned
  events : s.events = []

/-- At rest the engine has the current layout. -/
def Converged (s : TmuxWatcher) : Prop :=
  s.Resting → s.engine.panes = panesOf s.layout

/-! ## The layout on its way -/

/-- Something will bring the current layout, and not query `except`: a refresh line, the timer, a
    query that has yet to look at the layout or has seen it as it is now. -/
def Coming (s : TmuxWatcher) (except : Option QueryRef) : Prop :=
  s.reported < s.changes ∨ s.debounce = true ∨
    ∃ q < s.queries.length, some q ≠ except ∧ s.queries[q]?.any (Query.brings s.changes) = true

/-- What the watcher relies on: a query sends an outdated snapshot only while something else will
    bring the current layout, a query fails only then or when the current layout was sent last,
    and the layout does not change between the first snapshot and the attach. -/
def KeepsUp (s : TmuxWatcher) : Action → Prop
  | .send q =>
    s.point = .control → s.queries[q]?.bind Query.taken? = some s.changes ∨ s.Coming (some q)
  | .fail q => s.point = .control → s.sent = some s.changes ∨ s.Coming (some q)
  | .attach => s.sent = some s.changes
  | .layoutChange _ | .line .. | .fire | .snapshot _ | .attachFailed | .exit | .tick | .other _
  | .take _ | .size .. | .colors _ => True

instance (s : TmuxWatcher) (except : Option QueryRef) : Decidable (s.Coming except) :=
  inferInstanceAs (Decidable (_ ∨ _))

instance (s : TmuxWatcher) : DecidablePred s.KeepsUp
  | .send _ | .fail _ => inferInstanceAs (Decidable (_ → _))
  | .attach => inferInstanceAs (Decidable (_ = _))
  | .layoutChange _ | .line .. | .fire | .snapshot _ | .attachFailed | .exit | .tick | .other _
  | .take _ | .size .. | .colors _ => isTrue trivial

/-- The panes once the engine has handled the events in the channel. -/
def arriving (s : TmuxWatcher) : GoMap String PaneGeometry :=
  s.events.foldl (fun m ev => ev.panes m) s.engine.panes

structure Inv (s : TmuxWatcher) : Prop where
  reported_le : s.reported ≤ s.changes
  /-- a snapshot of after the last change is the layout -/
  fresh : ∀ (q : QueryRef) n panes, s.queries[q]? = some (Query.snapshot n panes) →
    n ≤ s.changes ∧ (n = s.changes → panes = s.layout)
  sent_le : ∀ n ∈ s.sent, n ≤ s.changes
  arriving_eq : s.sent = some s.changes → s.arriving = panesOf s.layout
  due : s.point = .control → s.sent = some s.changes ∨ s.Coming none

/-- At the start no layout has been reported or sent. -/
theorem inv_new (engine : Engine) (layout : List PaneGeometry) : (new engine layout).Inv := by
  refine ⟨Nat.le_refl 0, fun q n panes hq => ?_, nofun, nofun, nofun⟩
  cases q <;> simp [new] at hq

/-! ### Queries -/

/-- A query that has not returned was not the one that has returned now. -/
theorem getElem?_set_returned {q q' : QueryRef} {k : Query}
    (h : (s.queries.set q .returned)[q']? = some k) (hk : k ≠ .returned) :
    q' ≠ q ∧ s.queries[q']? = some k := by
  rw [List.getElem?_set] at h
  split at h
  · split at h
    · exact absurd (Option.some.inj h).symm hk
    · exact nomatch h
  · rename_i hne
    exact ⟨Ne.symm hne, h⟩

/-- A query that returns brings nothing any more. -/
theorem Coming.of_set {q : QueryRef} (h : s.Coming (some q)) (sent : Option Nat) :
    Coming { s with queries := s.queries.set q .returned, sent } none := by
  obtain hlt | htimer | ⟨q', hq', hne, hk⟩ := h
  · exact .inl hlt
  · exact .inr (.inl htimer)
  · have hne' : q ≠ q' := fun heq => hne (heq ▸ rfl)
    refine .inr (.inr ⟨q', ?_, nofun, ?_⟩)
    · rwa [List.length_set]
    · rwa [List.getElem?_set_ne hne']

/-- One more query keeps the invariant, whatever the timer does. -/
theorem Inv.query {timer : Bool} (h : s.Inv) :
    Inv ({ s with debounce := timer } : TmuxWatcher).query := by
  obtain ⟨hreported, hfresh, hsent, harriving, -⟩ := h
  refine ⟨hreported, fun q n panes hq => hfresh q n panes ?_, hsent, harriving, fun _ => ?_⟩
  · simp only [TmuxWatcher.query, List.getElem?_append] at hq
    split at hq
    · exact hq
    · cases hidx : q - s.queries.length <;> simp [hidx] at hq
  · refine .inr (.inr (.inr ⟨s.queries.length, ?_, nofun, ?_⟩))
    · simp [TmuxWatcher.query]
    · simp [TmuxWatcher.query, Query.brings]

/-! ### One step -/

/-- A step that touches neither tmux, the queries nor what arrives. -/
theorem Inv.of_eq (h : s.Inv) (hlayout : s'.layout = s.layout) (hchanges : s'.changes = s.changes)
    (hreported : s'.reported ≤ s.changes) (hqueries : s'.queries = s.queries)
    (hsent : s'.sent = s.sent) (harriving : s'.arriving = s.arriving)
    (hdue : s'.point = .control → s'.sent = some s'.changes ∨ s'.Coming none) : s'.Inv := by
  refine ⟨by omega, fun q n panes hq => ?_, fun n hn => ?_, fun heq => ?_, hdue⟩
  · rw [hlayout, hchanges]
    exact h.fresh q n panes (hqueries ▸ hq)
  · rw [hchanges]
    exact h.sent_le n (hsent ▸ hn)
  · rw [hsent, hchanges] at heq
    rw [harriving, hlayout]
    exact h.arriving_eq heq

/-- An event that enters the channel is the last one to be handled. -/
theorem arriving_of_push {ev : Event} (h : s.push ev = some s') :
    s' = { s with events := s.events ++ [ev] } ∧ s'.arriving = ev.panes s.arriving := by
  unfold push at h
  split at h
  · cases h
    exact ⟨rfl, by simp [arriving]⟩
  · exact nomatch h

/-- The engine makes of the panes what the events say. -/
theorem arriving_of_handle {env : Env} {ev : Event} {events : List Event}
    {r : Engine × List Kgd.Action}
    (he : s.events = ev :: events) (h : s.engine.handle hash128 env ev = some r) :
    arriving { s with events, engine := r.1 } = s.arriving := by
  have hr : s.engine.receive hash128 env (.event ev) = some r := h
  have hpanes : r.1.panes = ev.panes s.engine.panes := Engine.panes_of_receive hr
  simp only [arriving, he, hpanes, List.foldl_cons]

/-- A new layout is on its way by its refresh line. -/
theorem inv_layoutChange (layout : List PaneGeometry) (h : s.Inv) :
    Inv { s with layout, changes := s.changes + 1 } := by
  have hreported := h.reported_le
  refine ⟨by simp only; omega, fun q n panes hq => ?_, fun n hn => ?_, fun heq => ?_,
    fun _ => .inr (.inl (by simp only; omega))⟩
  · -- older snapshots are not of the new layout
    obtain ⟨hle, -⟩ := h.fresh q n panes hq
    exact ⟨by simp only; omega, fun hn => by simp only at hn; omega⟩
  · have := h.sent_le n hn
    simp only
    omega
  · have := h.sent_le _ heq
    simp only at this
    omega

/-- A query that takes its snapshot sees the current layout. -/
theorem inv_snapshot {q : QueryRef} (hq : s.queries[q]? = some .running) (h : s.Inv) :
    Inv { s with queries := s.queries.set q (.snapshot s.changes s.layout) } := by
  obtain ⟨hlt, -⟩ := List.getElem?_eq_some_iff.mp hq
  refine ⟨h.reported_le, fun q' n panes hq' => ?_, h.sent_le, h.arriving_eq, fun _ => ?_⟩
  · rw [List.getElem?_set] at hq'
    split at hq'
    · cases hq'
      -- the snapshot is of this moment
      exact ⟨Nat.le_refl _, fun _ => rfl⟩
    · exact h.fresh q' n panes hq'
  · refine .inr (.inr (.inr ⟨q, ?_, nofun, ?_⟩))
    · rwa [List.length_set]
    · simp [List.getElem?_set_self hlt, Query.brings]

/-- A query may fail while something else brings the current layout, or when it was sent. -/
theorem inv_fail {q : QueryRef}
    (hC : s.point = .control → s.sent = some s.changes ∨ s.Coming (some q)) (h : s.Inv) :
    Inv { s with queries := s.queries.set q .returned } := by
  refine ⟨h.reported_le, fun q' n panes hq' => ?_, h.sent_le, h.arriving_eq, fun hp => ?_⟩
  · exact h.fresh q' n panes (getElem?_set_returned hq' nofun).2
  · exact (hC hp).imp id fun hcoming => hcoming.of_set s.sent

/-- A query may send what it saw if that is the current layout, or something else brings it. -/
theorem inv_send {q : QueryRef} {n : Nat} {panes : List PaneGeometry}
    (hq : s.queries[q]? = some (.snapshot n panes))
    (hC : s.point = .control → n = s.changes ∨ s.Coming (some q))
    (hpush : push { s with queries := s.queries.set q .returned, sent := some n }
      (.updatePanes panes) = some s') (h : s.Inv) : s'.Inv := by
  obtain ⟨rfl, harriving⟩ := arriving_of_push hpush
  -- how many changes the snapshot has seen
  obtain ⟨hle, hlayout⟩ := h.fresh q n panes hq
  refine ⟨h.reported_le, fun q' n' panes' hq' => ?_, fun n' hn' => ?_, fun heq => ?_, fun hp => ?_⟩
  · exact h.fresh q' n' panes' (getElem?_set_returned hq' nofun).2
  · obtain rfl := Option.some.inj hn'
    exact hle
  · -- the snapshot of after the last change is the layout
    rw [harriving, ← hlayout (Option.some.inj heq)]
    rfl
  · exact (hC hp).imp (congrArg some) fun hcoming => hcoming.of_set (some n)

/-- While the engine lacks the current layout, it is on its way. -/
theorem inv_step (h : Step hash128 s a s') (hC : s.KeepsUp a) (hi : s.Inv) : s'.Inv := by
  have hreported := hi.reported_le
  unfold Step at h
  cases a with
  | layoutChange layout =>
    cases h
    exact inv_layoutChange layout hi
  | line line n =>
    simp only [next] at h
    split at h
    · split at h
      · split at h
        · -- the line starts the timer, which covers all changes up to here
          rename_i hle
          cases h
          exact hi.of_eq rfl rfl hle.2 rfl rfl rfl fun _ => .inr (.inr (.inl rfl))
        · exact nomatch h
      · cases h
        exact hi
    · exact nomatch h
  | fire =>
    simp only [next] at h
    split at h
    · cases h
      exact hi.query
    · exact nomatch h
  | snapshot q =>
    simp only [next] at h
    split at h
    · cases h
      exact inv_snapshot ‹_› hi
    · exact nomatch h
  | fail q =>
    simp only [next] at h
    split at h
    · cases h
      exact inv_fail hC hi
    · cases h
      exact inv_fail hC hi
    · exact nomatch h
  | send q =>
    simp only [next] at h
    split at h
    · rename_i n panes hq
      refine inv_send hq (fun hp => ?_) h hi
      have hsend := hC hp
      rw [hq] at hsend
      exact hsend.imp Option.some.inj id
    · exact nomatch h
  | attach =>
    simp only [next] at h
    split at h
    · cases h
      -- what changed before the attach needs no line: the first query has sent it
      exact hi.of_eq rfl rfl (Nat.le_refl _) rfl rfl rfl fun _ => .inl hC
    · exact nomatch h
  | attachFailed =>
    simp only [next] at h
    split at h
    · cases h
      exact hi.of_eq rfl rfl hreported rfl rfl rfl nofun
    · exact nomatch h
  | exit =>
    simp only [next] at h
    split at h
    · cases h
      exact hi.of_eq rfl rfl hreported rfl rfl rfl nofun
    · exact nomatch h
  | tick =>
    -- while polling the invariant asks for nothing to be on its way
    have hpolling (query) : Inv { s with point := .polling query } :=
      hi.of_eq rfl rfl hreported rfl rfl rfl nofun
    simp only [next] at h
    split at h
    · cases h
      exact (hpolling _).query
    · split at h
      · cases h
        exact (hpolling _).query
      · exact nomatch h
    · exact nomatch h
  | other ev =>
    cases ev with
    | updatePanes panes => exact nomatch h
    | _ =>
      obtain ⟨rfl, harriving⟩ := arriving_of_push h
      exact hi.of_eq rfl rfl hreported rfl rfl harriving hi.due
  | take env =>
    simp only [next] at h
    split at h
    · rename_i ev events he
      obtain ⟨r, hr, rfl⟩ := Option.map_eq_some_iff.mp h
      exact hi.of_eq rfl rfl hreported rfl rfl (arriving_of_handle he hr) hi.due
    · exact nomatch h
  | size env sz =>
    cases h
    have hr : s.engine.receive hash128 env (.size sz) = some (s.engine.onSize env sz) := rfl
    have hpanes : (s.engine.onSize env sz).1.panes = s.engine.panes := Engine.panes_of_receive hr
    exact hi.of_eq rfl rfl hreported rfl rfl (by simp only [arriving, hpanes]) hi.due
  | colors colors =>
    cases h
    exact hi.of_eq rfl rfl hreported rfl rfl rfl hi.due

/-! ## Convergence -/

/-- At rest nothing is on its way, so the layout that was sent last is the current one. -/
theorem Inv.converged (h : s.Inv) : s.Converged := by
  intro hrest
  obtain ⟨hcontrol, hreported, hdebounce, hqueries, hevents⟩ := hrest
  -- at rest nothing is on the way that would still bring the layout
  have hsent : s.sent = some s.changes := by
    obtain hsent | hlt | htimer | ⟨q, hq, -, hk⟩ := h.due hcontrol
    · exact hsent
    · omega
    · rw [hdebounce] at htimer
      exact nomatch htimer
    · rw [List.getElem?_eq_getElem hq, hqueries _ (List.getElem_mem hq)] at hk
      exact nomatch hk
  have harriving := h.arriving_eq hsent
  simpa [arriving, hevents] using harriving

/-- In a run whose steps keep up the engine has the current layout whenever watcher and
    engine are at rest. -/
theorem converges {engine : Engine} {layout : List PaneGeometry}
    {tr : List (Transition TmuxWatcher Action)} (h : Run (Step hash128) (new engine layout) tr s)
    (hC : ∀ t ∈ tr, t.pre.KeepsUp t.label) : ∀ t ∈ tr, t.post.Converged := by
  have hordered := h.restrict hC
  intro t ht
  obtain ⟨tr₁, tr₂, -, hpre, hstep⟩ := hordered.exists_split ht
  have hinv : t.pre.Inv :=
    Run.invariant (I := Inv) (inv_new engine layout) (fun _ _ _ hi hs => inv_step hs.1 hs.2 hi) hpre
  exact (inv_step hstep.1 hstep.2 hinv).converged

/-- One pane of some width. -/
def onePane (width : Int64) : List PaneGeometry :=
  [{ id := "%0", top := 0, left := 0, width, height := 24, active := true }]

/-- A second layout change comes while the query for the first holds its snapshot. -/
def overlapActions : List Action :=
  [.snapshot 0, .send 0, .take default, .attach,
    .layoutChange (onePane 40), .line "%layout-change @0" 1, .fire, .snapshot 1,
    .layoutChange (onePane 20), .line "%layout-change @0" 2, .fire, .snapshot 2]

/-- The later query sends first. -/
def outOfOrderActions : List Action :=
  overlapActions ++ [.send 2, .send 1, .take default, .take default]

/-- A new engine, with a width of 80. -/
def start : TmuxWatcher := new (.new false false true true 1) (onePane 80)

/-- A run with two queries at a time, which ends at rest. -/
theorem converges_overlap :
    ∃ tr s, Run (Step fun _ => 0) start tr s ∧ s.Resting ∧ ∀ t ∈ tr, t.post.Converged := by
  have hrun := Run.of_follow (next fun _ => 0) start
    (List.append overlapActions [.send 1, .send 2, .take default, .take default]) (by decide)
  refine ⟨_, _, hrun, ⟨by decide, by decide, by decide, by decide, by decide⟩, ?_⟩
  exact converges hrun (by decide)

/-- The older of two snapshots arrives last. -/
theorem converges_fails :
    ∃ tr s, Run (Step fun _ => 0) start tr s ∧ ¬ s.Converged := by
  have hrun := Run.of_follow (next fun _ => 0) start outOfOrderActions (by decide)
  refine ⟨_, _, hrun, fun hconv => ?_⟩
  have hpanes := hconv ⟨by decide, by decide, by decide, by decide, by decide⟩
  have hwidth := congrArg (fun m => m["%0"]?.map PaneGeometry.width) hpanes
  revert hwidth
  decide

end TmuxWatcher

end Kgd
