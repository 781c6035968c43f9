import Kgd.Spec.Cleanup
import Kgd.Spec.GeometryHistory
import Kgd.Spec.LivePlacements
import Kgd.Spec.Wraparound

/-!
# What list and status report

`list` reports what the engine holds of each placement, `status` counts. Both agree with what is
outside of the engine's placement table: the visible entries of a list are what the terminal
displays, and the images of a status are the referenced ones among the cached.

## Key results

- `World.mirrors_of_live`: the terminal mirrors the engine while no placed image is evicted
- `World.list_shows`: what is listed as visible is on display
- `World.status_counts`: what is counted
-/

namespace Kgd

/-! ## Evictions of images that are not placed -/

/-- Actions about images that do not free the image `i` leave it on display. -/
theorem Terminal.applyAll_shown_of_kept {out : List Action}
    (himages : ∀ call, Action.gfx call ∈ out → call.touchesImages = true) (t : Terminal)
    {i : UInt32} (hkept : ∀ pid, Action.gfx (.delete i pid true) ∉ out) (p : UInt32) :
    (t.applyAll out).shown i p = t.shown i p := by
  induction out generalizing t with
  | nil => rfl
  | cons a out ih =>
    rw [applyAll_cons, ih (fun call hc => himages call (List.mem_cons_of_mem _ hc)) _
      fun pid hpid => hkept pid (List.mem_cons_of_mem _ hpid)]
    cases a with
    | gfx call =>
      have hcall := himages call List.mem_cons_self
      cases call with
      | transmit => rfl
      | delete imageID pid free =>
        -- such a call deletes a placement only by freeing its whole image
        have hfree : free = true := hcall
        have hi : i ≠ imageID := by
          rintro rfl
          exact hkept pid (by simp [hfree])
        simp [act, apply, hfree, hi]
      | place | beginBatch | flushBatch => cases hcall
    | _ => rfl

/-! ## Answers -/

/-- The entry of a placement in a list. -/
def Placement.listed (p : Placement) : PlacementInfo :=
  { placementID := p.id, clientID := p.clientID, handle := p.imageHandle, visible := p.visible,
    row := p.termRow, col := p.termCol }

namespace Engine

/-- What `handleList` answers. -/
def listed (env : Env) (e : Engine) : List PlacementInfo :=
  (GoMap.entries env.placementOrder e.placements).map fun x => x.2.listed

/-- The reply to a list request is what the engine lists. -/
theorem list_of_receive {hash128 : Data → Hash} {env : Env} {e e' : Engine} {c : ClientID}
    {infos : List PlacementInfo} (h : e.receive hash128 env (.event (.listRequest c)) =
      some (e', [.reply (.list infos)])) : e.listed env = infos := by
  have hout := (Prod.mk.inj (Option.some.inj h)).2
  exact Reply.list.inj (Action.reply.inj (List.singleton_inj.mp hout))

/-- What is listed are the placements. -/
theorem mem_listed {env : Env} {e : Engine} {info : PlacementInfo} :
    info ∈ e.listed env ↔
      ∃ (k : UInt32) (p : Placement), e.placements[k]? = some p ∧ p.listed = info := by
  rw [listed, List.mem_map]
  constructor
  · intro h
    obtain ⟨x, hx, rfl⟩ := h
    exact ⟨x.1, x.2, (GoMap.mem_entries _ _ x.1 x.2).mp hx, rfl⟩
  · intro h
    obtain ⟨k, p, hp, rfl⟩ := h
    exact ⟨(k, p), (GoMap.mem_entries _ _ k p).mpr hp, rfl⟩

/-- What `handleStatus` answers. -/
def statusResult (env : Env) (e : Engine) : StatusResult :=
  { clients := Int64.ofNat e.clientImages.size, placements := Int64.ofNat e.placements.size,
    images := Int64.ofNat ((e.heldImages env).foldl (fun m kittyID => m.insert kittyID ())
      (∅ : GoMap UInt32 Unit)).size,
    cols := intOfUInt16 e.termSize.cols, rows := intOfUInt16 e.termSize.rows }

/-- The reply to a status request is what the engine counts. -/
theorem status_of_receive {hash128 : Data → Hash} {env : Env} {e e' : Engine} {r : StatusResult}
    (h : e.receive hash128 env (.event .statusRequest) = some (e', [.reply (.status r)])) :
    e.statusResult env = r := by
  have hout := (Prod.mk.inj (Option.some.inj h)).2
  exact Reply.status.inj (Action.reply.inj (List.singleton_inj.mp hout))

/-- An image is freed where new data is stored and evicts it. -/
theorem freed_of_receive {hash128 : Data → Hash} {env : Env} {e e' : Engine} {input : Input}
    {out : List Action} {i pid : UInt32} (h : e.receive hash128 env input = some (e', out))
    (hgfx : e.gfx = true) (hmem : Action.gfx (.delete i pid true) ∈ out) :
    ∃ c params, input = .event (.uploadRequest c params) ∧
      e.cache.lookup hash128 params.data = none ∧
      i ∈ (e.cache.store hash128 params.data e.idAlloc.next).2 ∧
      ∀ id data format width height,
        Action.gfx (.transmit id data format width height false) ∉ out := by
  -- only a step that evicts frees an image
  have hquiet (hq : ImageQuiet out) : False := by
    have hno := hq _ hmem
    cases hno
  cases imageStep_of_receive h with
  | quiet _ _ _ _ _ _ hq => exact absurd hq hquiet
  | hit | refused => simp at hmem
  | @miss c params e₁ out₁ handle hlookup hok hevict =>
    have hout := congrArg Prod.snd hevict
    dsimp only at hout
    subst hout
    refine ⟨c, params, rfl, hlookup, ?_, ?_⟩
    · simp only [List.mem_append, gfx_mem_gfxCalls, List.mem_singleton, reduceCtorEq, and_false,
        or_false, false_or] at hmem
      obtain ⟨eid, heid, heq⟩ := calls_of_freeEvicted hmem
      obtain ⟨rfl, -⟩ := GfxCall.delete.inj heq
      exact heid
    · -- the transmission was not refused, and eviction transmits nothing
      intro id data format width height hmem'
      simp only [List.mem_append, gfx_mem_gfxCalls, List.mem_singleton, hok hgfx,
        Option.isNone_none, GfxCall.transmit.injEq, reduceCtorEq, and_false, or_false,
        false_or] at hmem'
      obtain ⟨eid, -, heq⟩ := calls_of_freeEvicted hmem'
      cases heq
  | free => cases hmem
  | disconnect _ _ _ hq => exact absurd hq hquiet

end Engine

namespace World

/-- A step that evicts no placed image keeps the mirror. -/
theorem mirrors_step_of_live {hash128 : Data → Hash} {w w' : World} {l : Label}
    (hgfx : w.engine.gfx = true) (hkeyed : w.engine.Keyed) (hacc : w.engine.Accounts)
    (hfresh : w.engine.nextPlacement + 1 ∉ w.engine.placements)
    (hm : w.engine.Mirrors w.terminal) (hs : Step hash128 w l w')
    (hlive : EvictsNoPlaced hash128 w l) : w'.engine.Mirrors w'.terminal := by
  obtain ⟨env, hr, ht⟩ := hs
  have hstep := Engine.placementStep_of_receive hr
  rw [ht]
  obtain ⟨input, out⟩ := l
  obtain ⟨e', t'⟩ := w'
  dsimp only at hr hstep hlive ⊢
  by_cases hout : EvictsNothing out
  · exact Engine.mirrors_step hgfx hkeyed hfresh hm hstep hout
  · simp only [EvictsNothing, not_forall] at hout
    obtain ⟨a, ha, hfrees⟩ := hout
    have hfreed : ∃ c params, input = .event (.uploadRequest c params) := by
      cases a with
      | gfx call =>
        cases call with
        | delete imageID pid free =>
          have hfree : free = true := by simpa [Action.freesImage] using hfrees
          obtain ⟨c, params, hin, -⟩ := Engine.freed_of_receive hr hgfx (hfree ▸ ha)
          exact ⟨c, params, hin⟩
        | _ => exact absurd rfl hfrees
      | _ => exact absurd rfl hfrees
    obtain ⟨c, params, hin⟩ := hfreed
    cases hstep with
    | place | unplace | unplaceAll | disconnect => cases hin
    | same _ _ _ _ _ hplacements _ _ _ _ _ himages =>
      have hkeyed' : e'.Keyed := by rw [Engine.Keyed, hplacements]; exact hkeyed
      rw [Engine.mirrors_iff hkeyed] at hm
      rw [Engine.mirrors_iff hkeyed']
      intro i pid
      have hdisplay : e'.display i pid = w.engine.display i pid := by
        rw [Engine.display, hplacements, Engine.display]
      rw [hdisplay, ← hm]
      cases hd : w.engine.display i pid with
      | none =>
        rcases Terminal.applyAll_shown_of_images himages w.terminal i pid with heq | ⟨heq, -⟩
        · exact heq
        · rw [heq, hm, hd]
      | some pos =>
        -- the image has a placement, and so it is not freed
        obtain ⟨p, hp, ⟨-, himage⟩, -⟩ := Engine.display_eq_some.mp hd
        apply Terminal.applyAll_shown_of_kept himages
        intro pid' hmem
        obtain ⟨c', params', hin', hlookup, hstore, hok⟩ := Engine.freed_of_receive hr hgfx hmem
        obtain ⟨en, hen, hid⟩ := (hacc.mem_evicted_iff hlookup).mp hstore
        exact hlive c' params' hin' hlookup hok en hen pid p hp (himage.trans hid.symm)
    | recompute hgeometry =>
      subst hin
      cases hgeometry

section Runs
variable {hash128 : Data → Hash} {gfx notifier stopFunc inTmux : Bool} {maxSize : Int}
  {tr : List (Transition World Label)} {w : World}

/-- Where no placed image is evicted the terminal displays what the engine has rendered. -/
theorem mirrors_of_live
    (h : Runs hash128 (Engine.new true notifier stopFunc inTmux maxSize) tr w)
    (hcalls : nextCalls tr < 2 ^ 32) (hcount : placementsCreated tr < 2 ^ 32 - 1)
    (hlive : ∀ t ∈ tr, EvictsNoPlaced hash128 t.pre t.label) :
    w.engine.Mirrors w.terminal := by
  induction h with
  | nil => simp [Engine.Mirrors, start, Engine.new, Terminal.empty]
  | @snoc tr w l w' hrun hs ih =>
    have hcalls' := nextCalls_le tr [⟨w, l, w'⟩]
    have hcount' := placementsCreated_le tr [⟨w, l, w'⟩]
    have hm := ih (by omega) (by omega) fun t ht => hlive t (List.mem_append_left _ ht)
    have hacc := accounts_of_fresh hrun (freshSteps_of_few hrun (by omega))
    exact mirrors_step_of_live (gfx_of_runs hrun) (keyed_of_runs hrun) hacc
      (nextPlacement_fresh hrun (by omega)) hm hs (hlive ⟨w, l, w'⟩ (by simp))

/-- `list` names every placement once, and those it calls visible are exactly what the terminal
    displays, each where it says. -/
theorem list_shows
    (h : Run (CallsSucceed hash128) (start (Engine.new true notifier stopFunc inTmux maxSize)) tr w)
    (hcalls : nextCalls tr < 2 ^ 32) (hcount : placementsCreated tr < 2 ^ 32 - 1)
    (hlive : ∀ t ∈ tr, EvictsNoPlaced hash128 t.pre t.label) {env : Env} {c : ClientID}
    {infos : List PlacementInfo}
    (hlist : w.engine.receive hash128 env (.event (.listRequest c)) =
      some (w.engine, [.reply (.list infos)])) :
    (infos.map PlacementInfo.placementID).Nodup ∧
      (∀ pid, pid ∈ infos.map PlacementInfo.placementID ↔ pid ∈ w.engine.placements) ∧
      ∀ pid row col, (∃ i, w.terminal.shown i pid = some (row, col)) ↔
        ∃ info ∈ infos, info.placementID = pid ∧ info.visible = true ∧ info.row = row ∧
          info.col = col := by
  have hruns := runs_of_callsSucceed h
  have hkeyed := keyed_of_runs hruns
  have hmirrors := mirrors_of_live hruns hcalls hcount hlive
  obtain rfl := Engine.list_of_receive hlist
  -- the reply lists the map in the iteration order, and each record has its key as ID
  have hids : (w.engine.listed env).map PlacementInfo.placementID =
      env.placementOrder.visit w.engine.placements.keys := by
    rw [← GoMap.map_fst_entries, Engine.listed, List.map_map]
    apply List.map_congr_left
    intro x hx
    exact hkeyed x.1 x.2 ((GoMap.mem_entries _ _ x.1 x.2).mp hx)
  refine ⟨?_, ?_, ?_⟩
  · rw [hids]
    exact GoMap.nodup_visit _ _
  · intro pid
    rw [hids, GoMap.mem_visit]
  · intro pid row col
    constructor
    · intro hx
      obtain ⟨i, hshown⟩ := hx
      -- drawn at the terminal: some rendered record, and rendered
      -- is visible when every call succeeds
      obtain ⟨k, p, hp, hr, -, hid, hpos⟩ := (hmirrors i pid (row, col)).mp hshown
      obtain ⟨rfl, rfl⟩ := Prod.mk.inj hpos
      refine ⟨p.listed, Engine.mem_listed.mpr ⟨k, p, hp, rfl⟩, hid, ?_, rfl, rfl⟩
      exact (rendered_of_runs h hp).symm.trans hr
    · intro hx
      obtain ⟨info, hinfo, hid, hvisible, hrow, hcol⟩ := hx
      obtain ⟨k, p, hp, rfl⟩ := Engine.mem_listed.mp hinfo
      refine ⟨p.kittyImgID, (hmirrors _ _ _).mpr ⟨k, p, hp, ?_, rfl, hid, ?_⟩⟩
      · exact (rendered_of_runs h hp).trans hvisible
      · rw [← hrow, ← hcol]
        rfl

/-- `status` counts the placements that `list` names, and the images that it counts are the
    referenced ones of the cache, each of which is stored on the terminal. -/
theorem status_counts
    (h : Runs hash128 (Engine.new true notifier stopFunc inTmux maxSize) tr w)
    (hcalls : nextCalls tr < 2 ^ 32) {env env' : Env} {c : ClientID} {infos : List PlacementInfo}
    {r : StatusResult}
    (hlist : w.engine.receive hash128 env (.event (.listRequest c)) =
      some (w.engine, [.reply (.list infos)]))
    (hstatus : w.engine.receive hash128 env' (.event .statusRequest) =
      some (w.engine, [.reply (.status r)])) :
    r.placements = .ofNat infos.length ∧
      r.images = .ofNat (w.engine.cache.view.countP fun en => !en.unreferenced) ∧
      ∀ en ∈ w.engine.cache.view, en.unreferenced = false →
        en.kittyImgID ∈ w.terminal.stored := by
  have hacc := accounting_of_fresh h (freshSteps_of_few h hcalls)
  have hwf := hacc.accounts.wf
  obtain rfl := Engine.list_of_receive hlist
  obtain rfl := Engine.status_of_receive hstatus
  refine ⟨?_, ?_, ?_⟩
  · rw [Engine.listed, List.length_map, GoMap.length_entries]
    rfl
  -- the images somebody holds are the entries that are referenced
  · rw [Engine.statusResult, GoMap.size_foldl_insert (l := (w.engine.cache.view.filter fun en =>
      !en.unreferenced).map CacheEntry.kittyImgID), List.length_map, List.countP_eq_length_filter]
    · -- no two entries have the same ID
      refine (hwf.nodup_view.filter _).map_on fun en hen en' hen' => ?_
      exact hwf.eq_of_id_eq (List.mem_of_mem_filter hen) (List.mem_of_mem_filter hen')
    · intro id
      rw [Engine.mem_heldImages, List.mem_map]
      constructor
      · intro hx
        obtain ⟨en, hen, rfl⟩ := hx
        obtain ⟨hen, href⟩ := List.mem_filter.mp hen
        have hheld := mt (hacc.accounts.unreferenced_iff hen).mpr (by simpa using href)
        simpa using hheld
      · intro hx
        obtain ⟨c, k, himage⟩ := hx
        obtain ⟨en, hen, rfl⟩ := (hwf.mem_byID id).mp (hacc.accounts.held c k id himage)
        refine ⟨en, List.mem_filter.mpr ⟨hen, ?_⟩, rfl⟩
        have href := mt (hacc.accounts.unreferenced_iff hen).mp fun hno => hno c k himage
        simpa using href
  · intro en hen _
    exact (hacc.stored _).mpr ((hwf.mem_byID _).mpr ⟨en, hen, rfl⟩)

end Runs

/-- A window with one placement, which is listed and on display. -/
theorem list_shows_single :
    ∃ (w : World) (infos : List PlacementInfo), infos.length = 1 ∧
      (infos.map PlacementInfo.placementID).Nodup ∧
      ∀ pid row col, (∃ i, w.terminal.shown i pid = some (row, col)) ↔
        ∃ info ∈ infos, info.placementID = pid ∧ info.visible = true ∧ info.row = row ∧
          info.col = col := by
  -- nothing is evicted in this run
  have hnone : ∀ t ∈ (singleRun.get isSome_singleRun).1,
      RecencyCache.victims t.pre.engine.cache.maxSize t.pre.engine.cache.view = [] := by decide
  have hlive : ∀ t ∈ (singleRun.get isSome_singleRun).1,
      EvictsNoPlaced Script.firstByte t.pre t.label := by
    intro t ht c params _ _ _ en hen
    rw [hnone t ht] at hen
    cases hen
  have hanswer : (singleRun.get isSome_singleRun).2.engine.receive Script.firstByte default
      (.event (.listRequest "a")) = some ((singleRun.get isSome_singleRun).2.engine,
        [.reply (.list ((singleRun.get isSome_singleRun).2.engine.listed default))]) := rfl
  have hlist := list_shows run_singleRun (by decide) (by decide) hlive hanswer
  exact ⟨_, _, by decide, hlist.1, hlist.2.2⟩

/-- Two clients, two images, and one of them cached without a handle. -/
theorem status_counts_freed :
    ∃ (w : World) (infos : List PlacementInfo) (r : StatusResult),
      w.engine.cache.view.length = 2 ∧ r.placements = .ofNat infos.length ∧
      r.images = .ofNat (w.engine.cache.view.countP fun en => !en.unreferenced) := by
  have hrun := runs_of_exec Script.firstByte (Engine.new true true true false 2)
    [Script.upload "a" [1], Script.upload "b" [2], Script.place "a" 1 Script.absolute,
      Script.free "a" 1] (by decide)
  have hcounts := @status_counts _ _ _ _ _ _ _ hrun (by decide) default default "a" _ _ rfl rfl
  exact ⟨_, _, _, by decide, hcounts.1, hcounts.2.1⟩

end World

end Kgd
