import Kgd.Spec.GeometryHistory
import Kgd.Spec.LivePlacements
import Kgd.Spec.Wraparound

/-!
# What clients are told

A client hears of evictions, of the visibility of its placements, and of the terminal's size and
colors. If it follows these notifications it knows what the engine knows: the visibility of each
placement as long as the placement exists, and the terminal as another hello would report it.
Of an eviction nobody ever hears, since only images without handles are evicted.

## Key results

- `Engine.tells_of_receive`: what can be told of an input
- `World.never_evicted`: no handle is lost to an eviction
- `World.told_visibility`: the record of a placement's visibility
- `World.told_terminal`: the terminal after a hello
-/

namespace Kgd

/-- A notification, to one client or to all. -/
def Action.tells : Action → Bool
  | .notifyClient .. => true
  | .notifyAll _ => true
  | _ => false

namespace Engine

/-! ## What is told of an input -/

theorem tells_gfxCalls {e : Engine} {calls : List GfxCall} {a : Action}
    (h : a ∈ e.gfxCalls calls) : a.tells = false := by
  unfold gfxCalls at h
  split at h
  · obtain ⟨call, -, rfl⟩ := List.mem_map.mp h
    rfl
  · cases h

theorem tells_deleteRendered {e : Engine} {p : Placement} {a : Action}
    (h : a ∈ e.deleteRendered p) : a.tells = false := by
  unfold deleteRendered at h
  split at h
  · exact tells_gfxCalls h
  · cases h

theorem tells_removeOwned {env : Env} {e : Engine} {c : ClientID} {a : Action}
    (h : a ∈ (e.removeOwned env c).2) : a.tells = false := by
  obtain ⟨pid, p, -, hp⟩ := (GoMap.mem_rangeUpdate_snd _ _ _ _).mp h
  split at hp
  · exact tells_deleteRendered hp
  · cases hp

theorem tells_handlePlace {env : Env} {e : Engine} {c : ClientID} {params : PlaceParams}
    {a : Action} (h : a ∈ (e.handlePlace env c params).2) : a.tells = false := by
  unfold handlePlace at h
  split at h
  · rw [List.mem_singleton.mp h]
    rfl
  · split at h
    · rw [List.mem_singleton.mp h]
      rfl
    · rw [List.mem_append] at h
      rcases h with h | h
      · split at h
        · exact tells_gfxCalls h
        · cases h
      · rw [List.mem_singleton.mp h]
        rfl

theorem tells_handleUnplace {e : Engine} {c : ClientID} {pid : UInt32} {a : Action}
    (h : a ∈ (e.handleUnplace c pid).2) : a.tells = false := by
  unfold handleUnplace at h
  split at h
  · cases h
  · split at h
    · cases h
    · exact tells_deleteRendered h

/-- A recomputation tells of visibility only. -/
theorem tells_recomputePlacements {env : Env} {e : Engine} {a : Action}
    (h : a ∈ (e.recomputePlacements env).2) (htells : a.tells = true) :
    ∃ c pid visible, a = .notifyClient c (.visibilityChanged pid visible) := by
  simp only [recomputePlacements, List.mem_append] at h
  rcases h with (h | h) | h
  · simp [tells_gfxCalls h] at htells
  -- between the brackets there are calls and visibility notices
  · obtain ⟨pid, p, -, hp⟩ := (GoMap.mem_rangeUpdate_snd _ _ _ _).mp h
    unfold recomputeOne at hp
    split at hp
    · cases hp
    · rw [List.mem_append] at hp
      rcases hp with hp | hp
      · obtain ⟨call, -, rfl⟩ := List.mem_map.mp hp
        cases htells
      · split at hp
        · exact ⟨_, _, _, List.mem_singleton.mp hp⟩
        · cases hp
  · simp [tells_gfxCalls h] at htells

/-- An eviction notice names a handle that denoted the image. -/
theorem tells_notifyEviction {env : Env} {e : Engine} {kittyID : UInt32} {a : Action}
    (h : a ∈ (e.notifyEviction env kittyID).2) :
    ∃ c handle, a = .notifyClient c (.evicted handle) ∧
      e.handleImage c handle = some kittyID := by
  obtain ⟨c, images, himages, h⟩ := (GoMap.mem_rangeUpdate_snd _ _ _ _).mp h
  obtain ⟨handle, kid, hkid, h⟩ := (GoMap.mem_rangeUpdate_snd _ _ _ _).mp h
  by_cases hk : kid = kittyID
  · by_cases hn : e.notifier = true
    · simp only [hk, hn, beq_self_eq_true, ↓reduceIte, List.mem_singleton] at h
      refine ⟨c, handle, h, ?_⟩
      rw [handleImage, himages, Option.bind_some, hkid, hk]
    · simp [hk, hn] at h
  · simp [hk] at h

/-- Freeing evicted images tells who had a handle for one of them. -/
theorem tells_freeEvicted {env : Env} {e : Engine} {evicted : List UInt32} {a : Action}
    (h : a ∈ (e.freeEvicted env evicted).2) (htells : a.tells = true) :
    ∃ c handle, ∃ kittyID ∈ evicted, a = .notifyClient c (.evicted handle) ∧
      e.handleImage c handle = some kittyID := by
  induction evicted generalizing e with
  | nil => cases h
  | cons eid evicted ih =>
    simp only [freeEvicted, List.mem_append] at h
    rcases h with (h | h) | h
    · simp [tells_gfxCalls h] at htells
    · obtain ⟨c, handle, ha, himage⟩ := tells_notifyEviction h
      exact ⟨c, handle, eid, List.mem_cons_self, ha, himage⟩
    · -- the handle is one that the first notice has left
      obtain ⟨c, handle, kittyID, hmem, ha, himage⟩ := ih h
      rw [handleImage_notifyEviction, Option.bind_eq_some_iff] at himage
      obtain ⟨kid, hkid, himage⟩ := himage
      split at himage
      · cases himage
      · exact ⟨c, handle, kittyID, List.mem_cons_of_mem _ hmem, ha, hkid.trans himage⟩

/-- The notifications that an input can cause. -/
inductive Tells (hash128 : Data → Hash) (e : Engine) : Input → Action → Prop
  | topologyChanged {sz} : Tells hash128 e (.size sz) (.notifyAll (.topologyChanged
      (intOfUInt16 sz.cols) (intOfUInt16 sz.rows) (cellSize sz).1 (cellSize sz).2))
  | themeChanged {colors} :
      Tells hash128 e (.colors colors) (.notifyAll (.themeChanged colors.fg colors.bg))
  | visibilityChanged {input c pid visible} (hgeo : input.isGeometry = true) :
      Tells hash128 e input (.notifyClient c (.visibilityChanged pid visible))
  /-- a handle denoted an image that storing new data evicts -/
  | evicted {c c' params handle kittyID}
      (hlookup : e.cache.lookup hash128 params.data = none)
      (hmem : kittyID ∈ (e.cache.store hash128 params.data e.idAlloc.next).2)
      (himage : e.handleImage c handle = some kittyID) :
      Tells hash128 e (.event (.uploadRequest c' params)) (.notifyClient c (.evicted handle))

/-- An upload tells of evictions only, to those who had a handle. -/
theorem tells_handleUpload {hash128 : Data → Hash} {env : Env} {e e' : Engine}
    {c : ClientID} {params : UploadParams} {out : List Action} {a : Action}
    (h : e.handleUpload hash128 env c params = some (e', out)) (ha : a ∈ out)
    (htells : a.tells = true) : Tells hash128 e (.event (.uploadRequest c params)) a := by
  have hstep := imageStep_handleUpload h
  generalize hin : Input.event (.uploadRequest c params) = input at hstep
  cases hstep with
  | quiet hupload => exact absurd hin.symm (hupload c params)
  | hit =>
    obtain rfl := List.mem_singleton.mp ha
    cases htells
  | refused =>
    rw [List.mem_cons, List.mem_singleton] at ha
    rcases ha with rfl | rfl <;> cases htells
  | miss hlookup _ hevict =>
    obtain ⟨rfl, rfl⟩ := Event.uploadRequest.inj (Input.event.inj hin)
    rw [List.mem_append, List.mem_append] at ha
    rcases ha with (ha | ha) | ha
    · simp [tells_gfxCalls ha] at htells
    · have hout := congrArg Prod.snd hevict
      dsimp only at hout
      rw [← hout] at ha
      -- only the images that had to go are told of
      obtain ⟨c', handle, kittyID, hmem, rfl, himage⟩ := tells_freeEvicted ha htells
      exact .evicted hlookup hmem himage
    · obtain rfl := List.mem_singleton.mp ha
      cases htells
  | free | disconnect => cases hin

/-- There are no others. -/
theorem tells_of_receive {hash128 : Data → Hash} {env : Env} {e e' : Engine} {input : Input}
    {out : List Action} {a : Action} (h : e.receive hash128 env input = some (e', out))
    (ha : a ∈ out) (htells : a.tells = true) : Tells hash128 e input a := by
  -- a recomputation tells of visibility, and everything else below of nothing
  have hrecompute {g : Engine} (hgeo : input.isGeometry = true)
      (ha : a ∈ (g.recomputePlacements env).2) : Tells hash128 e input a := by
    obtain ⟨c, pid, visible, rfl⟩ := tells_recomputePlacements ha htells
    exact .visibilityChanged hgeo
  have hquiet (hnot : a.tells = false) : Tells hash128 e input a := by
    rw [hnot] at htells
    cases htells
  cases input with
  | size sz =>
    obtain ⟨rfl, rfl⟩ := Prod.mk.inj (Option.some.inj h)
    rcases List.mem_append.mp ha with ha | ha
    · exact hrecompute rfl ha
    · split at ha
      · obtain rfl := List.mem_singleton.mp ha
        exact .topologyChanged
      · cases ha
  | colors colors =>
    obtain ⟨rfl, rfl⟩ := Prod.mk.inj (Option.some.inj h)
    split at ha
    · obtain rfl := List.mem_singleton.mp ha
      exact .themeChanged
    · cases ha
  | event ev =>
    cases ev with
    | uploadRequest c params => exact tells_handleUpload h ha htells
    | placeRequest =>
      obtain ⟨rfl, rfl⟩ := Prod.mk.inj (Option.some.inj h)
      exact hquiet (tells_handlePlace ha)
    | unplaceRequest =>
      obtain ⟨rfl, rfl⟩ := Prod.mk.inj (Option.some.inj h)
      exact hquiet (tells_handleUnplace ha)
    | unplaceAllRequest | clientDisconnect =>
      obtain ⟨rfl, rfl⟩ := Prod.mk.inj (Option.some.inj h)
      exact hquiet (tells_removeOwned ha)
    | freeRequest c handle =>
      obtain ⟨rfl, rfl⟩ := Prod.mk.inj (Option.some.inj h)
      obtain ⟨-, -, -, -, -, -, hout⟩ := placements_handleFree e c handle
      change a ∈ (e.handleFree c handle).2 at ha
      rw [hout] at ha
      cases ha
    | scrollUpdate c winID scrollTop =>
      obtain ⟨rfl, rfl⟩ := Prod.mk.inj (Option.some.inj h)
      split at ha
      · cases ha
      · exact hrecompute rfl ha
    | registerWin | unregisterWin | updatePanes =>
      obtain ⟨rfl, rfl⟩ := Prod.mk.inj (Option.some.inj h)
      exact hrecompute rfl ha
    -- the stop calls the stop function, which is no notification
    | stopRequest =>
      obtain ⟨rfl, rfl⟩ := Prod.mk.inj (Option.some.inj h)
      split at ha
      · rw [List.mem_singleton.mp ha] at htells
        cases htells
      · cases ha
    | helloRequest | listRequest | statusRequest =>
      obtain ⟨rfl, rfl⟩ := Prod.mk.inj (Option.some.inj h)
      rw [List.mem_singleton.mp ha] at htells
      cases htells

/-- Nobody is told of an eviction by an engine whose accounts hold. -/
theorem Accounts.not_tells_evicted {e : Engine} (h : e.Accounts) {hash128 : Data → Hash}
    {input : Input} {c : ClientID} {handle : UInt32} :
    ¬ Tells hash128 e input (.notifyClient c (.evicted handle)) := by
  intro htells
  cases htells with
  | evicted hlookup hmem himage => exact h.not_held_of_evicted hlookup hmem c handle himage

/-! ## Visibility -/

/-- An event that is not about the geometry does not change it. -/
theorem geometryUpdate_of_not_isGeometry {e : Engine} {input : Input}
    (h : input.isGeometry = false) : e.geometryUpdate input = none := by
  unfold geometryUpdate
  split
  all_goals first | rfl | cases h

/-- The owner of a placement is told exactly if the visibility changes. -/
theorem notices_of_receive {hash128 : Data → Hash} {env : Env} {e e' : Engine} {input : Input}
    {out : List Action} {pid : UInt32} {p p' : Placement}
    (h : e.receive hash128 env input = some (e', out)) (hgfx : e.gfx = true)
    (hnotifier : e.notifier = true) (hkeyed : e.Keyed)
    (hfresh : e'.nextPlacement ≠ e.nextPlacement → e.nextPlacement + 1 ∉ e.placements)
    (hp : e.placements[pid]? = some p) (hp' : e'.placements[pid]? = some p') :
    p'.clientID = p.clientID ∧ visibilityNotices pid out =
      if p'.visible = p.visible then [] else [(p.clientID, p'.visible)] := by
  have hid : p.id = pid := hkeyed pid p hp
  cases hgeo : input.isGeometry with
  | true =>
    -- a scroll of an unknown window changes nothing; all else recomputes on the new geometry
    rcases geometry_cases hgeo h with ⟨rfl, rfl⟩ | ⟨g, notes, hg, rfl, rfl, hnotes⟩
    · obtain rfl := Option.some.inj (hp.symm.trans hp')
      exact ⟨rfl, (if_pos rfl).symm⟩
    · have hplacements : g.placements = e.placements := by rw [hg]
      have hg' : g.gfx = true := by rw [hg]; exact hgfx
      have hn' : g.notifier = true := by rw [hg]; exact hnotifier
      -- what is told besides goes to all clients
      have hquiet : visibilityNotices pid notes = [] := by
        rw [visibilityNotices, List.filterMap_eq_nil_iff]
        intro a ha
        obtain ⟨n, rfl⟩ := hnotes a ha
        rfl
      rw [placements_recompute, hplacements, hp, Option.map_some, Option.some.injEq] at hp'
      rw [recomputeOne_fst] at hp'
      subst hp'
      refine ⟨rfl, ?_⟩
      rw [visibilityNotices_append, hquiet, List.append_nil,
        notices_recomputePlacements env (by rw [Keyed, hplacements]; exact hkeyed)
          (hplacements ▸ hp), ← hid, notices_recomputeOne env hg' hn' p,
        ite_not]
  | false =>
    -- without a change of geometry the placement is not touched
    have hsame : p' = p := by
      rcases placement_cases (placementStep_of_receive h) hp' with hold |
        ⟨c, params, kittyID, -, rfl, hnext, -⟩ | ⟨g, p₀, hgeometry, -⟩
      · exact Option.some.inj (hold.symm.trans hp)
      · exact absurd (GoMap.mem_of_getElem? hp) (hfresh (by rw [hnext]; simp))
      · exact absurd hgeometry (by rw [geometryUpdate_of_not_isGeometry hgeo]; simp)
    subst hsame
    refine ⟨rfl, ?_⟩
    rw [if_pos rfl, visibilityNotices, List.filterMap_eq_nil_iff]
    intro a ha
    split
    · rename_i c id visible
      cases tells_of_receive h ha rfl with
      | visibilityChanged hgeo' =>
        rw [hgeo] at hgeo'
        cases hgeo'
    · rfl

/-! ## The terminal -/

/-- What `handleHello` answers. -/
def helloResult (e : Engine) (c : ClientID) : HelloResult :=
  { clientID := c, cols := intOfUInt16 e.termSize.cols, rows := intOfUInt16 e.termSize.rows,
    cellWidth := (cellSize e.termSize).1, cellHeight := (cellSize e.termSize).2,
    inTmux := e.inTmux, fg := e.termColors.fg, bg := e.termColors.bg }

/-- A hello request is answered with what the engine knows, and changes nothing. -/
theorem receive_helloRequest (hash128 : Data → Hash) (env : Env) (e : Engine) (c : ClientID)
    (params : HelloParams) :
    e.receive hash128 env (.event (.helloRequest c params)) =
      some (e, [.reply (.hello (e.helloResult c))]) := rfl

end Engine

/-- What all clients are told, oldest first. -/
def toldAll (out : List Action) : List Notification :=
  out.filterMap fun
    | .notifyAll n => some n
    | _ => none

theorem toldAll_append (out out' : List Action) :
    toldAll (out ++ out') = toldAll out ++ toldAll out' := List.filterMap_append

/-- What a client makes of a notification about the terminal. -/
def HelloResult.told (r : HelloResult) : Notification → HelloResult
  | .topologyChanged cols rows cellWidth cellHeight => { r with cols, rows, cellWidth, cellHeight }
  | .themeChanged fg bg => { r with fg, bg }
  | .evicted _ | .visibilityChanged .. => r

namespace Engine

/-- Where nothing is told to all there is nothing to apply. -/
theorem toldAll_eq_nil {out : List Action} (h : ∀ n, Action.notifyAll n ∉ out) :
    toldAll out = [] := by
  rw [toldAll, List.filterMap_eq_nil_iff]
  intro a ha
  split
  · exact absurd ha (h _)
  · rfl

/-- A recomputation tells owners, and never all. -/
theorem toldAll_recomputePlacements (env : Env) (e : Engine) :
    toldAll (e.recomputePlacements env).2 = [] := by
  apply toldAll_eq_nil
  intro n h
  obtain ⟨c, pid, visible, ha⟩ := tells_recomputePlacements h rfl
  cases ha

/-- The same terminal, and somebody to notify in both or in neither. -/
structure SameTerminal (e e' : Engine) : Prop where
  notifier : e'.notifier = e.notifier
  inTmux : e'.inTmux = e.inTmux
  termSize : e'.termSize = e.termSize
  termColors : e'.termColors = e.termColors

theorem sameTerminal_handlePlace (env : Env) (e : Engine) (c : ClientID) (params : PlaceParams) :
    e.SameTerminal (e.handlePlace env c params).1 := by
  unfold handlePlace
  split
  · exact ⟨rfl, rfl, rfl, rfl⟩
  · split <;> exact ⟨rfl, rfl, rfl, rfl⟩

theorem sameTerminal_handleUnplace (e : Engine) (c : ClientID) (pid : UInt32) :
    e.SameTerminal (e.handleUnplace c pid).1 := by
  unfold handleUnplace
  split
  · exact ⟨rfl, rfl, rfl, rfl⟩
  · split <;> exact ⟨rfl, rfl, rfl, rfl⟩

theorem sameTerminal_handleFree (e : Engine) (c : ClientID) (handle : UInt32) :
    e.SameTerminal (e.handleFree c handle).1 := by
  unfold handleFree
  split
  · exact ⟨rfl, rfl, rfl, rfl⟩
  · split <;> exact ⟨rfl, rfl, rfl, rfl⟩

theorem sameTerminal_handleScrollUpdate (env : Env) (e : Engine) (winID scrollTop : Int64) :
    e.SameTerminal (e.handleScrollUpdate env winID scrollTop).1 := by
  unfold handleScrollUpdate
  split <;> exact ⟨rfl, rfl, rfl, rfl⟩

theorem sameTerminal_handleUpload {hash128 : Data → Hash} {env : Env} {e e' : Engine}
    {c : ClientID} {params : UploadParams} {out : List Action}
    (h : e.handleUpload hash128 env c params = some (e', out)) : e.SameTerminal e' := by
  have hstep := imageStep_handleUpload h
  generalize hin : Input.event (.uploadRequest c params) = input at hstep
  cases hstep with
  | quiet hupload => exact absurd hin.symm (hupload c params)
  | hit | refused => exact ⟨rfl, rfl, rfl, rfl⟩
  | miss _ _ hevict =>
    -- eviction only changes handle tables
    have hfst := congrArg Prod.fst hevict
    rw [freeEvicted_fst] at hfst
    dsimp only at hfst
    subst hfst
    exact ⟨rfl, rfl, rfl, rfl⟩
  | free | disconnect => cases hin

/-- No event from a client or from tmux changes what the engine knows of the terminal. -/
theorem sameTerminal_of_event {hash128 : Data → Hash} {env : Env} {e e' : Engine} {ev : Event}
    {out : List Action} (h : e.receive hash128 env (.event ev) = some (e', out)) :
    e.SameTerminal e' := by
  cases ev with
  | uploadRequest => exact sameTerminal_handleUpload h
  | placeRequest =>
    obtain ⟨rfl, rfl⟩ := Prod.mk.inj (Option.some.inj h)
    exact sameTerminal_handlePlace ..
  | unplaceRequest =>
    obtain ⟨rfl, rfl⟩ := Prod.mk.inj (Option.some.inj h)
    exact sameTerminal_handleUnplace ..
  | freeRequest =>
    obtain ⟨rfl, rfl⟩ := Prod.mk.inj (Option.some.inj h)
    exact sameTerminal_handleFree ..
  | scrollUpdate =>
    obtain ⟨rfl, rfl⟩ := Prod.mk.inj (Option.some.inj h)
    exact sameTerminal_handleScrollUpdate ..
  -- the loops of these change placements, windows, panes or handles only
  | unplaceAllRequest | clientDisconnect | registerWin | unregisterWin | updatePanes
  | helloRequest | listRequest | statusRequest | stopRequest =>
    obtain ⟨rfl, rfl⟩ := Prod.mk.inj (Option.some.inj h)
    exact ⟨rfl, rfl, rfl, rfl⟩

/-- What an engine says about the terminal changes only in what all clients are told. -/
theorem helloResult_of_receive {hash128 : Data → Hash} {env : Env} {e e' : Engine}
    {input : Input} {out : List Action} (h : e.receive hash128 env input = some (e', out))
    (hnotifier : e.notifier = true) (c : ClientID) :
    e'.notifier = true ∧
      e'.helloResult c = (toldAll out).foldl HelloResult.told (e.helloResult c) := by
  cases input with
  | size sz =>
    -- a new size is told after the recomputation
    have hsize : e.receive hash128 env (.size sz) =
        some ((recomputePlacements env { e with termSize := sz }).1,
          (recomputePlacements env { e with termSize := sz }).2 ++ [.notifyAll (.topologyChanged
            (intOfUInt16 sz.cols) (intOfUInt16 sz.rows) (cellSize sz).1 (cellSize sz).2)]) := by
      rw [receive, onSize]
      simp [recomputePlacements, hnotifier]
    obtain ⟨rfl, rfl⟩ := Prod.mk.inj (Option.some.inj (h.symm.trans hsize))
    refine ⟨hnotifier, ?_⟩
    rw [toldAll_append, toldAll_recomputePlacements]
    rfl
  | colors colors =>
    obtain ⟨rfl, rfl⟩ := Prod.mk.inj (Option.some.inj h)
    refine ⟨hnotifier, ?_⟩
    rw [if_pos hnotifier]
    rfl
  | event ev =>
    have hsame := sameTerminal_of_event h
    refine ⟨hsame.notifier.trans hnotifier, ?_⟩
    rw [toldAll_eq_nil, helloResult, hsame.inTmux, hsame.termSize, hsame.termColors]
    · rfl
    -- events from clients and from tmux tell nothing to all
    · intro n hn
      cases tells_of_receive h hn rfl

end Engine

namespace World

/-! ## Over runs -/

section Runs
variable {hash128 : Data → Hash} {gfx notifier stopFunc inTmux : Bool} {maxSize : Int}
  {tr tr' : List (Transition World Label)} {w w' : World}

/-- No client is ever told that an image was evicted, whoever uploads how much: while kitty IDs
    are not reused, an image that is evicted has no handle. -/
theorem never_evicted (h : Runs hash128 (Engine.new gfx notifier stopFunc inTmux maxSize) tr w)
    (hcalls : nextCalls tr < 2 ^ 32) :
    ∀ t ∈ tr, ∀ c handle, Action.notifyClient c (.evicted handle) ∉ t.label.out := by
  intro t ht c handle hmem
  obtain ⟨tr₁, tr₂, rfl, hrun, env, hr, -⟩ := h.exists_split ht
  have hfresh := freshSteps_of_few h hcalls
  have hacc := accounts_of_fresh hrun fun t' ht' => hfresh t' (List.mem_append_left _ ht')
  exact hacc.not_tells_evicted (Engine.tells_of_receive hr hmem rfl)

/-- Whether there is somebody to notify never changes. -/
theorem notifier_of_runs
    (h : Runs hash128 (Engine.new gfx true stopFunc inTmux maxSize) tr w) :
    w.engine.notifier = true := by
  refine Run.invariant (I := fun w : World => w.engine.notifier = true) rfl ?_ h
  intro w l w' hnotifier hs
  obtain ⟨env, hr, -⟩ := hs
  exact (Engine.helloResult_of_receive hr hnotifier "").1

/-- A placement that is gone does not come back while placement IDs are not reused. -/
theorem not_mem_of_not_mem
    (h : Runs hash128 (Engine.new gfx notifier stopFunc inTmux maxSize) tr w)
    (hrun : Run (Step hash128) w tr' w') (hcount : placementsCreated (tr ++ tr') < 2 ^ 32)
    {pid : UInt32} (hle : pid.toNat ≤ placementsCreated tr) (hpid : pid ∉ w.engine.placements) :
    pid ∉ w'.engine.placements := by
  induction hrun with
  | nil => exact hpid
  | @snoc tr' w₁ l w₂ hrun hs ih =>
    rw [← List.append_assoc] at hcount
    have hmono := placementsCreated_le (tr ++ tr') [⟨w₁, l, w₂⟩]
    have hmono' := placementsCreated_le tr tr'
    have hgone := ih (by omega)
    have hnext := (nextPlacement_of_runs (h.append hrun) (by omega)).1
    rw [placementsCreated_concat] at hcount
    obtain ⟨env, hr, -⟩ := hs
    intro hmem
    obtain ⟨p, hp⟩ := Option.isSome_iff_exists.mp (Std.ExtTreeMap.mem_iff_isSome_getElem?.mp hmem)
    rcases Engine.placement_cases (Engine.placementStep_of_receive hr) hp with hp |
      ⟨c, params, kittyID, -, rfl, heq, -⟩ | ⟨g, p₀, -, hp₀, -⟩
    · exact hgone (GoMap.mem_of_getElem? hp)
    · -- a new placement has a higher ID
      have hne : w₂.engine.nextPlacement ≠ w₁.engine.nextPlacement := by
        rw [heq]
        simp
      have hone : (1 : UInt32).toNat = 1 := rfl
      rw [if_neg hne] at hcount
      rw [UInt32.toNat_add, hnext, hone] at hle
      omega
    · exact hgone (GoMap.mem_of_getElem? hp₀)

/-- While a placement exists its owner, and nobody else, is told of every change of its
    visibility, in turn, and last of how it is now. -/
theorem told_visibility (h : Runs hash128 (Engine.new true true stopFunc inTmux maxSize) tr w)
    (hrun : Run (Step hash128) w tr' w') (hcount : placementsCreated (tr ++ tr') < 2 ^ 32)
    {pid : UInt32} {p p' : Placement} (hp : w.engine.placements[pid]? = some p)
    (hp' : w'.engine.placements[pid]? = some p') :
    (∀ notice ∈ told pid tr', notice.1 = p.clientID) ∧
      (p.visible :: (told pid tr').map Prod.snd).IsChain (· ≠ ·) ∧
      ((told pid tr').map Prod.snd).getLastD p.visible = p'.visible := by
  suffices hmain : p'.clientID = p.clientID ∧ (∀ notice ∈ told pid tr', notice.1 = p.clientID) ∧
      (p.visible :: (told pid tr').map Prod.snd).IsChain (· ≠ ·) ∧
      ((told pid tr').map Prod.snd).getLastD p.visible = p'.visible from hmain.2
  have hle := (nextPlacement_of_runs h
    (Nat.lt_of_le_of_lt (placementsCreated_le tr tr') hcount)).2 pid p hp
  induction hrun generalizing p' with
  | nil =>
    obtain rfl := Option.some.inj (hp.symm.trans hp')
    refine ⟨rfl, fun notice hnotice => absurd hnotice List.not_mem_nil,
      List.isChain_singleton _, rfl⟩
  | @snoc tr' w₁ l w₂ hrun hs ih =>
    have hassoc := (List.append_assoc tr tr' [⟨w₁, l, w₂⟩]).symm
    rw [hassoc] at hcount
    have hcount₁ := Nat.lt_of_le_of_lt (placementsCreated_le (tr ++ tr') [⟨w₁, l, w₂⟩]) hcount
    have hreach := h.append hrun
    cases hp₁ : w₁.engine.placements[pid]? with
    | none =>
      -- it would have come back
      have hgone : pid ∉ w₁.engine.placements := by
        rw [Std.ExtTreeMap.mem_iff_isSome_getElem?, hp₁]
        exact Bool.false_ne_true
      have hle₁ := Nat.le_trans hle (placementsCreated_le tr tr')
      exact absurd (GoMap.mem_of_getElem? hp')
        (not_mem_of_not_mem hreach (Run.nil.snoc hs) hcount hle₁ hgone)
    | some p₁ =>
      obtain ⟨howner, howners, hchain, hlast⟩ := ih hcount₁ hp₁
      have hfresh := nextPlacement_fresh_step hreach hcount
      obtain ⟨env, hr, -⟩ := hs
      obtain ⟨howner', hnotices⟩ := Engine.notices_of_receive hr (gfx_of_runs hreach)
        (notifier_of_runs hreach) (keyed_of_runs hreach) hfresh hp₁ hp'
      have htold : told pid (tr' ++ [⟨w₁, l, w₂⟩]) =
          told pid tr' ++ visibilityNotices pid l.out := by
        simp [told]
      have hmap : (visibilityNotices pid l.out).map Prod.snd =
          if p'.visible = p₁.visible then [] else [p'.visible] := by
        rw [hnotices]
        split <;> rfl
      rw [htold, List.map_append, hmap]
      refine ⟨howner'.trans howner, ?_, List.isChain_append_change hchain hlast⟩
      intro notice hnotice
      rcases List.mem_append.mp hnotice with hnotice | hnotice
      · exact howners notice hnotice
      · rw [hnotices] at hnotice
        split at hnotice
        · cases hnotice
        · rw [List.mem_singleton.mp hnotice]
          exact howner

/-- A client that has said hello and follows the notifications knows what another hello would
    tell it about the terminal. -/
theorem told_terminal (h : Runs hash128 (Engine.new gfx true stopFunc inTmux maxSize) tr w)
    (hrun : Run (Step hash128) w tr' w') (env : Env) {c : ClientID} {params : HelloParams}
    {r : HelloResult}
    (hello : w.engine.receive hash128 env (.event (.helloRequest c params)) =
      some (w.engine, [.reply (.hello r)])) :
    w'.engine.receive hash128 env (.event (.helloRequest c params)) =
      some (w'.engine, [.reply (.hello
        ((tr'.flatMap fun t => toldAll t.label.out).foldl HelloResult.told r))]) := by
  rw [Engine.receive_helloRequest] at hello ⊢
  obtain rfl : w.engine.helloResult c = r := by simpa using hello
  -- one step: what a hello would say changes by what everybody is told
  have hstep : ∀ (w : World) (l : Label) (w' : World), w.engine.notifier = true →
      Step hash128 w l w' → w'.engine.notifier = true ∧
        w'.engine.helloResult c =
          (toldAll l.out).foldl HelloResult.told (w.engine.helloResult c) := by
    intro w l w' hnotifier hs
    obtain ⟨env, hr, -⟩ := hs
    exact Engine.helloResult_of_receive hr hnotifier c
  rw [hrun.view_eq_foldl (fun w => w.engine.notifier = true) (fun w => w.engine.helloResult c)
    (fun l => toldAll l.out) HelloResult.told (notifier_of_runs h) hstep]

end Runs

/-! ## Concrete runs -/

/-- With room for one image the upload of "b" evicts the image that "a" has placed and freed. -/
theorem never_evicted_evictPlaced :
    ∃ tr w, Runs Script.firstByte (Engine.new true true true false 1) tr w ∧
      (∃ t ∈ tr, Action.gfx (.delete 1 0 true) ∈ t.label.out) ∧
      ∀ t ∈ tr, ∀ c handle, Action.notifyClient c (.evicted handle) ∉ t.label.out := by
  have hrun := runs_of_exec Script.firstByte (Engine.new true true true false 1) evictPlacedScript
    (by decide)
  exact ⟨_, _, hrun, by decide, never_evicted hrun (by decide)⟩

/-- The engine after `twoPlacementsScript`. -/
private def twoPlacements : World :=
  ((exec Script.firstByte (Engine.new true true true false 1) twoPlacementsScript).get
    (by decide)).2

/-- The window of the second placement is scrolled away from it and back, and the terminal
    changes. -/
private def scrollScript : List (Env × Input) :=
  [Script.event (.scrollUpdate "a" 1000 50), (default, .size ⟨24, 80, 480, 640⟩),
    Script.event (.scrollUpdate "a" 1000 0), (default, .colors ⟨⟨1, 2, 3⟩, ⟨4, 5, 6⟩⟩)]

private theorem isSome_scrollScript :
    (Run.exec (next Script.firstByte) twoPlacements scrollScript).isSome := by decide

private theorem run_scrollScript :
    Run (Step Script.firstByte) twoPlacements
      ((Run.exec (next Script.firstByte) twoPlacements scrollScript).get isSome_scrollScript).1
      ((Run.exec (next Script.firstByte) twoPlacements scrollScript).get isSome_scrollScript).2 :=
  Run.of_exec (fun _ _ _ _ => step_of_next) (Option.some_get isSome_scrollScript).symm

/-- A placement is scrolled out of its window and back. -/
theorem told_visibility_scrolled :
    ∃ (w w' : World) (tr : List (Transition World Label)) (p p' : Placement),
      Run (Step Script.firstByte) w tr w' ∧ w.engine.placements[(2 : UInt32)]? = some p ∧
      told 2 tr = [("a", false), ("a", true)] ∧
      ((told 2 tr).map Prod.snd).getLastD p.visible = p'.visible := by
  have hrun := runs_of_exec Script.firstByte (Engine.new true true true false 1)
    twoPlacementsScript (by decide)
  have hp := (Option.some_get (x := twoPlacements.engine.placements[(2 : UInt32)]?)
    (by decide)).symm
  have hp' := (Option.some_get (x := ((Run.exec (next Script.firstByte) twoPlacements
    scrollScript).get isSome_scrollScript).2.engine.placements[(2 : UInt32)]?) (by decide)).symm
  exact ⟨_, _, _, _, _, run_scrollScript, hp, by decide,
    (told_visibility hrun run_scrollScript (by decide) hp hp').2.2⟩

/-- The terminal changes its size and its colors. -/
theorem told_terminal_scrolled :
    ∃ w tr w' r, Run (Step Script.firstByte) w tr w' ∧
      (tr.flatMap fun t => toldAll t.label.out).length = 2 ∧
      w'.engine.receive Script.firstByte default (.event (.helloRequest "b" ⟨"", 0, "", ""⟩)) =
        some (w'.engine, [.reply (.hello
          ((tr.flatMap fun t => toldAll t.label.out).foldl HelloResult.told r))]) := by
  have hrun := runs_of_exec Script.firstByte (Engine.new true true true false 1)
    twoPlacementsScript (by decide)
  exact ⟨_, _, _, _, run_scrollScript, by decide,
    told_terminal hrun run_scrollScript default
      (Engine.receive_helloRequest Script.firstByte default _ "b" ⟨"", 0, "", ""⟩)⟩

end World

end Kgd
