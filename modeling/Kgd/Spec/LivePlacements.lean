import Kgd.Spec.ImageAccounting

/-!
# Live placements and the images they show

`World.Live` says that the image of every placement is stored on the terminal. Eviction is
decided from handle counts alone, and a placement outlives the handle it was made from, so
an upload can evict an image that is still placed. `World.live_iff` says that this is the
only way to lose one: a run stays live exactly when no upload that stores new data finds
the image of a placement among the victims.

## Key results

- `World.live_iff`
- `World.live_fails`: an upload of one client evicts an image another client still shows
-/

namespace Kgd

/-- A placement after an input shows an image that a placement showed before, or one that
    some handle denoted. -/
theorem Engine.image_of_placementStep {env : Env} {e e' : Engine} {input : Input}
    {out : List Action} (h : PlacementStep env e input out e') {pid : UInt32} {p : Placement}
    (hp : e'.placements[pid]? = some p) :
    (∃ p₀, e.placements[pid]? = some p₀ ∧ p₀.kittyImgID = p.kittyImgID) ∨
      ∃ c handle, e.handleImage c handle = some p.kittyImgID := by
  rcases placement_cases h hp with hp | ⟨c, params, kittyID, himage, -, -, rfl⟩ |
    ⟨g, p₀, -, hp₀, rfl⟩
  · exact Or.inl ⟨p, hp, rfl⟩
  · exact Or.inr ⟨c, params.handle, himage⟩
  · refine Or.inl ⟨p₀, hp₀, ?_⟩
    rw [recomputeOne_fst]

/-- An upload leaves the placements. -/
theorem Engine.placements_of_upload {env : Env} {e e' : Engine} {c : ClientID}
    {params : UploadParams} {out : List Action}
    (h : PlacementStep env e (.event (.uploadRequest c params)) out e') :
    e'.placements = e.placements := by
  cases h with
  | same _ _ _ _ _ hplacements => exact hplacements
  | recompute hgeometry => exact nomatch hgeometry

namespace World

/-- Every placement's image is stored on the terminal. -/
def Live (w : World) : Prop :=
  ∀ (pid : UInt32) (p : Placement), w.engine.placements[pid]? = some p →
    p.kittyImgID ∈ w.terminal.stored

/-- An upload that stores new data (the bytes are unknown and `Transmit` does not refuse them)
    evicts no image of a placement. -/
def EvictsNoPlaced (hash128 : Data → Hash) (w : World) (l : Label) : Prop :=
  ∀ c params, l.input = .event (.uploadRequest c params) →
    w.engine.cache.lookup hash128 params.data = none →
    (∀ id data format width height,
      Action.gfx (.transmit id data format width height false) ∉ l.out) →
    ∀ en ∈ RecencyCache.victims w.engine.cache.maxSize w.engine.cache.view,
      ∀ (pid : UInt32) (p : Placement), w.engine.placements[pid]? = some p →
        p.kittyImgID ≠ en.kittyImgID

/-- An input that frees no stored image keeps a live world live. -/
theorem live_of_stored_subset {hash128 : Data → Hash} {w w' : World} {l : Label}
    (hacc : w.Accounting) (hlive : w.Live) (hs : Step hash128 w l w')
    (hsub : ∀ id ∈ w.terminal.stored, id ∈ w'.terminal.stored) : w'.Live := by
  obtain ⟨env, hr, -⟩ := hs
  intro pid p hp
  have hstep := Engine.placementStep_of_receive hr
  refine hsub _ ?_
  rcases Engine.image_of_placementStep hstep hp with ⟨p₀, hp₀, himage⟩ | ⟨c, handle, himage⟩
  · exact himage ▸ hlive pid p₀ hp₀
  · exact (hacc.stored _).mpr (hacc.accounts.held c handle _ himage)

/-- A miss keeps a live world live exactly when its victims are not placed. -/
theorem live_miss {e e' : Engine} {t t' : Terminal} (hacc : Accounting ⟨e, t⟩)
    (hlive : Live ⟨e, t⟩) {hash128 : Data → Hash} {data : Data}
    (hlookup : e.cache.lookup hash128 data = none)
    (hplacements : e'.placements = e.placements)
    (hstored : t'.stored = insert e.idAlloc.next t.stored \
      (e.cache.store hash128 data e.idAlloc.next).2.toFinset) :
    Live ⟨e', t'⟩ ↔ ∀ en ∈ RecencyCache.victims e.cache.maxSize e.cache.view,
      ∀ (pid : UInt32) (p : Placement), e.placements[pid]? = some p →
        p.kittyImgID ≠ en.kittyImgID := by
  simp only [Live, hplacements, hstored, Finset.mem_sdiff, Finset.mem_insert, List.mem_toFinset,
    hacc.accounts.mem_evicted_iff hlookup]
  constructor
  · intro h en hen pid p hp heq
    exact (h pid p hp).2 ⟨en, hen, heq.symm⟩
  · intro h pid p hp
    refine ⟨Or.inr (hlive pid p hp), ?_⟩
    -- the image was stored before and was not evicted
    intro hx
    obtain ⟨en, hen, heq⟩ := hx
    exact h en hen pid p hp heq.symm

/-- From a live world one step leads to a live world exactly when it evicts no placed image. -/
theorem live_step {hash128 : Data → Hash} {w w' : World} {l : Label} (hacc : w.Accounting)
    (hgfx : w.engine.gfx = true) (hlive : w.Live) (hs : Step hash128 w l w')
    (hfresh : FreshStep ⟨w, l, w'⟩) : w'.Live ↔ EvictsNoPlaced hash128 w l := by
  have hacc' := accounting_step hacc hgfx hs hfresh
  -- a step that takes no image out of the cache frees none on the terminal
  have hquiet : w'.engine.cache.byID = w.engine.cache.byID → w'.Live := by
    intro hkeys
    refine live_of_stored_subset hacc hlive hs fun id hid => ?_
    rw [hacc'.stored, hkeys]
    exact (hacc.stored id).mp hid
  obtain ⟨env, hr, ht⟩ := hs
  have hplace := Engine.placementStep_of_receive hr
  have hstep := Engine.imageStep_of_receive hr
  obtain ⟨input, out⟩ := l
  obtain ⟨e, t⟩ := w
  obtain ⟨e', t'⟩ := w'
  simp only at hr ht hplace hstep hquiet
  cases hstep with
  | quiet hupload _ _ hcache =>
    refine iff_of_true (hquiet (by rw [hcache])) fun c params heq => ?_
    exact absurd heq (hupload c params)
  | @hit c params kittyID handle hlookup =>
    refine iff_of_true (hquiet (Cache.byID_store_hit hlookup _)) fun c' params' heq hnone => ?_
    simp only [Input.event.injEq, Event.uploadRequest.injEq] at heq
    rw [← heq.2] at hnone
    exact nomatch hlookup.symm.trans hnone
  | @refused c params err =>
    refine iff_of_true (hquiet rfl) fun c' params' _ _ hok => ?_
    exact absurd (List.mem_cons_self) (hok _ params.data params.format params.width params.height)
  | @miss c params e₁ out₁ handle hlookup hok hevict =>
    obtain ⟨-, halloc, -⟩ := hacc.accounts.of_evict hlookup hevict
    have hplacements := Engine.placements_of_upload hplace
    have hstored := congrArg Terminal.stored ht
    rw [Engine.applyAll_miss hgfx (hok hgfx) hevict] at hstored
    refine (live_miss hacc hlive hlookup hplacements hstored).trans ?_
    constructor
    · intro h c' params' heq _ _
      exact h
    · intro h
      -- the transmission of a miss was not refused, and eviction transmits nothing
      refine h c params rfl hlookup fun id data format width height hmem => ?_
      simp only [List.mem_append, Engine.gfx_mem_gfxCalls, List.mem_singleton, hok hgfx,
        Option.isNone_none, GfxCall.transmit.injEq, reduceCtorEq, and_false, or_false,
        false_or] at hmem
      have hout := congrArg Prod.snd hevict
      simp only at hout
      rw [← hout] at hmem
      obtain ⟨eid, -, heq⟩ := Engine.calls_of_freeEvicted hmem
      exact nomatch heq
  | free =>
    refine iff_of_true (hquiet (Cache.byID_release _ _)) fun c params heq => ?_
    exact nomatch heq
  | disconnect hcache =>
    refine iff_of_true (hquiet ?_) fun c params heq => nomatch heq
    rw [hcache, Engine.byID_releaseAll]

/-- In a run that allocates no ID twice, every placement keeps its image in every state
    exactly when no step evicts the image of a placement. -/
theorem live_iff {hash128 : Data → Hash} {notifier stopFunc inTmux : Bool} {maxSize : Int}
    {tr : List (Transition World Label)} {w : World}
    (h : Runs hash128 (Engine.new true notifier stopFunc inTmux maxSize) tr w)
    (hfresh : ∀ t ∈ tr, FreshStep t) :
    (∀ t ∈ tr, t.post.Live) ↔ ∀ t ∈ tr, EvictsNoPlaced hash128 t.pre t.label := by
  refine Run.forall_post_iff ?_ ?_ (h.restrict hfresh)
  · intro pid p hp
    simp [start, Engine.new] at hp
  · intro tr w l w' hrun hlive hs
    have hrun' : Runs hash128 (Engine.new true notifier stopFunc inTmux maxSize) tr w :=
      hrun.mono fun _ _ _ hstep => hstep.1
    -- the restricted run carries the freshness of each of its steps
    have hacc : w.Accounting := accounting_of_fresh hrun' fun t ht => by
      obtain ⟨_, _, -, -, hstep⟩ := hrun.exists_split ht
      exact hstep.2
    exact live_step hacc (gfx_of_runs hrun') hlive hs.1 hs.2

/-- Client "a" places an image and frees its handle; with room for one image, the upload of
    "b" evicts it. -/
def evictPlacedScript : List (Env × Input) :=
  [Script.upload "a" [1], Script.place "a" 1 Script.absolute, Script.free "a" 1,
    Script.upload "b" [2]]

/-- A run in which an image with a placement is evicted. -/
theorem live_iff_evictPlaced :
    ∃ tr w, Runs Script.firstByte (Engine.new true true true false 1) tr w ∧
      ((∀ t ∈ tr, t.post.Live) ↔ ∀ t ∈ tr, EvictsNoPlaced Script.firstByte t.pre t.label) := by
  have hrun := runs_of_exec Script.firstByte (Engine.new true true true false 1) evictPlacedScript
    (by decide)
  exact ⟨_, _, hrun, live_iff hrun (fresh_of_nextCalls hrun (by decide))⟩

/-- The placement of "a" is still there, its image is not. -/
theorem live_fails :
    ∃ tr w, Runs Script.firstByte (Engine.new true true true false 1) tr w ∧ ¬ w.Live := by
  have hrun := runs_of_exec Script.firstByte (Engine.new true true true false 1) evictPlacedScript
    (by decide)
  refine ⟨_, _, hrun, fun hlive => ?_⟩
  -- the placement is of the image that was evicted
  have himage : ((exec Script.firstByte (Engine.new true true true false 1)
      evictPlacedScript).get (by decide)).2.engine.placements[(1 : UInt32)]?.map
        Placement.kittyImgID = some 1 := by decide
  obtain ⟨p, hp, hid⟩ := Option.map_eq_some_iff.mp himage
  have hstored := hlive 1 p hp
  rw [hid] at hstored
  exact absurd hstored (by decide)

end World

end Kgd
