import Kgd.Spec.Terminal

/-!
# What one input does

Every handler of the engine is described once, from two sides: `ImageStep` says what an
input does to handle tables, cache and ID allocator, `PlacementStep` what it does to
placements and geometry. The invariants of the engine are case analyses over these.

## Key results

- `Engine.imageStep_of_receive`, `Engine.placementStep_of_receive`
- `Engine.handleImage_freeEvicted`: eviction drops exactly the handles of evicted images
- `Engine.placements_recompute`: recomputation resolves every placement once
-/

namespace Kgd

namespace Engine

/-! ## Graphics calls -/

/-- Graphics calls are made only where there is a backend. -/
theorem gfx_mem_gfxCalls {e : Engine} {calls : List GfxCall} {call : GfxCall} :
    Action.gfx call ∈ e.gfxCalls calls ↔ e.gfx = true ∧ call ∈ calls := by
  unfold gfxCalls
  split
  · rename_i hg; simp [hg]
  · rename_i hg; simp [hg]

/-- Deleting a rendered placement is one call that keeps the image's data. -/
theorem calls_of_deleteRendered {e : Engine} {p : Placement} {call : GfxCall}
    (h : Action.gfx call ∈ e.deleteRendered p) :
    call = .delete p.kittyImgID p.id false ∧ p.rendered = true ∧ e.gfx = true := by
  unfold deleteRendered at h
  split at h
  · rename_i hr
    rw [gfx_mem_gfxCalls, List.mem_singleton] at h
    exact ⟨h.2, hr, h.1⟩
  · exact nomatch h

/-- Rendering a placement anew deletes it where it was and places it where it is. -/
theorem calls_of_rerender {env : Env} {p : Placement} {pos : ScreenPos} {call : GfxCall}
    (h : call ∈ (rerender env p pos).2) :
    call = .delete p.kittyImgID p.id false ∨
      call = .place p.kittyImgID p.id pos.row pos.col p.info (env.placeOk p.id) := by
  unfold rerender at h
  split at h
  · exact Or.inr (List.mem_singleton.mp h)
  · split at h
    · exact Or.inl (List.mem_singleton.mp h)
    · split at h
      · simpa using h
      · exact nomatch h

/-- The calls of a recomputation for one placement are those of rendering it anew. -/
theorem calls_of_recomputeOne {env : Env} {e : Engine} {p : Placement} {call : GfxCall}
    (h : Action.gfx call ∈ (e.recomputeOne env p).2) : call ∈ (rerender env p (e.resolve p)).2 := by
  unfold recomputeOne at h
  split at h
  · exact nomatch h
  · simp only [List.mem_append, List.mem_map, Action.gfx.injEq, exists_eq_right] at h
    rcases h with h | h
    · exact h
    · split at h <;> simp at h

/-- A placement is handled by calls about it alone, none of which touches an image. -/
theorem isFor_of_recomputeOne (env : Env) (e : Engine) (p : Placement) :
    ForPlacement p.id (e.recomputeOne env p).2 := by
  intro call h
  rcases calls_of_rerender (calls_of_recomputeOne h) with rfl | rfl <;> simp [GfxCall.isFor]

theorem isFor_of_deleteRendered (e : Engine) (p : Placement) :
    ForPlacement p.id (e.deleteRendered p) := by
  intro call h
  rw [(calls_of_deleteRendered h).1]; simp [GfxCall.isFor]

/-- A call about a placement leaves the stored images. -/
theorem touchesImages_of_isFor {call : GfxCall} {pid : UInt32} (h : call.isFor pid = true) :
    call.touchesImages = false := by
  cases call <;> simp_all [GfxCall.isFor, GfxCall.touchesImages]

/-- A recomputation leaves the stored images. -/
theorem imageQuiet_recomputePlacements (env : Env) (e : Engine) :
    ImageQuiet (e.recomputePlacements env).2 := by
  intro call h
  simp only [recomputePlacements, List.mem_append, gfx_mem_gfxCalls, List.mem_singleton] at h
  rcases h with (⟨-, rfl⟩ | h) | ⟨-, rfl⟩
  · rfl
  · obtain ⟨k, p, -, hp⟩ := (GoMap.mem_rangeUpdate_snd _ _ _ _).mp h
    exact touchesImages_of_isFor (isFor_of_recomputeOne env e p call hp)
  · rfl

theorem imageQuiet_removeOwned (env : Env) (e : Engine) (clientID : ClientID) :
    ImageQuiet (e.removeOwned env clientID).2 := by
  intro call h
  obtain ⟨k, p, -, hp⟩ := (GoMap.mem_rangeUpdate_snd _ _ _ _).mp h
  split at hp
  · exact touchesImages_of_isFor (isFor_of_deleteRendered e p call hp)
  · exact nomatch hp

/-! ## Eviction -/

/-- Eviction notices only change handle tables. -/
theorem notifyEviction_fst (env : Env) (e : Engine) (kittyID : UInt32) :
    (e.notifyEviction env kittyID).1 =
      { e with clientImages := (e.notifyEviction env kittyID).1.clientImages } := rfl

/-- An eviction takes away the handles of the evicted image and no others. -/
theorem handleImage_notifyEviction (env : Env) (e : Engine) (kittyID : UInt32) (c : ClientID)
    (h : UInt32) :
    (e.notifyEviction env kittyID).1.handleImage c h =
      (e.handleImage c h).bind fun kid => if kid = kittyID then none else some kid := by
  simp only [handleImage, notifyEviction, GoMap.rangeUpdate_getElem?]
  cases e.clientImages[c]? with
  | none => rfl
  | some images =>
    simp only [Option.bind_some, GoMap.rangeUpdate_getElem?, beq_iff_eq]
    congr 1
    funext kid
    split <;> rfl

theorem noCalls_notifyEviction (env : Env) (e : Engine) (kittyID : UInt32) (call : GfxCall) :
    Action.gfx call ∉ (e.notifyEviction env kittyID).2 := by
  intro h
  obtain ⟨c, images, -, h⟩ := (GoMap.mem_rangeUpdate_snd _ _ _ _).mp h
  obtain ⟨handle, kid, -, h⟩ := (GoMap.mem_rangeUpdate_snd _ _ _ _).mp h
  by_cases hk : kid = kittyID <;> by_cases hn : e.notifier <;> simp [hk, hn] at h

/-- Freeing evicted images changes handle tables only. -/
theorem freeEvicted_fst (env : Env) (e : Engine) (evicted : List UInt32) :
    (e.freeEvicted env evicted).1 =
      { e with clientImages := (e.freeEvicted env evicted).1.clientImages } := by
  induction evicted generalizing e with
  | nil => rfl
  | cons eid evicted ih =>
    simp only [freeEvicted]
    rw [ih, notifyEviction_fst]

/-- Eviction drops the handles that denote an evicted image, and no others. -/
theorem handleImage_freeEvicted (env : Env) (e : Engine) (evicted : List UInt32) (c : ClientID)
    (h : UInt32) :
    (e.freeEvicted env evicted).1.handleImage c h =
      (e.handleImage c h).bind fun kid => if kid ∈ evicted then none else some kid := by
  induction evicted generalizing e with
  | nil => simp [freeEvicted]
  | cons eid evicted ih =>
    -- the notice of `eid` drops its handles, the rest of the loop those of the other images
    simp only [freeEvicted, ih, handleImage_notifyEviction]
    cases e.handleImage c h with
    | none => rfl
    | some kid =>
      simp only [Option.bind_some, List.mem_cons]
      by_cases heq : kid = eid <;> simp [heq]

/-- Freeing evicted images deletes them with their data, and makes no other call. -/
theorem calls_of_freeEvicted {env : Env} {e : Engine} {evicted : List UInt32} {call : GfxCall}
    (h : Action.gfx call ∈ (e.freeEvicted env evicted).2) :
    ∃ eid ∈ evicted, call = .delete eid 0 true := by
  induction evicted generalizing e with
  | nil => exact nomatch h
  | cons eid evicted ih =>
    simp only [freeEvicted, List.mem_append, gfx_mem_gfxCalls, List.mem_singleton] at h
    rcases h with (⟨-, rfl⟩ | h) | h
    · exact ⟨eid, List.mem_cons_self, rfl⟩
    · exact absurd h (noCalls_notifyEviction env e eid call)
    · obtain ⟨eid', hmem, rfl⟩ := ih h
      exact ⟨eid', List.mem_cons_of_mem _ hmem, rfl⟩

theorem noReply_gfxCalls (e : Engine) (calls : List GfxCall) (r : Reply) :
    Action.reply r ∉ e.gfxCalls calls := by
  unfold gfxCalls; split <;> simp

/-- Evictions answer no request. -/
theorem noReply_freeEvicted (env : Env) (e : Engine) (evicted : List UInt32) (r : Reply) :
    Action.reply r ∉ (e.freeEvicted env evicted).2 := by
  induction evicted generalizing e with
  | nil => exact nofun
  | cons eid evicted ih =>
    simp only [freeEvicted, List.mem_append, not_or]
    refine ⟨⟨noReply_gfxCalls e _ r, fun h => ?_⟩, ih _⟩
    obtain ⟨c, images, -, h⟩ := (GoMap.mem_rangeUpdate_snd _ _ _ _).mp h
    obtain ⟨handle, kid, -, h⟩ := (GoMap.mem_rangeUpdate_snd _ _ _ _).mp h
    by_cases hk : kid = eid <;> by_cases hn : e.notifier <;> simp [hk, hn] at h

/-! ## Handle tables, cache and allocator -/

/-- The handle table of a client; a client without a table has no handles. -/
def table (e : Engine) (c : ClientID) : GoMap UInt32 UInt32 := e.clientImages[c]?.getD ∅

/-- A handle is looked up in the table of its client. -/
theorem handleImage_eq (e : Engine) (c : ClientID) (h : UInt32) :
    e.handleImage c h = (e.table c)[h]? := by
  simp only [handleImage, table]
  cases e.clientImages[c]? <;> simp

/-- The engine after its handle table for `c` got the entry `handle ↦ kittyID`. -/
def setHandle (e : Engine) (c : ClientID) (handle kittyID : UInt32) : Engine :=
  { e with clientImages := e.clientImages.insert c ((e.table c).insert handle kittyID) }

/-- The new handle is the first that is free in the client's table. -/
theorem assignHandle_eq (e : Engine) (c : ClientID) (kittyID : UInt32) :
    e.assignHandle c kittyID =
      (firstFree (e.table c) UInt32.size 1).map fun handle =>
        (e.setHandle c handle kittyID, handle) := rfl

/-- What an input does to handle tables, cache and ID allocator. -/
inductive ImageStep (hash128 : Data → Hash) (env : Env) (e : Engine) :
    Input → List Action → Engine → Prop
  /-- nothing, and it says nothing about images -/
  | quiet {input out e'} (hupload : ∀ c params, input ≠ .event (.uploadRequest c params))
      (hfree : ∀ c h, input = .event (.freeRequest c h) → e.handleImage c h = none)
      (hdisc : ∀ c, input ≠ .event (.clientDisconnect c))
      (hcache : e'.cache = e.cache) (himages : e'.clientImages = e.clientImages)
      (halloc : e'.idAlloc = e.idAlloc) (hout : ImageQuiet out) :
      ImageStep hash128 env e input out e'
  /-- an upload of known data -/
  | hit {c params kittyID handle} (hlookup : e.cache.lookup hash128 params.data = some kittyID)
      (hhandle : firstFree (e.table c) UInt32.size 1 = some handle) :
      ImageStep hash128 env e (.event (.uploadRequest c params))
        [.reply (.upload (.ok handle))]
        { e.setHandle c handle kittyID with
          cache := (e.cache.store hash128 params.data kittyID).1 }
  /-- an upload that `Transmit` refused -/
  | refused {c params err} (hlookup : e.cache.lookup hash128 params.data = none)
      (hgfx : e.gfx = true) (herr : env.transmitErr = some err) :
      ImageStep hash128 env e (.event (.uploadRequest c params))
        [.gfx (.transmit e.idAlloc.next params.data params.format params.width params.height
          false), .reply (.upload (.error s!"transmit: {err}"))]
        { e with idAlloc := ⟨e.idAlloc.next + 1⟩ }
  /-- an upload of new data -/
  | miss {c params e₁ out₁ handle} (hlookup : e.cache.lookup hash128 params.data = none)
      (hok : e.gfx = true → env.transmitErr = none)
      (hevict : ({ e with
        idAlloc := ⟨e.idAlloc.next + 1⟩
        cache := (e.cache.store hash128 params.data e.idAlloc.next).1 } : Engine).freeEvicted env
          (e.cache.store hash128 params.data e.idAlloc.next).2 = (e₁, out₁))
      (hhandle : firstFree (e₁.table c) UInt32.size 1 = some handle) :
      ImageStep hash128 env e (.event (.uploadRequest c params))
        (e.gfxCalls [.transmit e.idAlloc.next params.data params.format params.width
            params.height env.transmitErr.isNone] ++ out₁ ++
          [.reply (.upload (.ok handle))])
        (e₁.setHandle c handle e.idAlloc.next)
  /-- a free of a live handle -/
  | free {c h kittyID} (himage : e.handleImage c h = some kittyID) :
      ImageStep hash128 env e (.event (.freeRequest c h)) []
        { e with
          clientImages := e.clientImages.insert c ((e.table c).erase h)
          cache := e.cache.release kittyID }
  /-- a disconnect -/
  | disconnect {c out e'}
      (hcache : e'.cache = releaseAll e.cache (GoMap.entries (env.handleOrder 0 c) (e.table c)))
      (himages : e'.clientImages = e.clientImages.erase c)
      (halloc : e'.idAlloc = e.idAlloc) (hout : ImageQuiet out) :
      ImageStep hash128 env e (.event (.clientDisconnect c)) out e'

/-- The allocator gives out its counter, and counts on. -/
theorem nextID_eq (a : IDAllocator) : a.nextID = (a.next, ⟨a.next + 1⟩) := by
  simp only [IDAllocator.nextID, Prod.mk.injEq, and_true]
  exact UInt32.add_sub_cancel a.next 1

/-- An allocator that has counted on is another one. -/
theorem next_ne (a : IDAllocator) : (⟨a.next + 1⟩ : IDAllocator) ≠ a := fun heq =>
  absurd (congrArg IDAllocator.next heq) (by simp)

/-- An upload finds the image, is refused by the terminal, or stores a new image. -/
theorem imageStep_handleUpload {hash128 : Data → Hash} {env : Env} {e e' : Engine}
    {c : ClientID} {params : UploadParams} {out : List Action}
    (h : e.handleUpload hash128 env c params = some (e', out)) :
    ImageStep hash128 env e (.event (.uploadRequest c params)) out e' := by
  unfold handleUpload at h
  split at h
  · -- known bytes: a handle is assigned and `Store` counts it
    rename_i kittyID hlookup
    rw [assignHandle_eq, Option.map_map, Option.map_eq_some_iff] at h
    obtain ⟨handle, hhandle, heq⟩ := h
    simp only [Function.comp_apply, Prod.mk.injEq] at heq
    obtain ⟨rfl, rfl⟩ := heq
    exact .hit hlookup hhandle
  · rename_i hlookup
    rw [nextID_eq] at h
    simp only at h
    split at h
    · -- the ID is used up although nothing is stored under it
      rename_i err herr
      split at herr
      · rename_i hgfx
        simp only [Option.some.injEq, Prod.mk.injEq] at h
        obtain ⟨rfl, rfl⟩ := h
        have hcalls : ∀ call,
            ({ e with idAlloc := ⟨e.idAlloc.next + 1⟩ } : Engine).gfxCalls [call] =
            [.gfx call] := by
          intro call; unfold gfxCalls; rw [if_pos hgfx]; rfl
        rw [hcalls, herr]
        exact .refused hlookup hgfx herr
      · exact nomatch herr
    -- transmitted: stored, the evicted images freed, and a handle assigned
    · rename_i hok
      rw [assignHandle_eq, Option.map_map, Option.map_eq_some_iff] at h
      obtain ⟨handle, hhandle, heq⟩ := h
      simp only [Function.comp_apply, Prod.mk.injEq] at heq
      obtain ⟨rfl, rfl⟩ := heq
      exact .miss hlookup (fun hg => by simpa [hg] using hok) rfl hhandle

theorem imageStep_handleFree (hash128 : Data → Hash) (env : Env) (e : Engine) (c : ClientID)
    (h : UInt32) :
    ImageStep hash128 env e (.event (.freeRequest c h)) (e.handleFree c h).2
      (e.handleFree c h).1 := by
  -- both early returns: the client has no table, or no such handle
  have hquiet (himage : e.handleImage c h = none) :
      ImageStep hash128 env e (.event (.freeRequest c h)) [] e := by
    refine .quiet (by simp) ?_ (by simp) rfl rfl rfl (fun _ hc => nomatch hc)
    intro c' h' heq
    simp only [Input.event.injEq, Event.freeRequest.injEq] at heq
    obtain ⟨rfl, rfl⟩ := heq
    exact himage
  unfold handleFree
  split
  · rename_i hc
    exact hquiet (by simp [handleImage, hc])
  · rename_i images hc
    split
    · rename_i hh
      exact hquiet (by simp [handleImage, hc, hh])
    · rename_i kittyID hh
      have himage : e.handleImage c h = some kittyID := by simp [handleImage, hc, hh]
      have htable : e.table c = images := by simp [table, hc]
      rw [← htable]
      exact .free himage

/-- A disconnect releases the images of the client's table. -/
theorem cache_handleClientDisconnect (env : Env) (e : Engine) (c : ClientID) :
    (e.handleClientDisconnect env c).1.cache =
      releaseAll e.cache (GoMap.entries (env.handleOrder 0 c) (e.table c)) := by
  have hclient : (e.removeOwned env c).1.clientImages = e.clientImages := rfl
  simp only [handleClientDisconnect, hclient, table]
  cases e.clientImages[c]? with
  | none =>
    have hnil : GoMap.entries (env.handleOrder 0 c) (∅ : GoMap UInt32 UInt32) = [] :=
      List.eq_nil_iff_forall_not_mem.mpr fun x hx => by
        rw [GoMap.mem_entries] at hx; simp at hx
    rw [Option.getD_none, hnil]; rfl
  | some images => rfl

/-- A disconnect gives up all handles of the client. -/
theorem imageStep_handleClientDisconnect (hash128 : Data → Hash) (env : Env) (e : Engine)
    (c : ClientID) :
    ImageStep hash128 env e (.event (.clientDisconnect c)) (e.handleClientDisconnect env c).2
      (e.handleClientDisconnect env c).1 := by
  exact .disconnect (cache_handleClientDisconnect env e c) rfl rfl (imageQuiet_removeOwned env e c)

/-- Inputs whose handlers do not touch handle tables or cache. -/
def inputQuiet : Input → Bool
  | .event (.uploadRequest ..) => false
  | .event (.freeRequest ..) => false
  | .event (.clientDisconnect ..) => false
  | _ => true

theorem images_handlePlace (env : Env) (e : Engine) (c : ClientID) (params : PlaceParams) :
    (e.handlePlace env c params).1.cache = e.cache ∧
      (e.handlePlace env c params).1.clientImages = e.clientImages ∧
      (e.handlePlace env c params).1.idAlloc = e.idAlloc := by
  unfold handlePlace
  split
  · exact ⟨rfl, rfl, rfl⟩
  · split <;> exact ⟨rfl, rfl, rfl⟩

theorem images_handleUnplace (e : Engine) (c : ClientID) (pid : UInt32) :
    (e.handleUnplace c pid).1.cache = e.cache ∧
      (e.handleUnplace c pid).1.clientImages = e.clientImages ∧
      (e.handleUnplace c pid).1.idAlloc = e.idAlloc := by
  unfold handleUnplace
  split
  · exact ⟨rfl, rfl, rfl⟩
  · split <;> exact ⟨rfl, rfl, rfl⟩

theorem imageQuiet_handlePlace (env : Env) (e : Engine) (c : ClientID) (params : PlaceParams) :
    ImageQuiet (e.handlePlace env c params).2 := by
  intro call h
  unfold handlePlace at h
  split at h
  · simp at h
  · split at h
    · simp at h
    · simp only [List.mem_append, List.mem_singleton, reduceCtorEq, or_false] at h
      split at h
      · rw [gfx_mem_gfxCalls, List.mem_singleton] at h
        rw [h.2]; rfl
      · exact nomatch h

theorem imageQuiet_handleUnplace (e : Engine) (c : ClientID) (pid : UInt32) :
    ImageQuiet (e.handleUnplace c pid).2 := by
  intro call h
  unfold handleUnplace at h
  split at h
  · exact nomatch h
  · split at h
    · exact nomatch h
    · exact touchesImages_of_isFor (isFor_of_deleteRendered _ _ call h)

/-- The handlers of quiet inputs leave handle tables, cache and allocator alone. -/
theorem quiet_of_receive {hash128 : Data → Hash} {env : Env} {e e' : Engine} {input : Input}
    {out : List Action} (hq : inputQuiet input = true)
    (h : e.receive hash128 env input = some (e', out)) :
    e'.cache = e.cache ∧ e'.clientImages = e.clientImages ∧ e'.idAlloc = e.idAlloc ∧
      ImageQuiet out := by
  have hno {out : List Action} (hout : ∀ call, Action.gfx call ∉ out) : ImageQuiet out :=
    fun call hc => absurd hc (hout call)
  cases input with
  | size sz =>
    obtain ⟨rfl, rfl⟩ := Prod.mk.inj (Option.some.inj h)
    refine ⟨rfl, rfl, rfl, fun call hc => ?_⟩
    rcases List.mem_append.mp hc with hc | hc
    · exact imageQuiet_recomputePlacements _ _ call hc
    · split at hc <;> simp at hc
  | colors colors =>
    obtain ⟨rfl, rfl⟩ := Prod.mk.inj (Option.some.inj h)
    refine ⟨rfl, rfl, rfl, hno fun call hc => ?_⟩
    split at hc <;> simp at hc
  | event ev =>
    cases ev with
    -- the three events that are not quiet
    | uploadRequest => cases hq
    | freeRequest => cases hq
    | clientDisconnect => cases hq
    | placeRequest c params =>
      obtain ⟨rfl, rfl⟩ := Prod.mk.inj (Option.some.inj h)
      obtain ⟨hcache, himages, halloc⟩ := images_handlePlace env e c params
      exact ⟨hcache, himages, halloc, imageQuiet_handlePlace env e c params⟩
    | unplaceRequest c pid =>
      obtain ⟨rfl, rfl⟩ := Prod.mk.inj (Option.some.inj h)
      obtain ⟨hcache, himages, halloc⟩ := images_handleUnplace e c pid
      exact ⟨hcache, himages, halloc, imageQuiet_handleUnplace e c pid⟩
    | unplaceAllRequest c =>
      obtain ⟨rfl, rfl⟩ := Prod.mk.inj (Option.some.inj h)
      exact ⟨rfl, rfl, rfl, imageQuiet_removeOwned env e c⟩
    | scrollUpdate c winID scrollTop =>
      obtain ⟨rfl, rfl⟩ := Prod.mk.inj (Option.some.inj h)
      split
      · exact ⟨rfl, rfl, rfl, hno fun _ hc => absurd hc List.not_mem_nil⟩
      · exact ⟨rfl, rfl, rfl, imageQuiet_recomputePlacements _ _⟩
    | registerWin c params =>
      obtain ⟨rfl, rfl⟩ := Prod.mk.inj (Option.some.inj h)
      exact ⟨rfl, rfl, rfl, imageQuiet_recomputePlacements _ _⟩
    | unregisterWin c winID =>
      obtain ⟨rfl, rfl⟩ := Prod.mk.inj (Option.some.inj h)
      exact ⟨rfl, rfl, rfl, imageQuiet_recomputePlacements _ _⟩
    | updatePanes panes =>
      obtain ⟨rfl, rfl⟩ := Prod.mk.inj (Option.some.inj h)
      exact ⟨rfl, rfl, rfl, imageQuiet_recomputePlacements _ _⟩
    | stopRequest =>
      obtain ⟨rfl, rfl⟩ := Prod.mk.inj (Option.some.inj h)
      refine ⟨rfl, rfl, rfl, hno fun call hc => ?_⟩
      split at hc <;> simp at hc
    | helloRequest | listRequest | statusRequest =>
      obtain ⟨rfl, rfl⟩ := Prod.mk.inj (Option.some.inj h)
      exact ⟨rfl, rfl, rfl, hno fun call hc => by simp at hc⟩

/-- Every input is one of the image steps. -/
theorem imageStep_of_receive {hash128 : Data → Hash} {env : Env} {e e' : Engine} {input : Input}
    {out : List Action} (h : e.receive hash128 env input = some (e', out)) :
    ImageStep hash128 env e input out e' := by
  cases hq : inputQuiet input with
  | true =>
    obtain ⟨hcache, himages, halloc, hout⟩ := quiet_of_receive hq h
    refine .quiet ?_ ?_ ?_ hcache himages halloc hout
    · rintro c params rfl; exact nomatch hq
    · rintro c h rfl; exact nomatch hq
    · rintro c rfl; exact nomatch hq
  | false =>
    cases input with
    | size | colors => exact nomatch hq
    | event ev =>
      cases ev with
      | uploadRequest c params => exact imageStep_handleUpload h
      | freeRequest c handle =>
        obtain ⟨rfl, rfl⟩ := Prod.mk.inj (Option.some.inj h)
        exact imageStep_handleFree hash128 env e c handle
      | clientDisconnect c =>
        obtain ⟨rfl, rfl⟩ := Prod.mk.inj (Option.some.inj h)
        exact imageStep_handleClientDisconnect hash128 env e c
      -- every other event is quiet
      | _ => exact nomatch hq

/-! ## Placements and geometry -/

/-- The placement a granted request creates, with its resolved position. -/
def placed (env : Env) (e : Engine) (c : ClientID) (params : PlaceParams) (kittyID : UInt32) :
    Placement :=
  let p := newPlacement (e.nextPlacement + 1) kittyID c params
  { p with
    termRow := (e.resolve p).row, termCol := (e.resolve p).col, visible := (e.resolve p).visible
    rendered := (e.resolve p).visible && e.gfx && env.placeOk p.id }

/-- The graphics calls for a new placement. -/
def placeCalls (env : Env) (e : Engine) (p : Placement) : List Action :=
  if p.visible then
    e.gfxCalls [.place p.kittyImgID p.id p.termRow p.termCol p.info (env.placeOk p.id)]
  else []

/-- What an input changes about windows, panes and terminal size before the positions are
    recomputed; `none` where the handler does not recompute. -/
def geometryUpdate (e : Engine) : Input → Option Engine
  | .size sz => some { e with termSize := sz }
  | .event (.scrollUpdate _ winID scrollTop) =>
    e.wins[winID]?.map fun win => { e with wins := e.wins.insert winID { win with scrollTop } }
  | .event (.registerWin c params) =>
    some { e with wins := e.wins.insert params.winID (winOfParams c params) }
  | .event (.unregisterWin _ winID) => some { e with wins := e.wins.erase winID }
  | .event (.updatePanes panes) =>
    some { e with panes := panes.foldl (fun m p => m.insert p.id p) ∅ }
  | _ => none

/-- What an input does to placements and geometry. -/
inductive PlacementStep (env : Env) (e : Engine) : Input → List Action → Engine → Prop
  /-- nothing, and no graphics call is about a placement -/
  | same {input out e'} (hgeometry : e.geometryUpdate input = none)
      (hplace : ∀ c params, input = .event (.placeRequest c params) →
        e.handleImage c params.handle = none)
      (hunplace : ∀ c pid, input = .event (.unplaceRequest c pid) →
        ∀ p, e.placements[pid]? = some p → p.clientID ≠ c)
      (hunplaceAll : ∀ c, input ≠ .event (.unplaceAllRequest c))
      (hdisc : ∀ c, input ≠ .event (.clientDisconnect c))
      (hplacements : e'.placements = e.placements) (hnext : e'.nextPlacement = e.nextPlacement)
      (hpanes : e'.panes = e.panes) (hwins : e'.wins = e.wins) (hsize : e'.termSize = e.termSize)
      (hgfx : e'.gfx = e.gfx)
      (hout : ∀ call, Action.gfx call ∈ out → call.touchesImages = true) :
      PlacementStep env e input out e'
  /-- a new placement -/
  | place {c params kittyID} (himage : e.handleImage c params.handle = some kittyID) :
      PlacementStep env e (.event (.placeRequest c params))
        (e.placeCalls env (e.placed env c params kittyID) ++
          [.reply (.place (.ok (e.nextPlacement + 1)))])
        { e with
          nextPlacement := e.nextPlacement + 1
          placements := e.placements.insert (e.nextPlacement + 1) (e.placed env c params kittyID) }
  /-- the removal of one placement by its owner -/
  | unplace {pid p} (hp : e.placements[pid]? = some p) :
      PlacementStep env e (.event (.unplaceRequest p.clientID pid)) (e.deleteRendered p)
        { e with placements := e.placements.erase pid }
  /-- the removal of a client's placements -/
  | unplaceAll {c} :
      PlacementStep env e (.event (.unplaceAllRequest c)) (e.removeOwned env c).2
        (e.removeOwned env c).1
  /-- a disconnect: the client's placements and windows go -/
  | disconnect {c e'} (hplacements : e'.placements = (e.removeOwned env c).1.placements)
      (hnext : e'.nextPlacement = e.nextPlacement) (hpanes : e'.panes = e.panes)
      (hsize : e'.termSize = e.termSize) (hgfx : e'.gfx = e.gfx)
      (hwins : ∀ w : Int64, e'.wins[w]? =
        e.wins[w]?.bind fun win => if win.clientID = c then none else some win) :
      PlacementStep env e (.event (.clientDisconnect c)) (e.removeOwned env c).2 e'
  /-- a change of geometry, after which every position is recomputed -/
  | recompute {input g notes} (hgeometry : e.geometryUpdate input = some g)
      (hnotes : ∀ call, Action.gfx call ∉ notes) :
      PlacementStep env e input ((g.recomputePlacements env).2 ++ notes)
        (g.recomputePlacements env).1

/-- A geometry update touches nothing but windows, panes and terminal size. -/
theorem geometryUpdate_eq_some {e g : Engine} {input : Input}
    (h : e.geometryUpdate input = some g) :
    g = { e with panes := g.panes, wins := g.wins, termSize := g.termSize } := by
  unfold geometryUpdate at h
  split at h
  · rw [← Option.some.inj h]
  · obtain ⟨win, -, rfl⟩ := Option.map_eq_some_iff.mp h; rfl
  · rw [← Option.some.inj h]
  · rw [← Option.some.inj h]
  · rw [← Option.some.inj h]
  · exact nomatch h

/-- A recomputation recomputes every placement by itself. -/
@[simp] theorem placements_recompute (env : Env) (e : Engine) (pid : UInt32) :
    (e.recomputePlacements env).1.placements[pid]? =
      e.placements[pid]?.map fun p => (e.recomputeOne env p).1 := by
  simp only [recomputePlacements, GoMap.rangeUpdate_getElem?]
  cases e.placements[pid]? <;> rfl

/-- Removing a client's placements keeps those of the others as they are. -/
@[simp] theorem placements_removeOwned (env : Env) (e : Engine) (c : ClientID) (pid : UInt32) :
    (e.removeOwned env c).1.placements[pid]? =
      e.placements[pid]?.bind fun p => if p.clientID = c then none else some p := by
  simp only [removeOwned, GoMap.rangeUpdate_getElem?, beq_iff_eq]
  congr 1
  funext p
  split <;> rfl

/-- The placements that stay are those of other clients. -/
theorem removeOwned_eq_some {env : Env} {e : Engine} {c : ClientID} {pid : UInt32} {p : Placement} :
    (e.removeOwned env c).1.placements[pid]? = some p ↔
      e.placements[pid]? = some p ∧ p.clientID ≠ c := by
  rw [placements_removeOwned, Option.bind_eq_some_iff]
  constructor
  · intro h
    obtain ⟨p₀, hp₀, hp⟩ := h
    split at hp
    · exact nomatch hp
    -- kept as it was, since it is another client's
    · rename_i howner
      obtain rfl := Option.some.inj hp
      exact ⟨hp₀, howner⟩
  · intro h
    exact ⟨p, h.1, if_neg h.2⟩

/-- Recomputing changes nothing about a placement but position, visibility and rendering. -/
theorem recomputeOne_fst (env : Env) (e : Engine) (p : Placement) :
    (e.recomputeOne env p).1 =
      { p with
        termRow := (e.resolve p).row, termCol := (e.resolve p).col
        visible := (e.resolve p).visible, rendered := (e.recomputeOne env p).1.rendered } := by
  unfold recomputeOne
  split <;> rfl

/-- A place request adds a placement under the next ID, or is refused. -/
theorem placementStep_handlePlace (env : Env) (e : Engine) (c : ClientID) (params : PlaceParams) :
    PlacementStep env e (.event (.placeRequest c params)) (e.handlePlace env c params).2
      (e.handlePlace env c params).1 := by
  -- both error replies leave the engine as it was
  have hsame (msg : String) (himage : e.handleImage c params.handle = none) :
      PlacementStep env e (.event (.placeRequest c params)) [.reply (.place (.error msg))] e := by
    refine .same rfl ?_ (by simp) (by simp) (by simp) rfl rfl rfl rfl rfl rfl (by simp)
    intro c' params' heq
    simp only [Input.event.injEq, Event.placeRequest.injEq] at heq
    obtain ⟨rfl, rfl⟩ := heq
    exact himage
  unfold handlePlace
  split
  · rename_i hc
    exact hsame _ (by simp [handleImage, hc])
  · rename_i images hc
    split
    · rename_i hh
      exact hsame _ (by simp [handleImage, hc, hh])
    · rename_i kittyID hh
      exact .place (by simp [handleImage, hc, hh])

theorem placementStep_handleUnplace (env : Env) (e : Engine) (c : ClientID) (pid : UInt32) :
    PlacementStep env e (.event (.unplaceRequest c pid)) (e.handleUnplace c pid).2
      (e.handleUnplace c pid).1 := by
  -- an unknown placement and one of another client are left alone
  have hsame (hp : ∀ p, e.placements[pid]? = some p → p.clientID ≠ c) :
      PlacementStep env e (.event (.unplaceRequest c pid)) [] e := by
    refine .same rfl (by simp) ?_ (by simp) (by simp) rfl rfl rfl rfl rfl rfl (by simp)
    intro c' pid' heq
    simp only [Input.event.injEq, Event.unplaceRequest.injEq] at heq
    obtain ⟨rfl, rfl⟩ := heq
    exact hp
  unfold handleUnplace
  split
  · rename_i hnone
    exact hsame fun p hp => nomatch hnone.symm.trans hp
  · rename_i p hp
    split
    · rename_i hne
      refine hsame fun p' hp' => ?_
      obtain rfl := Option.some.inj (hp.symm.trans hp')
      simpa using hne
    · rename_i howner
      obtain rfl : p.clientID = c := by simpa using howner
      exact .unplace hp

/-- A disconnect drops the client's windows. -/
theorem wins_handleClientDisconnect (env : Env) (e : Engine) (c : ClientID) (winID : Int64) :
    (e.handleClientDisconnect env c).1.wins[winID]? =
      e.wins[winID]?.bind fun win => if win.clientID = c then none else some win := by
  simp only [handleClientDisconnect, GoMap.rangeUpdate_getElem?, beq_iff_eq]
  have hwins : (e.removeOwned env c).1.wins = e.wins := rfl
  rw [hwins]
  congr 1
  funext win
  split <;> rfl

theorem placementStep_handleClientDisconnect (env : Env) (e : Engine) (c : ClientID) :
    PlacementStep env e (.event (.clientDisconnect c)) (e.handleClientDisconnect env c).2
      (e.handleClientDisconnect env c).1 := by
  exact .disconnect rfl rfl rfl rfl rfl (wins_handleClientDisconnect env e c)

theorem placementStep_handleUpload {hash128 : Data → Hash} {env : Env} {e e' : Engine}
    {c : ClientID} {params : UploadParams} {out : List Action}
    (h : e.handleUpload hash128 env c params = some (e', out)) :
    PlacementStep env e (.event (.uploadRequest c params)) out e' := by
  have hstep := imageStep_handleUpload h
  generalize hin : Input.event (.uploadRequest c params) = input at hstep
  cases hstep with
  | quiet hupload => exact absurd hin.symm (hupload c params)
  | hit => exact .same rfl (by simp) (by simp) (by simp) (by simp) rfl rfl rfl rfl rfl rfl (by simp)
  | refused =>
    refine .same rfl (by simp) (by simp) (by simp) (by simp) rfl rfl rfl rfl rfl rfl ?_
    simp [GfxCall.touchesImages]
  | miss _ _ hevict =>
    have hfst := congrArg Prod.fst hevict
    have hsnd := congrArg Prod.snd hevict
    rw [freeEvicted_fst] at hfst
    simp only at hfst hsnd
    subst hfst
    refine .same rfl (by simp) (by simp) (by simp) (by simp) rfl rfl rfl rfl rfl rfl ?_
    -- one transmission, and deletions of whole images
    intro call hcall
    simp only [List.mem_append, gfx_mem_gfxCalls, List.mem_singleton, reduceCtorEq, or_false]
      at hcall
    rcases hcall with ⟨-, rfl⟩ | hcall
    · rfl
    · rw [← hsnd] at hcall
      obtain ⟨eid, -, rfl⟩ := calls_of_freeEvicted hcall
      rfl
  | free => cases hin
  | disconnect => cases hin

/-- What changes the geometry recomputes the placements on it. -/
theorem placementStep_recompute {env : Env} {e e' g : Engine} {input : Input} {out : List Action}
    (hgeometry : e.geometryUpdate input = some g)
    (h : some (g.recomputePlacements env) = some (e', out)) : PlacementStep env e input out e' := by
  have hstep : PlacementStep env e input ((g.recomputePlacements env).2 ++ [])
      (g.recomputePlacements env).1 := .recompute hgeometry (by simp)
  rwa [Option.some.inj h, List.append_nil] at hstep

/-- A free leaves placements and geometry, and sends nothing. -/
theorem placements_handleFree (e : Engine) (c : ClientID) (handle : UInt32) :
    (e.handleFree c handle).1.placements = e.placements ∧
      (e.handleFree c handle).1.nextPlacement = e.nextPlacement ∧
      (e.handleFree c handle).1.panes = e.panes ∧ (e.handleFree c handle).1.wins = e.wins ∧
      (e.handleFree c handle).1.termSize = e.termSize ∧
      (e.handleFree c handle).1.gfx = e.gfx ∧ (e.handleFree c handle).2 = [] := by
  unfold handleFree
  split
  · exact ⟨rfl, rfl, rfl, rfl, rfl, rfl, rfl⟩
  · split <;> exact ⟨rfl, rfl, rfl, rfl, rfl, rfl, rfl⟩

/-- Every input is one of the placement steps. -/
theorem placementStep_of_receive {hash128 : Data → Hash} {env : Env} {e e' : Engine}
    {input : Input} {out : List Action} (h : e.receive hash128 env input = some (e', out)) :
    PlacementStep env e input out e' := by
  cases input with
  | size sz =>
    obtain ⟨rfl, rfl⟩ := Prod.mk.inj (Option.some.inj h)
    refine .recompute rfl fun call hc => ?_
    split at hc <;> simp at hc
  | colors colors =>
    obtain ⟨rfl, rfl⟩ := Prod.mk.inj (Option.some.inj h)
    refine .same rfl (by simp) (by simp) (by simp) (by simp) rfl rfl rfl rfl rfl rfl
      fun call hc => ?_
    split at hc <;> simp at hc
  | event ev =>
    cases ev with
    | uploadRequest c params => exact placementStep_handleUpload h
    | placeRequest c params =>
      obtain ⟨rfl, rfl⟩ := Prod.mk.inj (Option.some.inj h)
      exact placementStep_handlePlace env e c params
    | unplaceRequest c pid =>
      obtain ⟨rfl, rfl⟩ := Prod.mk.inj (Option.some.inj h)
      exact placementStep_handleUnplace env e c pid
    | unplaceAllRequest c =>
      obtain ⟨rfl, rfl⟩ := Prod.mk.inj (Option.some.inj h)
      exact .unplaceAll
    | clientDisconnect c =>
      obtain ⟨rfl, rfl⟩ := Prod.mk.inj (Option.some.inj h)
      exact placementStep_handleClientDisconnect env e c
    | freeRequest c handle =>
      obtain ⟨rfl, rfl⟩ := Prod.mk.inj (Option.some.inj h)
      obtain ⟨hplacements, hnext, hpanes, hwins, hsize, hgfx, hout⟩ :=
        placements_handleFree e c handle
      refine .same rfl (by simp) (by simp) (by simp) (by simp) hplacements hnext hpanes hwins hsize
        hgfx ?_
      intro call hc
      cases hout ▸ hc
    | scrollUpdate c winID scrollTop =>
      cases hwin : e.wins[winID]? with
      | none =>
        -- an unregistered window: the handler does not recompute
        simp only [receive, handle, handleScrollUpdate, hwin, Option.some.injEq, Prod.mk.injEq] at h
        obtain ⟨rfl, rfl⟩ := h
        exact .same (by simp [geometryUpdate, hwin]) (by simp) (by simp) (by simp) (by simp) rfl rfl
          rfl rfl rfl rfl (by simp)
      | some win =>
        simp only [receive, handle, handleScrollUpdate, hwin] at h
        exact placementStep_recompute (by simp [geometryUpdate, hwin]) h
    | registerWin | unregisterWin | updatePanes => exact placementStep_recompute rfl h
    | stopRequest =>
      obtain ⟨rfl, rfl⟩ := Prod.mk.inj (Option.some.inj h)
      refine .same rfl (by simp) (by simp) (by simp) (by simp) rfl rfl rfl rfl rfl rfl
        fun call hc => ?_
      split at hc <;> simp at hc
    | helloRequest | listRequest | statusRequest =>
      obtain ⟨rfl, rfl⟩ := Prod.mk.inj (Option.some.inj h)
      exact .same rfl (by simp) (by simp) (by simp) (by simp) rfl rfl rfl rfl rfl rfl (by simp)

/-- Where a placement after an input comes from: it was there, it is new, or it was there
    before a recomputation. -/
theorem placement_cases {env : Env} {e e' : Engine} {input : Input} {out : List Action}
    (h : PlacementStep env e input out e') {k : UInt32} {p : Placement}
    (hp : e'.placements[k]? = some p) :
    e.placements[k]? = some p ∨
      (∃ c params kittyID, e.handleImage c params.handle = some kittyID ∧
        k = e.nextPlacement + 1 ∧ e'.nextPlacement = e.nextPlacement + 1 ∧
        p = e.placed env c params kittyID) ∨
      ∃ g p₀, e.geometryUpdate input = some g ∧ e.placements[k]? = some p₀ ∧
        p = (g.recomputeOne env p₀).1 := by
  cases h with
  | same _ _ _ _ _ hplacements => exact Or.inl (hplacements ▸ hp)
  | @place c params kittyID himage =>
    rcases GoMap.getElem?_insert_eq_some.mp hp with ⟨hk, heq⟩ | ⟨-, hp⟩
    · exact Or.inr (Or.inl ⟨c, params, kittyID, himage, hk, rfl, heq.symm⟩)
    · exact Or.inl hp
  | unplace => exact Or.inl (GoMap.getElem?_erase_eq_some.mp hp).2
  | unplaceAll => exact Or.inl (removeOwned_eq_some.mp hp).1
  | disconnect hplacements => exact Or.inl (removeOwned_eq_some.mp (hplacements ▸ hp)).1
  | @recompute _ g _ hgeometry =>
    -- the update before the recomputation leaves the placements alone
    rw [placements_recompute, geometryUpdate_eq_some hgeometry, Option.map_eq_some_iff] at hp
    obtain ⟨p₀, hp₀, heq⟩ := hp
    refine Or.inr (Or.inr ⟨g, p₀, hgeometry, hp₀, ?_⟩)
    rw [geometryUpdate_eq_some hgeometry]
    exact heq.symm

/-- The placement counter counts the placements created. -/
theorem nextPlacement_cases {env : Env} {e e' : Engine} {input : Input} {out : List Action}
    (h : PlacementStep env e input out e') :
    e'.nextPlacement = e.nextPlacement ∨ e'.nextPlacement = e.nextPlacement + 1 := by
  cases h with
  | same _ _ _ _ _ _ hnext => exact Or.inl hnext
  | place => exact Or.inr rfl
  | unplace | unplaceAll => exact Or.inl rfl
  | disconnect _ hnext => exact Or.inl hnext
  | recompute hgeometry => rw [geometryUpdate_eq_some hgeometry]; exact Or.inl rfl

/-- No input changes whether there is a graphics backend. -/
theorem gfx_of_placementStep {env : Env} {e e' : Engine} {input : Input} {out : List Action}
    (h : PlacementStep env e input out e') : e'.gfx = e.gfx := by
  cases h with
  | same _ _ _ _ _ _ _ _ _ _ hgfx => exact hgfx
  | disconnect _ _ _ _ hgfx => exact hgfx
  | place | unplace | unplaceAll => rfl
  | recompute hgeometry => rw [geometryUpdate_eq_some hgeometry]; rfl

end Engine

/-- Whether there is a graphics backend never changes. -/
theorem World.gfx_of_runs {hash128 : Data → Hash} {gfx notifier stopFunc inTmux : Bool}
    {maxSize : Int} {tr : List (Transition World Label)} {w : World}
    (h : Runs hash128 (Engine.new gfx notifier stopFunc inTmux maxSize) tr w) :
    w.engine.gfx = gfx := by
  refine Run.invariant (I := fun w : World => w.engine.gfx = gfx) rfl ?_ h
  intro w l w' hgfx hs
  obtain ⟨env, hr, -⟩ := hs
  rw [Engine.gfx_of_placementStep (Engine.placementStep_of_receive hr), hgfx]

end Kgd
