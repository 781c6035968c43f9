import Kgd.Spec.CacheRefinement
import Kgd.Spec.EngineSteps

/-!
# Image accounting

The cache counts references, the handle tables hold them, the terminal stores the images.
`World.Accounting` says that the three agree: every count is the number of handles that
denote the image, every held image is cached, and the terminal stores exactly the cached
images.

The one thing a handler relies on is that a new kitty ID is not in use (`Engine.FreshID`).
`World.fresh_of_nextCalls` derives it from a bound on the allocations.

## Key results

- `Engine.accounts_step`, `World.accounting_step`: every input keeps the accounts
- `World.accounting_of_fresh`, `World.accounting_of_runs`: over whole runs
- `Engine.Accounts.handleImage_freeEvicted`: an eviction takes no handle from any client
-/

namespace Kgd

namespace Engine

/-! ## Handles that denote an image -/

/-- The (client, handle) pairs that denote a kitty ID. -/
def holders (e : Engine) (id : UInt32) : Set (ClientID × UInt32) :=
  {x | e.handleImage x.1 x.2 = some id}

/-- The holders of an image are the handles that stand for it. -/
@[simp] theorem mem_holders {e : Engine} {id : UInt32} {c : ClientID} {h : UInt32} :
    (c, h) ∈ e.holders id ↔ e.handleImage c h = some id := Iff.rfl

/-- An image has finitely many holders. -/
theorem finite_holders (e : Engine) (id : UInt32) : (e.holders id).Finite := by
  -- the tables are finite maps, and a holder is a key in one of them
  refine Set.Finite.subset (List.finite_toSet
    (e.clientImages.keys.flatMap fun c => (e.table c).keys.map fun h => (c, h))) ?_
  rintro ⟨c, h⟩ hmem
  rw [mem_holders, handleImage] at hmem
  obtain ⟨images, hc, hh⟩ := Option.bind_eq_some_iff.mp hmem
  simp only [Set.mem_ofPred_eq, List.mem_flatMap, List.mem_map, Prod.mk.injEq]
  refine ⟨c, Std.ExtTreeMap.mem_keys.mpr (GoMap.mem_of_getElem? hc), h, ?_, rfl, rfl⟩
  rw [table, hc, Option.getD_some, Std.ExtTreeMap.mem_keys]
  exact GoMap.mem_of_getElem? hh

/-- The handle that is found is free. -/
theorem firstFree_not_mem {images : GoMap UInt32 UInt32} {n : Nat} {handle handle' : UInt32}
    (h : firstFree images n handle = some handle') : handle' ∉ images := by
  induction n generalizing handle with
  | zero => exact nomatch h
  | succ n ih =>
    simp only [firstFree] at h
    split at h
    · exact ih h
    · rename_i hmem
      exact Option.some.inj h ▸ hmem

/-- An assigned handle was not in use. -/
theorem handleImage_of_firstFree {e : Engine} {c : ClientID} {n : Nat} {handle handle' : UInt32}
    (h : firstFree (e.table c) n handle = some handle') : e.handleImage c handle' = none := by
  rw [handleImage_eq]
  exact Std.ExtTreeMap.getElem?_eq_none (firstFree_not_mem h)

/-- Storing a client's table leaves those of the others. -/
theorem table_of_insert {e e' : Engine} {c : ClientID} {images : GoMap UInt32 UInt32}
    (himages : e'.clientImages = e.clientImages.insert c images) (c' : ClientID) :
    e'.table c' = if c' = c then images else e.table c' := by
  rw [table, himages, table]
  split
  · rename_i hc; subst hc; simp
  · rename_i hc; rw [GoMap.getElem?_insert_ne _ _ hc]

/-- A new handle stands for its image, and the others for what they stood for. -/
theorem handleImage_of_setHandle {e e' : Engine} {c : ClientID} {h id : UInt32}
    (himages : e'.clientImages = (e.setHandle c h id).clientImages) (c' : ClientID) (h' : UInt32) :
    e'.handleImage c' h' = if c' = c ∧ h' = h then some id else e.handleImage c' h' := by
  rw [handleImage_eq, table_of_insert himages, handleImage_eq]
  by_cases hc : c' = c
  · subst hc
    by_cases hh : h' = h
    · subst hh; simp
    · simp only [GoMap.getElem?_insert_ne _ _ hh, hh, and_false, ↓reduceIte]
  · simp [hc]

/-- A handle that is given up stands for nothing, and the others for what they stood for. -/
theorem handleImage_of_freeHandle {e e' : Engine} {c : ClientID} {h : UInt32}
    (himages : e'.clientImages = e.clientImages.insert c ((e.table c).erase h)) (c' : ClientID)
    (h' : UInt32) :
    e'.handleImage c' h' = if c' = c ∧ h' = h then none else e.handleImage c' h' := by
  rw [handleImage_eq, table_of_insert himages, handleImage_eq]
  by_cases hc : c' = c
  · subst hc
    by_cases hh : h' = h
    · subst hh; simp
    · simp only [GoMap.getElem?_erase_ne _ hh, hh, and_false, ↓reduceIte]
  · simp [hc]

/-- Without its table a client has no handles, and the others have theirs. -/
theorem handleImage_of_erase {e e' : Engine} {c : ClientID}
    (himages : e'.clientImages = e.clientImages.erase c) (c' : ClientID) (h : UInt32) :
    e'.handleImage c' h = if c' = c then none else e.handleImage c' h := by
  rw [handleImage, himages, handleImage]
  split
  · rename_i hc; subst hc; simp
  · rename_i hc; rw [GoMap.getElem?_erase_ne _ hc]

/-! ## The accounts -/

/-- The counts of the cache are the numbers of handles, and every held image is cached. -/
structure Accounts (e : Engine) : Prop where
  wf : e.cache.WF
  refs : ∀ en ∈ e.cache.view, en.refCount = (e.holders en.kittyImgID).ncard
  held : ∀ c h id, e.handleImage c h = some id → id ∈ e.cache.byID

/-- The next kitty ID is not the ID of a cached image. -/
def FreshID (e : Engine) : Prop := e.idAlloc.next ∉ e.cache.byID

namespace Accounts

variable {e : Engine}

/-- An unreferenced entry is one that no handle denotes. -/
theorem unreferenced_iff (h : e.Accounts) {en : CacheEntry} (hen : en ∈ e.cache.view) :
    en.unreferenced = true ↔ ∀ c k, e.handleImage c k ≠ some en.kittyImgID := by
  rw [CacheEntry.unreferenced, decide_eq_true_eq, h.refs en hen]
  constructor
  · intro hle c k hk
    have hpos := (Set.ncard_pos (e.finite_holders en.kittyImgID)).mpr ⟨(c, k), hk⟩
    omega
  · intro hnone
    have hempty : e.holders en.kittyImgID = ∅ :=
      Set.eq_empty_of_forall_notMem fun x hx => hnone x.1 x.2 hx
    rw [hempty, Set.ncard_empty]; omega

/-- The images that storing new data evicts. -/
theorem mem_evicted_iff (h : e.Accounts) {hash128 : Data → Hash} {data : Data} {id : UInt32}
    (hlookup : e.cache.lookup hash128 data = none) {eid : UInt32} :
    eid ∈ (e.cache.store hash128 data id).2 ↔
      ∃ en ∈ RecencyCache.victims e.cache.maxSize e.cache.view, en.kittyImgID = eid := by
  have hstore := congrArg Prod.snd (Cache.view_store h.wf hash128 data id)
  have hfind := Cache.lookup_eq h.wf hash128 data
  rw [hlookup, RecencyCache.lookup, eq_comm, Option.map_eq_none_iff] at hfind
  simp only [RecencyCache.store, hfind] at hstore
  rw [hstore, List.mem_map]

/-- No handle denotes an evicted image. -/
theorem not_held_of_evicted (h : e.Accounts) {hash128 : Data → Hash} {data : Data} {id : UInt32}
    (hlookup : e.cache.lookup hash128 data = none) {eid : UInt32}
    (hmem : eid ∈ (e.cache.store hash128 data id).2) (c : ClientID) (k : UInt32) :
    e.handleImage c k ≠ some eid := by
  obtain ⟨en, hen, rfl⟩ := (h.mem_evicted_iff hlookup).mp hmem
  have hview : en ∈ e.cache.view :=
    (RecencyList.mem_iff_keep_or_victims _ _ _ en).mpr (Or.inr hen)
  exact (h.unreferenced_iff hview).mp (RecencyList.unref_of_mem_victims _ hen) c k

/-- An eviction takes no handle from any client. -/
theorem handleImage_freeEvicted (h : e.Accounts) {hash128 : Data → Hash} {data : Data}
    {id : UInt32} (hlookup : e.cache.lookup hash128 data = none) (env : Env) {e' : Engine}
    (himages : e'.clientImages = e.clientImages) (c : ClientID) (k : UInt32) :
    (e'.freeEvicted env (e.cache.store hash128 data id).2).1.handleImage c k =
      e.handleImage c k := by
  have hsame : e'.handleImage c k = e.handleImage c k := by rw [handleImage, himages, handleImage]
  rw [Engine.handleImage_freeEvicted, hsame]
  cases hk : e.handleImage c k with
  | none => rfl
  | some kid =>
    rw [Option.bind_some, if_neg]
    intro hmem
    exact h.not_held_of_evicted hlookup hmem c k hk

/-- The engine after the eviction of a miss. -/
theorem of_evict (h : e.Accounts) {hash128 : Data → Hash} {data : Data}
    (hlookup : e.cache.lookup hash128 data = none) {env : Env} {e₁ : Engine} {out₁ : List Action}
    (hevict : ({ e with
      idAlloc := ⟨e.idAlloc.next + 1⟩
      cache := (e.cache.store hash128 data e.idAlloc.next).1 } : Engine).freeEvicted env
        (e.cache.store hash128 data e.idAlloc.next).2 = (e₁, out₁)) :
    e₁.cache = (e.cache.store hash128 data e.idAlloc.next).1 ∧
      e₁.idAlloc = ⟨e.idAlloc.next + 1⟩ ∧ ∀ c k, e₁.handleImage c k = e.handleImage c k := by
  have hfst := congrArg Prod.fst hevict
  simp only at hfst
  refine ⟨?_, ?_, fun c k => ?_⟩
  · rw [← hfst, freeEvicted_fst]
  · rw [← hfst, freeEvicted_fst]
  · rw [← hfst]
    refine h.handleImage_freeEvicted hlookup env ?_ c k
    rfl

end Accounts

/-! ### The entries after a store -/

/-- Storing what is known counts one more reference and moves the entry to the front. -/
theorem view_store_hit {e : Engine} (hwf : e.cache.WF) {hash128 : Data → Hash} {data : Data}
    {id : UInt32} (hlookup : e.cache.lookup hash128 data = some id) (id' : UInt32) :
    ∃ en ∈ e.cache.view, en.hash = hash128 data ∧ en.kittyImgID = id ∧
      (e.cache.store hash128 data id').1.view =
        en.addRef 1 :: e.cache.view.filter fun en' => en'.hash != hash128 data := by
  have hstore := congrArg Prod.fst (Cache.view_store hwf hash128 data id')
  rw [Cache.lookup_eq hwf, RecencyCache.lookup, Option.map_eq_some_iff] at hlookup
  obtain ⟨en, hfind, hid⟩ := hlookup
  simp only [RecencyCache.store, hfind] at hstore
  exact ⟨en, List.mem_of_find?_eq_some hfind, by simpa using List.find?_some hfind, hid, hstore⟩

/-- Storing what is known changes the entry of this image alone. -/
theorem mem_view_store_hit {e : Engine} (hwf : e.cache.WF) {hash128 : Data → Hash} {data : Data}
    {id id' : UInt32} (hlookup : e.cache.lookup hash128 data = some id) {en : CacheEntry}
    (hen : en ∈ (e.cache.store hash128 data id').1.view) :
    (∃ en₀ ∈ e.cache.view, en₀.kittyImgID = id ∧ en = en₀.addRef 1) ∨
      (en ∈ e.cache.view ∧ en.kittyImgID ≠ id) := by
  obtain ⟨en₀, hen₀, hhash, hid, hview⟩ := view_store_hit hwf hlookup id'
  rw [hview, List.mem_cons, List.mem_filter] at hen
  rcases hen with rfl | ⟨hen, hne⟩
  · exact Or.inl ⟨en₀, hen₀, hid, rfl⟩
  · refine Or.inr ⟨hen, fun heq => ?_⟩
    rw [hwf.eq_of_id_eq hen hen₀ (heq.trans hid.symm), hhash] at hne
    simp at hne

/-- Storing what is not known puts a new entry in front of what is kept. -/
theorem view_store_miss {e : Engine} (hwf : e.cache.WF) {hash128 : Data → Hash} {data : Data}
    (hlookup : e.cache.lookup hash128 data = none) (id : UInt32) :
    (e.cache.store hash128 data id).1.view =
      { hash := hash128 data, kittyImgID := id, refCount := 1 } ::
        RecencyCache.keep e.cache.maxSize e.cache.view := by
  have hstore := congrArg Prod.fst (Cache.view_store hwf hash128 data id)
  have hfind := Cache.lookup_eq hwf hash128 data
  rw [hlookup, RecencyCache.lookup, eq_comm, Option.map_eq_none_iff] at hfind
  simp only [RecencyCache.store, hfind] at hstore
  exact hstore

/-- What is kept was there. -/
theorem mem_keep_view {e : Engine} {en : CacheEntry}
    (h : en ∈ RecencyCache.keep e.cache.maxSize e.cache.view) : en ∈ e.cache.view :=
  (RecencyList.keep_sublist _ _ _).mem h

/-! ### How the holders of an image change -/

section Holders
variable {e e' : Engine} {c : ClientID} {h : UInt32} {value : Option UInt32}

/-- A handle that comes to denote `id` adds one holder. -/
theorem ncard_holders_gain {id : UInt32}
    (himage : ∀ c' h', e'.handleImage c' h' =
      if c' = c ∧ h' = h then some id else e.handleImage c' h')
    (hold : e.handleImage c h ≠ some id) :
    (e'.holders id).ncard = (e.holders id).ncard + 1 := by
  have hset : e'.holders id = insert (c, h) (e.holders id) := by
    ext ⟨c', h'⟩
    simp only [mem_holders, himage, Set.mem_insert_iff, Prod.mk.injEq]
    by_cases hx : c' = c ∧ h' = h <;> simp [hx]
  have hnot : (c, h) ∉ e.holders id := hold
  rw [hset, Set.ncard_insert_of_notMem hnot (e.finite_holders id)]

/-- A handle that stops denoting `id` takes one holder away. -/
theorem ncard_holders_lose {id : UInt32}
    (himage : ∀ c' h', e'.handleImage c' h' =
      if c' = c ∧ h' = h then none else e.handleImage c' h')
    (hold : e.handleImage c h = some id) :
    (e'.holders id).ncard + 1 = (e.holders id).ncard := by
  have hset : e'.holders id = e.holders id \ {(c, h)} := by
    ext ⟨c', h'⟩
    simp only [mem_holders, himage, Set.mem_sdiff, Set.mem_singleton_iff, Prod.mk.injEq]
    by_cases hx : c' = c ∧ h' = h <;> simp [hx]
  rw [hset, Set.ncard_sdiff_singleton_add_one (mem_holders.mpr hold) (e.finite_holders id)]

/-- A change of one handle does not concern an image it denotes neither before nor after. -/
theorem holders_of_ne {id : UInt32}
    (himage : ∀ c' h', e'.handleImage c' h' =
      if c' = c ∧ h' = h then value else e.handleImage c' h')
    (hold : e.handleImage c h ≠ some id) (hnew : value ≠ some id) :
    e'.holders id = e.holders id := by
  ext ⟨c', h'⟩
  rw [mem_holders, mem_holders, himage]
  split
  · rename_i hx
    obtain ⟨rfl, rfl⟩ := hx
    simp [hold, hnew]
  · rfl

/-- A client that leaves takes its handles along. -/
theorem ncard_holders_disconnect (order : RangeOrder UInt32) (id : UInt32)
    (himages : e'.clientImages = e.clientImages.erase c) :
    (e.holders id).ncard = (e'.holders id).ncard +
      (GoMap.entries order (e.table c)).countP (fun x => decide (x.2 = id)) := by
  -- the holders before are those of the other clients and the keys of the table of `c`
  have hset : e.holders id =
      e'.holders id ∪ (fun h => (c, h)) '' {h : UInt32 | (e.table c)[h]? = some id} := by
    ext ⟨c', h'⟩
    simp only [mem_holders, handleImage_of_erase himages, Set.mem_union, Set.mem_image,
      Set.mem_ofPred_eq, Prod.mk.injEq]
    by_cases hc : c' = c
    · subst hc; simp [handleImage_eq]
    · simp [hc, Ne.symm hc]
  have hdisj : Disjoint (e'.holders id)
      ((fun h => (c, h)) '' {h : UInt32 | (e.table c)[h]? = some id}) := by
    rw [Set.disjoint_right]
    rintro x ⟨h', -, rfl⟩ hx
    rw [mem_holders, handleImage_of_erase himages, if_pos rfl] at hx
    exact nomatch hx
  have hfin := e.finite_holders id
  rw [hset, Set.finite_union] at hfin
  rw [hset, Set.ncard_union_eq hdisj hfin.1 hfin.2,
    Set.ncard_image_of_injective _ (Prod.mk_right_injective c), GoMap.countP_entries]

end Holders

/-! ### The step lemma -/

/-- A hit adds one handle and one reference. -/
theorem accounts_hit {e e' : Engine} (h : e.Accounts) {hash128 : Data → Hash} {data : Data}
    {c : ClientID} {kittyID handle : UInt32}
    (hlookup : e.cache.lookup hash128 data = some kittyID)
    (hnew : e.handleImage c handle = none)
    (hcache : e'.cache = (e.cache.store hash128 data kittyID).1)
    (himages : e'.clientImages = (e.setHandle c handle kittyID).clientImages) : e'.Accounts := by
  have himage := handleImage_of_setHandle himages
  have hkeys : e'.cache.byID = e.cache.byID := by rw [hcache, Cache.byID_store_hit hlookup]
  refine ⟨?_, ?_, ?_⟩
  · rw [hcache]
    exact Cache.wf_store h.wf hash128 data fun hn => nomatch hlookup.symm.trans hn
  · intro en hen
    rw [hcache] at hen
    rcases mem_view_store_hit h.wf hlookup hen with ⟨en₀, hen₀, rfl, rfl⟩ | ⟨hen, hne⟩
    · -- the entry that was hit: one more handle, one more reference
      have hgain := ncard_holders_gain himage (by rw [hnew]; exact nofun)
      simp only [CacheEntry.addRef, hgain, h.refs en₀ hen₀]
      omega
    · rw [holders_of_ne himage (by rw [hnew]; exact nofun) (by simpa using Ne.symm hne),
        h.refs en hen]
  · intro c' h' id hid
    rw [hkeys]
    rw [himage] at hid
    -- the new handle holds the image that was found, the others are as before
    split at hid
    · exact Option.some.inj hid ▸ Cache.mem_byID_of_lookup h.wf hlookup
    · exact h.held c' h' id hid

/-- A miss caches the new image with its one handle. -/
theorem accounts_miss {e e' : Engine} (h : e.Accounts) (hfresh : e.FreshID)
    {hash128 : Data → Hash} {data : Data} {c : ClientID} {handle : UInt32}
    (hlookup : e.cache.lookup hash128 data = none)
    (hcache : e'.cache = (e.cache.store hash128 data e.idAlloc.next).1)
    (himage : ∀ c' h', e'.handleImage c' h' =
      if c' = c ∧ h' = handle then some e.idAlloc.next else e.handleImage c' h')
    (hnew : e.handleImage c handle = none) : e'.Accounts := by
  have hwf : e'.cache.WF := by
    rw [hcache]; exact Cache.wf_store h.wf hash128 data fun _ => hfresh
  have hview := view_store_miss h.wf hlookup e.idAlloc.next
  refine ⟨hwf, ?_, ?_⟩
  · intro en hen
    rw [hcache, hview, List.mem_cons] at hen
    rcases hen with rfl | hen
    · -- nobody held the new ID before
      have hnone : e.holders e.idAlloc.next = ∅ :=
        Set.eq_empty_of_forall_notMem fun x hx => hfresh (h.held x.1 x.2 _ hx)
      have hgain := ncard_holders_gain himage (by rw [hnew]; exact nofun)
      rw [hnone, Set.ncard_empty] at hgain
      simp [hgain]
    · -- an entry that stayed has another ID than the new handle
      have hmem := mem_keep_view hen
      have hne : e.idAlloc.next ≠ en.kittyImgID := fun heq =>
        hfresh (heq ▸ (h.wf.mem_byID _).mpr ⟨en, hmem, rfl⟩)
      rw [holders_of_ne himage (by rw [hnew]; exact nofun) (by simpa using hne), h.refs en hmem]
  · intro c' h' id hid
    rw [himage] at hid
    rw [hwf.mem_byID, hcache, hview]
    split at hid
    · exact ⟨_, List.mem_cons_self, Option.some.inj hid⟩
    · -- a held image is referenced, so it was not evicted
      obtain ⟨en, hen, rfl⟩ := (h.wf.mem_byID id).mp (h.held c' h' id hid)
      refine ⟨en, List.mem_cons_of_mem _ ?_, rfl⟩
      refine ((RecencyList.mem_iff_keep_or_victims _ _ _ en).mp hen).resolve_right fun hvictim => ?_
      exact (h.unreferenced_iff hen).mp (RecencyList.unref_of_mem_victims _ hvictim) c' h' hid

/-- A free drops one handle and one reference. -/
theorem accounts_free {e e' : Engine} (h : e.Accounts) {c : ClientID} {handle kittyID : UInt32}
    (hold : e.handleImage c handle = some kittyID)
    (hcache : e'.cache = e.cache.release kittyID)
    (himages : e'.clientImages = e.clientImages.insert c ((e.table c).erase handle)) :
    e'.Accounts := by
  -- one handle less; the cache keeps its IDs
  have himage := handleImage_of_freeHandle himages
  have hkeys : e'.cache.byID = e.cache.byID := by rw [hcache, Cache.byID_release]
  refine ⟨hcache ▸ Cache.wf_release h.wf kittyID, ?_, ?_⟩
  · intro en hen
    rw [hcache, Cache.view_release h.wf, RecencyCache.release, List.mem_map] at hen
    obtain ⟨en₀, hen₀, rfl⟩ := hen
    have hrefs := h.refs en₀ hen₀
    split
    · -- the entry that was released: one handle less, one reference less
      rename_i hid
      subst hid
      have hlose := ncard_holders_lose himage hold
      simp only [CacheEntry.addRef]
      omega
    · rename_i hid
      rw [holders_of_ne himage (by simpa [hold] using Ne.symm hid)
        (Option.some_ne_none _).symm, hrefs]
  · intro c' h' id hid
    rw [hkeys]
    rw [himage] at hid
    split at hid
    · cases hid
    · exact h.held c' h' id hid

theorem wf_releaseAll {cache : Cache} (h : cache.WF) (images : List (UInt32 × UInt32)) :
    (releaseAll cache images).WF := by
  induction images generalizing cache with
  | nil => exact h
  | cons image images ih => exact ih (Cache.wf_release h image.2)

theorem byID_releaseAll (cache : Cache) (images : List (UInt32 × UInt32)) :
    (releaseAll cache images).byID = cache.byID := by
  induction images generalizing cache with
  | nil => rfl
  | cons image images ih =>
    rw [releaseAll, List.foldl_cons, ← releaseAll, ih, Cache.byID_release]

/-- Releasing every image of a table drops as many references as the table has handles. -/
theorem view_releaseAll {cache : Cache} (h : cache.WF) (images : List (UInt32 × UInt32)) :
    (releaseAll cache images).view = cache.view.map fun en =>
      en.addRef (-(images.countP fun x => decide (x.2 = en.kittyImgID) : Nat)) := by
  induction images generalizing cache with
  | nil => simp [releaseAll, CacheEntry.addRef]
  | cons image images ih =>
    rw [releaseAll, List.foldl_cons, ← releaseAll, ih (Cache.wf_release h _),
      Cache.view_release h, RecencyCache.release, List.map_map]
    -- the first release counts for the entry with its ID, the others are the hypothesis
    refine List.map_congr_left fun en _ => ?_
    rw [Function.comp_apply, List.countP_cons]
    by_cases hid : en.kittyImgID = image.2
    · simp only [hid, ↓reduceIte, CacheEntry.addRef, decide_true, CacheEntry.mk.injEq, true_and]
      omega
    · simp [hid, Ne.symm hid, CacheEntry.addRef]

/-- A disconnect drops the client's handles with their references. -/
theorem accounts_disconnect {e e' : Engine} (h : e.Accounts) {c : ClientID}
    (order : RangeOrder UInt32)
    (hcache : e'.cache = releaseAll e.cache (GoMap.entries order (e.table c)))
    (himages : e'.clientImages = e.clientImages.erase c) : e'.Accounts := by
  refine ⟨hcache ▸ wf_releaseAll h.wf _, ?_, ?_⟩
  · intro en hen
    rw [hcache, view_releaseAll h.wf, List.mem_map] at hen
    obtain ⟨en₀, hen₀, rfl⟩ := hen
    -- as many references are released as holders go
    have hrefs := h.refs en₀ hen₀
    have hcount := ncard_holders_disconnect order en₀.kittyImgID himages
    simp only [CacheEntry.addRef]
    omega
  · intro c' h' id hid
    rw [hcache, byID_releaseAll]
    rw [handleImage_of_erase himages] at hid
    split at hid
    · cases hid
    · exact h.held c' h' id hid

/-- Every input keeps the accounts, provided a new kitty ID is not in use. -/
theorem accounts_step {hash128 : Data → Hash} {env : Env} {e e' : Engine} {input : Input}
    {out : List Action} (h : e.Accounts) (hstep : ImageStep hash128 env e input out e')
    (hfresh : e'.idAlloc ≠ e.idAlloc → e.FreshID) : e'.Accounts := by
  cases hstep with
  | quiet _ _ _ hcache himages =>
    have himage : e'.handleImage = e.handleImage := by
      funext c k; rw [handleImage, himages, handleImage]
    refine ⟨hcache ▸ h.wf, ?_, ?_⟩
    · rw [hcache]; intro en hen; rw [holders, himage]; exact h.refs en hen
    · rw [hcache, himage]; exact h.held
  | hit hlookup hhandle =>
    exact accounts_hit h hlookup (handleImage_of_firstFree hhandle) rfl rfl
  | refused => exact ⟨h.wf, h.refs, h.held⟩
  -- only a miss allocates, so only here the new ID has to be fresh
  | miss hlookup _ hevict hhandle =>
    obtain ⟨hcache, halloc, himage⟩ := h.of_evict hlookup hevict
    have hnext : e.FreshID := hfresh fun heq => next_ne e.idAlloc (halloc.symm.trans heq)
    refine accounts_miss h hnext hlookup (hcache ▸ rfl) (fun c' h' => ?_)
      (himage _ _ ▸ handleImage_of_firstFree hhandle)
    rw [handleImage_of_setHandle rfl, himage]
  | free himage => exact accounts_free h himage rfl rfl
  | disconnect hcache himages => exact accounts_disconnect h _ hcache himages

/-! ## The terminal's images -/

/-- Evicted images leave the terminal, with everything that shows them. -/
theorem applyAll_freeEvicted (env : Env) {e : Engine} (hgfx : e.gfx = true)
    (evicted : List UInt32) (t : Terminal) :
    t.applyAll (e.freeEvicted env evicted).2 =
      { stored := t.stored \ evicted.toFinset
        shown := fun i p => if i ∈ evicted then none else t.shown i p
        lastTransmit := t.lastTransmit } := by
  induction evicted generalizing e t with
  | nil => simp [freeEvicted]
  | cons eid evicted ih =>
    have hgfx' : (e.notifyEviction env eid).1.gfx = true := hgfx
    -- with a backend the image is freed before its holders are told
    have hdel : e.gfxCalls [.delete eid 0 true] = [.gfx (.delete eid 0 true)] := by
      rw [gfxCalls, if_pos hgfx]; rfl
    simp only [freeEvicted, Terminal.applyAll_append, hdel,
      Terminal.applyAll_of_noCalls (noCalls_notifyEviction env e eid), ih hgfx']
    simp only [Terminal.applyAll_cons, Terminal.applyAll_nil, Terminal.act, Terminal.apply,
      ↓reduceIte, List.toFinset_cons, List.mem_cons]
    congr 1
    · ext id; simp only [Finset.mem_sdiff, Finset.mem_erase, Finset.mem_insert]; grind
    · funext i p; grind

/-- The terminal after a miss: the new image is stored, the evicted ones are gone. -/
theorem applyAll_miss {hash128 : Data → Hash} {env : Env} {e e₁ : Engine} {out₁ : List Action}
    {params : UploadParams} {r : Reply} (hgfx : e.gfx = true) (hok : env.transmitErr = none)
    (hevict : ({ e with
      idAlloc := ⟨e.idAlloc.next + 1⟩
      cache := (e.cache.store hash128 params.data e.idAlloc.next).1 } : Engine).freeEvicted env
        (e.cache.store hash128 params.data e.idAlloc.next).2 = (e₁, out₁)) (t : Terminal) :
    t.applyAll (e.gfxCalls [.transmit e.idAlloc.next params.data params.format params.width
        params.height env.transmitErr.isNone] ++ out₁ ++ [.reply r]) =
      { stored := insert e.idAlloc.next t.stored \
          (e.cache.store hash128 params.data e.idAlloc.next).2.toFinset
        shown := fun i p =>
          if i ∈ (e.cache.store hash128 params.data e.idAlloc.next).2 then none else t.shown i p
        lastTransmit := fun i =>
          if i = e.idAlloc.next then
            some ⟨params.data, params.format, params.width, params.height⟩
          else t.lastTransmit i } := by
  have hout : out₁ = _ := (congrArg Prod.snd hevict).symm
  have htransmit : ∀ call, e.gfxCalls [call] = [.gfx call] := by
    intro call; rw [gfxCalls, if_pos hgfx]; rfl
  rw [Terminal.applyAll_append, Terminal.applyAll_append, hout, applyAll_freeEvicted, htransmit,
    hok]
  · rfl
  · exact hgfx

end Engine

namespace World

/-- The accounts of the engine, and a terminal that stores exactly the cached images. -/
structure Accounting (w : World) : Prop where
  accounts : w.engine.Accounts
  stored : ∀ id, id ∈ w.terminal.stored ↔ id ∈ w.engine.cache.byID

/-- A miss transmits the new image and removes the evicted ones, in the cache as on the
    terminal. -/
theorem stored_miss {e : Engine} (h : e.Accounts) (hfresh : e.FreshID) {t : Terminal}
    (hstored : ∀ id, id ∈ t.stored ↔ id ∈ e.cache.byID) {hash128 : Data → Hash} {data : Data}
    (hlookup : e.cache.lookup hash128 data = none) (id : UInt32) :
    id ∈ insert e.idAlloc.next t.stored \ (e.cache.store hash128 data e.idAlloc.next).2.toFinset ↔
      id ∈ (e.cache.store hash128 data e.idAlloc.next).1.byID := by
  have hwf := Cache.wf_store h.wf hash128 data fun _ => hfresh
  rw [hwf.mem_byID, Engine.view_store_miss h.wf hlookup, Finset.mem_sdiff, Finset.mem_insert,
    List.mem_toFinset, hstored, h.wf.mem_byID, h.mem_evicted_iff hlookup]
  simp only [List.exists_mem_cons_iff]
  constructor
  · -- what is stored and not deleted is in the part of the list that is kept
    rintro ⟨rfl | ⟨en, hen, rfl⟩, hvictim⟩
    · exact Or.inl rfl
    · refine Or.inr ⟨en, ?_, rfl⟩
      exact ((RecencyList.mem_iff_keep_or_victims _ _ _ en).mp hen).resolve_right fun hv =>
        hvictim ⟨en, hv, rfl⟩
  · have hview : ∀ en ∈ RecencyCache.victims e.cache.maxSize e.cache.view, en ∈ e.cache.view :=
      fun en hen => (RecencyList.mem_iff_keep_or_victims _ _ _ en).mpr (Or.inr hen)
    -- neither the new image nor a kept one has the ID of an evicted one
    rintro (rfl | ⟨en, hen, rfl⟩)
    · refine ⟨Or.inl rfl, ?_⟩
      intro hx
      obtain ⟨en, hen, heq⟩ := hx
      exact hfresh (heq ▸ (h.wf.mem_byID _).mpr ⟨en, hview en hen, rfl⟩)
    · refine ⟨Or.inr ⟨en, Engine.mem_keep_view hen, rfl⟩, ?_⟩
      intro hx
      obtain ⟨en', hen', heq⟩ := hx
      obtain rfl := h.wf.eq_of_id_eq (hview en' hen') (Engine.mem_keep_view hen) heq
      exact RecencyList.not_mem_keep_of_mem_victims _ h.wf.nodup_view hen' hen

/-- Every input keeps engine and terminal accounted for. -/
theorem accounting_step {hash128 : Data → Hash} {w w' : World} {l : Label} (h : w.Accounting)
    (hgfx : w.engine.gfx = true) (hs : Step hash128 w l w')
    (hfresh : w'.engine.idAlloc ≠ w.engine.idAlloc → w.engine.FreshID) : w'.Accounting := by
  obtain ⟨env, hr, ht⟩ := hs
  have hstep := Engine.imageStep_of_receive hr
  refine ⟨Engine.accounts_step h.accounts hstep hfresh, fun id => ?_⟩
  rw [ht]
  cases w' with
  | mk e' t' =>
  cases l with
  | mk input out =>
  simp only at hstep hfresh hr ⊢
  cases hstep with
  | quiet _ _ _ hcache _ _ hout =>
    rw [(Terminal.applyAll_of_imageQuiet hout _).1, hcache, h.stored]
  | hit hlookup =>
    rw [Cache.byID_store_hit hlookup, Terminal.applyAll_of_noCalls (by simp), h.stored]
  | refused => exact h.stored id
  | miss hlookup hok hevict =>
    obtain ⟨hcache, halloc, -⟩ := h.accounts.of_evict hlookup hevict
    -- the only step that allocates, so its ID is fresh
    have hnext : w.engine.FreshID := hfresh fun heq =>
      Engine.next_ne w.engine.idAlloc (halloc.symm.trans heq)
    rw [Engine.applyAll_miss hgfx (hok hgfx) hevict]
    refine (stored_miss h.accounts hnext h.stored hlookup id).trans ?_
    exact hcache ▸ Iff.rfl
  | free => rw [Cache.byID_release]; exact h.stored id
  | disconnect hcache _ _ hout =>
    rw [(Terminal.applyAll_of_imageQuiet hout _).1, hcache, Engine.byID_releaseAll, h.stored]

end World

/-! ## Whole runs -/

/-- A new engine has nothing to account for. -/
theorem Engine.accounts_new (gfx notifier stopFunc inTmux : Bool) (maxSize : Int) :
    (Engine.new gfx notifier stopFunc inTmux maxSize).Accounts where
  wf := Cache.wf_new maxSize
  refs := fun _ h => nomatch h
  held := fun c h id hid => by simp [Engine.new, Engine.handleImage] at hid

/-- A step that allocates a kitty ID allocates one that no cached image has. -/
def FreshStep (t : Transition World Label) : Prop :=
  t.post.engine.idAlloc ≠ t.pre.engine.idAlloc → t.pre.engine.FreshID

namespace World

section Runs
variable {hash128 : Data → Hash} {gfx notifier stopFunc inTmux : Bool} {maxSize : Int}
  {tr : List (Transition World Label)} {w : World}

/-- With unused IDs the engine's accounts hold after every run, with or without graphics. -/
theorem accounts_of_fresh (h : Runs hash128 (Engine.new gfx notifier stopFunc inTmux maxSize) tr w)
    (hfresh : ∀ t ∈ tr, FreshStep t) : w.engine.Accounts := by
  refine Run.invariant (I := fun w : World => w.engine.Accounts)
    (Engine.accounts_new gfx notifier stopFunc inTmux maxSize) ?_ (h.restrict hfresh)
  intro w l w' hacc hx
  obtain ⟨⟨env, hr, -⟩, hf⟩ := hx
  exact Engine.accounts_step hacc (Engine.imageStep_of_receive hr) hf

/-- With unused IDs engine and terminal are accounted for after every run. -/
theorem accounting_of_fresh
    (h : Runs hash128 (Engine.new true notifier stopFunc inTmux maxSize) tr w)
    (hfresh : ∀ t ∈ tr, FreshStep t) : w.Accounting := by
  suffices hinv : w.Accounting ∧ w.engine.gfx = true from hinv.1
  refine Run.invariant (I := fun w : World => w.Accounting ∧ w.engine.gfx = true) ?_ ?_
    (h.restrict hfresh)
  · refine ⟨⟨Engine.accounts_new _ _ _ _ _, fun id => ?_⟩, rfl⟩
    simp [start, Terminal.empty, Engine.new, Cache.new]
  · rintro w l w' ⟨hacc, hg⟩ ⟨hs, hf⟩
    refine ⟨accounting_step hacc hg hs hf, ?_⟩
    obtain ⟨env, hr, -⟩ := hs
    rw [Engine.gfx_of_placementStep (Engine.placementStep_of_receive hr), hg]

end Runs

end World

/-- The IDs an input adds to the cache come from the allocator. -/
theorem Engine.byID_of_imageStep {hash128 : Data → Hash} {env : Env} {e e' : Engine}
    {input : Input} {out : List Action} (h : e.Accounts) (hfresh : e.FreshID)
    (hstep : ImageStep hash128 env e input out e') :
    (e'.idAlloc = e.idAlloc ∧ e'.cache.byID = e.cache.byID) ∨
      (e'.idAlloc = ⟨e.idAlloc.next + 1⟩ ∧
        ∀ id ∈ e'.cache.byID, id = e.idAlloc.next ∨ id ∈ e.cache.byID) := by
  cases hstep with
  | quiet _ _ _ hcache _ halloc => exact Or.inl ⟨halloc, by rw [hcache]⟩
  | hit hlookup => exact Or.inl ⟨rfl, Cache.byID_store_hit hlookup _⟩
  -- a refused upload has spent its ID all the same
  | refused => exact Or.inr ⟨rfl, fun id hid => Or.inr hid⟩
  | @miss c params e₁ out₁ handle hlookup _ hevict =>
    obtain ⟨hcache, halloc, -⟩ := h.of_evict hlookup hevict
    refine Or.inr ⟨halloc, fun id hid => ?_⟩
    -- the eviction only removes, so the stored entry is the one new ID
    have hwf := Cache.wf_store h.wf hash128 params.data fun _ => hfresh
    rw [setHandle, hcache, hwf.mem_byID, view_store_miss h.wf hlookup,
      List.exists_mem_cons_iff] at hid
    rcases hid with rfl | ⟨en, hen, rfl⟩
    · exact Or.inl rfl
    · exact Or.inr ((h.wf.mem_byID _).mpr ⟨en, mem_keep_view hen, rfl⟩)
  | free => exact Or.inl ⟨rfl, Cache.byID_release _ _⟩
  | disconnect hcache _ halloc => exact Or.inl ⟨halloc, by rw [hcache, byID_releaseAll]⟩

namespace World

section Runs
variable {hash128 : Data → Hash} {gfx notifier stopFunc inTmux : Bool} {maxSize : Int}
  {tr : List (Transition World Label)} {w : World}

/-- While the counter has not come round, all cached IDs lie below it. -/
theorem alloc_of_nextCalls
    (h : Runs hash128 (Engine.new gfx notifier stopFunc inTmux maxSize) tr w)
    (hcalls : nextCalls tr < 2 ^ 32 - 1) :
    (∀ t ∈ tr, FreshStep t) ∧ w.engine.idAlloc.next.toNat = nextCalls tr + 1 ∧
      ∀ id ∈ w.engine.cache.byID, id.toNat ≤ nextCalls tr := by
  revert hcalls
  refine Run.historyInvariant (I := fun tr w => nextCalls tr < 2 ^ 32 - 1 →
    (∀ t ∈ tr, FreshStep t) ∧ w.engine.idAlloc.next.toNat = nextCalls tr + 1 ∧
      ∀ id ∈ w.engine.cache.byID, id.toNat ≤ nextCalls tr) ?_ ?_ h
  · intro _
    refine ⟨?_, ?_, ?_⟩
    · intro t ht; cases ht
    · simp [start, Engine.new, IDAllocator.new, nextCalls]
    · intro id hid; simp [start, Engine.new, Cache.new] at hid
  · intro tr w l w' hrun ih hs hcalls
    have hcount : nextCalls (tr ++ [⟨w, l, w'⟩]) =
        nextCalls tr + if w.engine.idAlloc != w'.engine.idAlloc then 1 else 0 := by
      simp [nextCalls, List.countP_append, List.countP_cons]
    obtain ⟨hfresh, hnext, hids⟩ := ih (by omega)
    have hacc := accounts_of_fresh hrun hfresh
    -- the counter is above every cached ID
    have hid : w.engine.FreshID := fun hmem => by
      have hle := hids _ hmem
      omega
    obtain ⟨env, hr, -⟩ := hs
    have hall : ∀ t ∈ tr ++ [⟨w, l, w'⟩], FreshStep t := by
      intro t ht
      rcases List.mem_append.mp ht with ht | ht
      · exact hfresh t ht
      · obtain rfl := List.mem_singleton.mp ht
        exact fun _ => hid
    refine ⟨hall, ?_⟩
    rcases Engine.byID_of_imageStep hacc hid (Engine.imageStep_of_receive hr) with
      ⟨halloc, hkeys⟩ | ⟨halloc, hkeys⟩
    · -- nothing allocated
      rw [if_neg (by simp [halloc])] at hcount
      rw [hcount, halloc, hkeys]
      exact ⟨hnext, hids⟩
    · -- one ID allocated, which is the old counter
      have hne := (Engine.next_ne w.engine.idAlloc).symm
      rw [halloc, if_pos (by simpa using hne)] at hcount
      rw [hcount, halloc]
      refine ⟨?_, fun id hmem => ?_⟩
      · rw [UInt32.toNat_add]
        simp only [UInt32.reduceToNat]
        omega
      · rcases hkeys id hmem with rfl | hmem
        · omega
        · have hle := hids id hmem
          omega

/-- Fewer than 2^32 - 1 allocations never meet an ID in use. -/
theorem fresh_of_nextCalls
    (h : Runs hash128 (Engine.new gfx notifier stopFunc inTmux maxSize) tr w)
    (hcalls : nextCalls tr < 2 ^ 32 - 1) : ∀ t ∈ tr, FreshStep t :=
  (alloc_of_nextCalls h hcalls).1

/-- After every run from an empty cache, whatever its capacity, in which any `Transmit` may
    fail and fewer than 2^32 - 1 kitty IDs are allocated, engine and terminal are accounted
    for. -/
theorem accounting_of_runs
    (h : Runs hash128 (Engine.new true notifier stopFunc inTmux maxSize) tr w)
    (hcalls : nextCalls tr < 2 ^ 32 - 1) : w.Accounting :=
  accounting_of_fresh h (fresh_of_nextCalls h hcalls)

end Runs

/-- Two clients share an image, one frees it and leaves, the other's upload evicts it. -/
def sharingScript : List (Env × Input) :=
  [Script.upload "a" [1], Script.upload "b" [1], Script.place "a" 1 Script.absolute,
    Script.free "a" 1, Script.disconnect "b", Script.upload "c" [2]]

/-- Two clients upload one image; one places it and frees it, the other one leaves, and new data
    evicts it. -/
theorem accounting_of_runs_sharing :
    ∃ tr w, Runs Script.firstByte (Engine.new true true true false 1) tr w ∧
      nextCalls tr = 2 ∧ w.Accounting := by
  have hrun := runs_of_exec Script.firstByte (Engine.new true true true false 1) sharingScript
    (by decide)
  exact ⟨_, _, hrun, by decide, accounting_of_runs hrun (by decide)⟩

end World

end Kgd
