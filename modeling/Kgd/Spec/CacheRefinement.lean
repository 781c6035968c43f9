import Kgd.Daemon.Cache
import Kgd.ForStd.List
import Kgd.ForStd.RecencyList

/-!
# The upload cache refines a recency list

`Cache` is two maps and a linked list over shared `entry` structs. `Cache.WF` says that the
three hold the same entries, each once, under its own hash and ID; then the cache is one
list of entries, most recently stored first (`Cache.view`), and its operations are the
operations of `RecencyCache` on that list.

## Key results

- `Cache.wf_store`, `Cache.wf_release`: the operations keep `WF`
- `Cache.view_store`, `Cache.view_release`, `Cache.lookup_eq`: the simulation
-/

namespace Kgd

/-- An entry that no handle refers to. -/
def CacheEntry.unreferenced (en : CacheEntry) : Bool := decide (en.refCount ≤ 0)

/-- The entry with `d` added to its count. -/
def CacheEntry.addRef (en : CacheEntry) (d : Int) : CacheEntry :=
  { en with refCount := en.refCount + d }

@[simp] theorem CacheEntry.addRef_hash (en : CacheEntry) (d : Int) :
    (en.addRef d).hash = en.hash := rfl

@[simp] theorem CacheEntry.addRef_kittyImgID (en : CacheEntry) (d : Int) :
    (en.addRef d).kittyImgID = en.kittyImgID := rfl

/-! ## The abstract cache: one list, most recently stored first -/

namespace RecencyCache

/-- The ID stored with a hash. -/
def lookup (l : List CacheEntry) (hash : Hash) : Option UInt32 :=
  (l.find? fun en => en.hash == hash).map CacheEntry.kittyImgID

/-- How many entries have to go to bring the length below `maxSize`. -/
def excess (maxSize : Int) (l : List CacheEntry) : Nat := (l.length + 1 - maxSize).toNat

/-- The entries that storing new data removes, oldest first. -/
def victims (maxSize : Int) (l : List CacheEntry) : List CacheEntry :=
  RecencyList.victims CacheEntry.unreferenced (excess maxSize l) l

/-- The entries that storing new data leaves. -/
def keep (maxSize : Int) (l : List CacheEntry) : List CacheEntry :=
  RecencyList.keep CacheEntry.unreferenced (excess maxSize l) l

/-- Store an ID under a hash: a known hash gains a reference and moves to the front, a new
    one replaces the victims. -/
def store (maxSize : Int) (l : List CacheEntry) (hash : Hash) (kittyImgID : UInt32) :
    List CacheEntry × List UInt32 :=
  match l.find? fun en => en.hash == hash with
  | some en => (en.addRef 1 :: l.filter fun en' => en'.hash != hash, [])
  | none =>
    ({ hash, kittyImgID, refCount := 1 } :: keep maxSize l,
      (victims maxSize l).map CacheEntry.kittyImgID)

/-- Drop one reference. -/
def release (l : List CacheEntry) (kittyImgID : UInt32) : List CacheEntry :=
  l.map fun en => if en.kittyImgID = kittyImgID then en.addRef (-1) else en

end RecencyCache

namespace Cache

/-- The entries on the list, most recently stored first. -/
def view (c : Cache) : List CacheEntry := c.lru.filterMap fun ref => c.heap[ref]?

/-- `byHash`, `byID` and the list hold exactly the same entries, each once, keyed by its own
    hash and ID. -/
structure WF (c : Cache) : Prop where
  nodup : c.lru.Nodup
  lruEntry : ∀ ref ∈ c.lru, ∃ en, c.heap[ref]? = some en ∧ c.byHash[en.hash]? = some ref ∧
    c.byID[en.kittyImgID]? = some ref
  byHashEntry : ∀ hash ref, c.byHash[hash]? = some ref →
    ref ∈ c.lru ∧ ∃ en, c.heap[ref]? = some en ∧ en.hash = hash
  byIDEntry : ∀ id ref, c.byID[id]? = some ref →
    ref ∈ c.lru ∧ ∃ en, c.heap[ref]? = some en ∧ en.kittyImgID = id

/-- The list and `byHash` hold references to entries that were allocated. This is all that the
    eviction loop needs, and it holds whatever IDs the entries are stored with. -/
structure Allocated (c : Cache) : Prop where
  lru : ∀ ref ∈ c.lru, ref < c.heap.length
  byHash : ∀ (hash : Hash) (ref : EntryRef), c.byHash[hash]? = some ref → ref < c.heap.length

theorem wf_new (maxSize : Int) : (new maxSize).WF where
  nodup := List.nodup_nil
  lruEntry := fun _ h => nomatch h
  byHashEntry := fun _ _ h => by simp [new] at h
  byIDEntry := fun _ _ h => by simp [new] at h

/-- The entries in the view are those that the list refers to. -/
theorem mem_view {c : Cache} {en : CacheEntry} :
    en ∈ c.view ↔ ∃ ref ∈ c.lru, c.heap[ref]? = some en := by
  rw [view, List.mem_filterMap]

/-- The view is as long as the list, where every reference is to an entry. -/
theorem length_view {c : Cache} (h : c.Allocated) : c.view.length = c.lru.length := by
  rw [view, List.filterMap_length_eq_length]
  intro ref href
  simp [h.lru ref href]

namespace WF

variable {c : Cache}

/-- In a well-formed cache every reference is to an entry. -/
theorem allocated (h : c.WF) : c.Allocated where
  lru := by
    intro ref href
    obtain ⟨en, hen, -⟩ := h.lruEntry ref href
    exact (List.getElem?_eq_some_iff.mp hen).1
  byHash := by
    intro hash ref hb
    obtain ⟨-, en, hen, -⟩ := h.byHashEntry hash ref hb
    exact (List.getElem?_eq_some_iff.mp hen).1

/-- An entry on the list is reached from both maps. -/
theorem maps_of_mem (h : c.WF) {ref : EntryRef} {en : CacheEntry} (href : ref ∈ c.lru)
    (hen : c.heap[ref]? = some en) :
    c.byHash[en.hash]? = some ref ∧ c.byID[en.kittyImgID]? = some ref := by
  obtain ⟨en', hen', hmaps⟩ := h.lruEntry ref href
  obtain rfl : en' = en := Option.some.inj (hen'.symm.trans hen)
  exact hmaps

/-- An entry on the list is determined by its hash. -/
theorem ref_eq_iff_hash (h : c.WF) {ref : EntryRef} {en : CacheEntry} (href : ref ∈ c.lru)
    (hen : c.heap[ref]? = some en) {hash : Hash} {ref' : EntryRef}
    (hhash : c.byHash[hash]? = some ref') : en.hash = hash ↔ ref = ref' := by
  constructor
  · rintro rfl
    exact Option.some.inj ((h.maps_of_mem href hen).1.symm.trans hhash)
  · rintro rfl
    obtain ⟨-, en', hen', rfl⟩ := h.byHashEntry _ _ hhash
    rw [Option.some.inj (hen'.symm.trans hen)]

/-- An entry on the list is determined by its kitty ID. -/
theorem ref_eq_iff_id (h : c.WF) {ref : EntryRef} {en : CacheEntry} (href : ref ∈ c.lru)
    (hen : c.heap[ref]? = some en) {id : UInt32} {ref' : EntryRef}
    (hid : c.byID[id]? = some ref') : en.kittyImgID = id ↔ ref = ref' := by
  constructor
  · rintro rfl
    exact Option.some.inj ((h.maps_of_mem href hen).2.symm.trans hid)
  · rintro rfl
    obtain ⟨-, en', hen', rfl⟩ := h.byIDEntry _ _ hid
    rw [Option.some.inj (hen'.symm.trans hen)]

/-- Two entries of the cache with one hash or one ID are the same entry. -/
theorem eq_of_hash_eq (h : c.WF) {en en' : CacheEntry} (hen : en ∈ c.view) (hen' : en' ∈ c.view)
    (heq : en.hash = en'.hash) : en = en' := by
  obtain ⟨ref, href, hr⟩ := mem_view.mp hen
  obtain ⟨ref', href', hr'⟩ := mem_view.mp hen'
  obtain rfl := (h.ref_eq_iff_hash href hr (h.maps_of_mem href' hr').1).mp heq
  exact Option.some.inj (hr.symm.trans hr')

/-- Two entries for one image are the same. -/
theorem eq_of_id_eq (h : c.WF) {en en' : CacheEntry} (hen : en ∈ c.view) (hen' : en' ∈ c.view)
    (heq : en.kittyImgID = en'.kittyImgID) : en = en' := by
  obtain ⟨ref, href, hr⟩ := mem_view.mp hen
  obtain ⟨ref', href', hr'⟩ := mem_view.mp hen'
  obtain rfl := (h.ref_eq_iff_id href hr (h.maps_of_mem href' hr').2).mp heq
  exact Option.some.inj (hr.symm.trans hr')

/-- The keys of `byID` are the IDs of the entries. -/
theorem mem_byID (h : c.WF) (id : UInt32) :
    id ∈ c.byID ↔ ∃ en ∈ c.view, en.kittyImgID = id := by
  constructor
  · intro hid
    obtain ⟨ref, href⟩ :=
      Option.isSome_iff_exists.mp (Std.ExtTreeMap.mem_iff_isSome_getElem?.mp hid)
    -- the two maps and the list agree on every entry
    obtain ⟨hlru, en, hen, rfl⟩ := h.byIDEntry _ _ href
    exact ⟨en, mem_view.mpr ⟨ref, hlru, hen⟩, rfl⟩
  · intro hx
    obtain ⟨en, hen, rfl⟩ := hx
    obtain ⟨ref, href, hr⟩ := mem_view.mp hen
    exact GoMap.mem_of_getElem? (h.maps_of_mem href hr).2

/-- The keys of `byHash` are the hashes of the entries. -/
theorem mem_byHash (h : c.WF) (hash : Hash) :
    hash ∈ c.byHash ↔ ∃ en ∈ c.view, en.hash = hash := by
  constructor
  · intro hh
    obtain ⟨ref, href⟩ := Option.isSome_iff_exists.mp (Std.ExtTreeMap.mem_iff_isSome_getElem?.mp hh)
    obtain ⟨hlru, en, hen, rfl⟩ := h.byHashEntry _ _ href
    exact ⟨en, mem_view.mpr ⟨ref, hlru, hen⟩, rfl⟩
  · intro hx
    obtain ⟨en, hen, rfl⟩ := hx
    obtain ⟨ref, href, hr⟩ := mem_view.mp hen
    exact GoMap.mem_of_getElem? (h.maps_of_mem href hr).1

/-- No entry is twice in the view. -/
theorem nodup_view (h : c.WF) : c.view.Nodup := by
  rw [view, List.Nodup, List.pairwise_filterMap]
  refine h.nodup.imp_of_mem ?_
  rintro ref ref' href href' hne en hen en' hen' rfl
  -- one entry on the list has one reference
  exact hne ((h.ref_eq_iff_id href hen (h.maps_of_mem href' hen').2).mp rfl)

/-- What the maps say about a hash is what a search of the list finds. -/
theorem find?_hash (h : c.WF) (hash : Hash) :
    (c.view.find? fun en => en.hash == hash) = c.byHash[hash]?.bind fun ref => c.heap[ref]? := by
  cases hb : c.byHash[hash]? with
  | none =>
    rw [Option.bind_none, List.find?_eq_none]
    intro en hen heq
    have hmem : hash ∈ c.byHash := (h.mem_byHash hash).mpr ⟨en, hen, eq_of_beq heq⟩
    rw [Std.ExtTreeMap.mem_iff_isSome_getElem?, hb] at hmem
    exact nomatch hmem
  -- no two entries have one hash, so the search finds the entry of the map
  | some ref =>
    obtain ⟨hlru, en, hen, rfl⟩ := h.byHashEntry _ _ hb
    rw [Option.bind_some, hen]
    cases hf : c.view.find? fun en' => en'.hash == en.hash with
    | none =>
      rw [List.find?_eq_none] at hf
      exact absurd (beq_self_eq_true _) (hf en (mem_view.mpr ⟨ref, hlru, hen⟩))
    | some en' =>
      have hhash : en'.hash = en.hash := by simpa using List.find?_some hf
      rw [h.eq_of_hash_eq (List.mem_of_find?_eq_some hf) (mem_view.mpr ⟨ref, hlru, hen⟩) hhash]

end WF

/-- `Lookup` finds what the recency list holds under the hash. -/
theorem lookup_eq {c : Cache} (h : c.WF) (hash128 : Data → Hash) (data : Data) :
    c.lookup hash128 data = RecencyCache.lookup c.view (hash128 data) := by
  rw [RecencyCache.lookup, h.find?_hash, lookup]
  cases c.byHash[hash128 data]? <;> rfl

/-! ## Changing a count -/

theorem heap_addRef (c : Cache) (ref : EntryRef) (d : Int) (ref' : EntryRef) :
    (c.addRef ref d).heap[ref']? =
      c.heap[ref']?.map fun en => if ref = ref' then en.addRef d else en := by
  simp only [addRef, List.getElem?_modify]
  by_cases hr : ref = ref'
  · simp only [hr, ↓reduceIte]; rfl
  · simp only [hr, ↓reduceIte]
    cases c.heap[ref']? <;> rfl

theorem wf_addRef {c : Cache} (h : c.WF) (ref : EntryRef) (d : Int) : (c.addRef ref d).WF where
  nodup := h.nodup
  lruEntry := fun ref' href' => by
    obtain ⟨en, hen, hmaps⟩ := h.lruEntry ref' href'
    refine ⟨if ref = ref' then en.addRef d else en, ?_, ?_⟩
    · rw [heap_addRef, hen]; rfl
    · split <;> exact hmaps
  -- the count is no part of what the maps are about
  byHashEntry := fun hash ref' hb => by
    obtain ⟨hlru, en, hen, rfl⟩ := h.byHashEntry hash ref' hb
    refine ⟨hlru, if ref = ref' then en.addRef d else en, ?_, ?_⟩
    · rw [heap_addRef, hen]; rfl
    · split <;> rfl
  byIDEntry := fun id ref' hb => by
    obtain ⟨hlru, en, hen, rfl⟩ := h.byIDEntry id ref' hb
    refine ⟨hlru, if ref = ref' then en.addRef d else en, ?_, ?_⟩
    · rw [heap_addRef, hen]; rfl
    · split <;> rfl

/-- Counting references changes the count of the image in the view. -/
theorem view_addRef {c : Cache} (h : c.WF) {id : UInt32} {ref : EntryRef}
    (hid : c.byID[id]? = some ref) (d : Int) :
    (c.addRef ref d).view =
      c.view.map fun en => if en.kittyImgID = id then en.addRef d else en := by
  rw [view, view, List.map_filterMap]
  refine List.filterMap_congr fun ref' href' => ?_
  rw [heap_addRef]
  obtain ⟨en, hen, -⟩ := h.lruEntry ref' href'
  -- the entry with this ID is the one at this reference
  have hiff := h.ref_eq_iff_id href' hen hid
  rw [hen, Option.map_some, Option.map_some]
  by_cases hr : ref' = ref
  · rw [if_pos hr.symm, if_pos (hiff.mpr hr)]
  · rw [if_neg (Ne.symm hr), if_neg (mt hiff.mp hr)]

/-! ### Release -/

theorem wf_release {c : Cache} (h : c.WF) (id : UInt32) : (c.release id).WF := by
  unfold release
  split
  · exact wf_addRef h _ _
  · exact h

/-- `Release` drops one reference of the entry with this ID, if there is one. -/
theorem view_release {c : Cache} (h : c.WF) (id : UInt32) :
    (c.release id).view = RecencyCache.release c.view id := by
  unfold release
  split
  · rename_i ref hid
    exact view_addRef h hid (-1)
  · rename_i hid
    rw [RecencyCache.release]
    -- no entry has the ID, so the abstract release changes none either
    conv_lhs => rw [← List.map_id' c.view]
    refine List.map_congr_left fun en hen => (if_neg ?_).symm
    rintro rfl
    have hmem := (h.mem_byID en.kittyImgID).mpr ⟨en, hen, rfl⟩
    rw [Std.ExtTreeMap.mem_iff_isSome_getElem?, hid] at hmem
    exact nomatch hmem

/-! ### Store, on a hit -/

/-- Moving an entry to the front keeps the entries. -/
theorem mem_moveToFront {c : Cache} {ref : EntryRef} (href : ref ∈ c.lru) (ref' : EntryRef) :
    ref' ∈ (c.moveToFront ref).lru ↔ ref' ∈ c.lru := by
  simp only [moveToFront, List.mem_cons]
  constructor
  · rintro (rfl | h)
    · exact href
    · exact List.mem_of_mem_erase h
  · intro h
    by_cases hr : ref' = ref
    · exact Or.inl hr
    · exact Or.inr ((List.mem_erase_of_ne hr).mpr h)

theorem wf_moveToFront {c : Cache} (h : c.WF) {ref : EntryRef} (href : ref ∈ c.lru) :
    (c.moveToFront ref).WF where
  nodup := List.nodup_cons.mpr ⟨h.nodup.not_mem_erase, h.nodup.erase ref⟩
  lruEntry := fun ref' h' => h.lruEntry ref' ((mem_moveToFront href ref').mp h')
  byHashEntry := fun hash ref' hb =>
    (h.byHashEntry hash ref' hb).imp_left (mem_moveToFront href ref').mpr
  byIDEntry := fun id ref' hb => (h.byIDEntry id ref' hb).imp_left (mem_moveToFront href ref').mpr

/-- The entry that is moved is first in the view, and the others are in their order. -/
theorem view_moveToFront {c : Cache} (h : c.WF) {ref : EntryRef} {en : CacheEntry}
    (href : ref ∈ c.lru) (hen : c.heap[ref]? = some en) :
    (c.moveToFront ref).view = en :: c.view.filter fun en' => en'.hash != en.hash := by
  have hcons : (c.moveToFront ref).view = en :: (c.lru.erase ref).filterMap (c.heap[·]?) := by
    simp only [view, moveToFront, List.filterMap_cons, hen]
  rw [hcons, h.nodup.erase_eq_filter, List.filterMap_filter, view, List.filter_filterMap]
  congr 1
  refine List.filterMap_congr fun ref' href' => ?_
  obtain ⟨en', hen', -⟩ := h.lruEntry ref' href'
  -- another reference in the list has another hash
  have hiff := h.ref_eq_iff_hash href' hen' (h.maps_of_mem href hen).1
  rw [hen']
  by_cases hr : ref' = ref
  · simp [hr, Option.filter, hiff.mpr hr]
  · simp [hr, Option.filter, mt hiff.mp hr]

/-! ### Store, on a miss -/

/-- Removing the oldest list element with its keys keeps the structures in step. -/
theorem wf_dropOldest {c : Cache} (h : c.WF) {lru : List EntryRef} {back : EntryRef}
    {victim : CacheEntry} (hlru : c.lru = lru ++ [back]) (hvictim : c.heap[back]? = some victim) :
    ({ c with
      lru := lru
      byHash := c.byHash.erase victim.hash
      byID := c.byID.erase victim.kittyImgID } : Cache).WF := by
  have hback : back ∈ c.lru := by rw [hlru]; simp
  have hmaps := h.maps_of_mem hback hvictim
  have hnodup := h.nodup
  rw [hlru, List.nodup_append] at hnodup
  -- `back` is on the list once, so what stays is what differs from it
  have hmem : ∀ ref, ref ∈ lru ↔ ref ∈ c.lru ∧ ref ≠ back := by
    intro ref
    rw [hlru, List.mem_append, List.mem_singleton]
    constructor
    · intro hr; exact ⟨Or.inl hr, hnodup.2.2 ref hr back (by simp)⟩
    · intro hx
      obtain ⟨hr, hne⟩ := hx
      exact hr.resolve_right hne
  refine ⟨hnodup.1, ?_, ?_, ?_⟩
  · intro ref href
    obtain ⟨href, hne⟩ := (hmem ref).mp href
    obtain ⟨en, hen, hh, hi⟩ := h.lruEntry ref href
    refine ⟨en, hen, ?_, ?_⟩
    · rw [GoMap.getElem?_erase_ne _ (mt (h.ref_eq_iff_hash href hen hmaps.1).mp hne), hh]
    · rw [GoMap.getElem?_erase_ne _ (mt (h.ref_eq_iff_id href hen hmaps.2).mp hne), hi]
  · intro hash ref hb
    obtain ⟨hne, hb⟩ := GoMap.getElem?_erase_eq_some.mp hb
    obtain ⟨href, en, hen, rfl⟩ := h.byHashEntry hash ref hb
    exact ⟨(hmem ref).mpr ⟨href, mt (h.ref_eq_iff_hash href hen hmaps.1).mpr hne⟩, en, hen, rfl⟩
  · intro id ref hb
    obtain ⟨hne, hb⟩ := GoMap.getElem?_erase_eq_some.mp hb
    obtain ⟨href, en, hen, rfl⟩ := h.byIDEntry id ref hb
    exact ⟨(hmem ref).mpr ⟨href, mt (h.ref_eq_iff_id href hen hmaps.2).mpr hne⟩, en, hen, rfl⟩

/-- The eviction loop goes on: the oldest entry was unreferenced and is gone. -/
theorem evictOne_eq_some {c c' : Cache} {id : UInt32} (h : c.Allocated)
    (he : c.evictOne = some (c', id)) :
    ∃ back en, c.lru = c'.lru ++ [back] ∧ c.heap[back]? = some en ∧ en.unreferenced = true ∧
      en.kittyImgID = id ∧ c.maxSize ≤ c.view.length ∧
      c' = { c with
        lru := c'.lru
        byHash := c.byHash.erase en.hash
        byID := c.byID.erase en.kittyImgID } := by
  unfold evictOne at he
  split at he
  · rename_i hsize
    split at he
    · exact nomatch he
    · rename_i back hback
      split at he
      · exact nomatch he
      · rename_i victim hvictim
        split at he
        · exact nomatch he
        · rename_i hrefs
          -- the one branch that goes on: the list is full, its last entry unreferenced
          simp only [Option.some.injEq, Prod.mk.injEq] at he
          obtain ⟨rfl, rfl⟩ := he
          obtain ⟨lru, hlru⟩ := List.getLast?_eq_some_iff.mp hback
          rw [hlru, List.dropLast_concat]
          refine ⟨back, victim, rfl, hvictim, ?_, rfl, ?_, rfl⟩
          · simpa [CacheEntry.unreferenced] using hrefs
          · rw [length_view h]; exact hsize
  · exact nomatch he

/-- The eviction loop ends: there is room, or the oldest entry is referenced. -/
theorem evictOne_eq_none {c : Cache} (h : c.Allocated) (he : c.evictOne = none) :
    (c.view.length : Int) < c.maxSize ∨ c.view = [] ∨
      ∃ l en, c.view = l ++ [en] ∧ en.unreferenced = false := by
  unfold evictOne at he
  split at he
  · split at he
    · rename_i hback
      rw [List.getLast?_eq_none_iff] at hback
      exact Or.inr (Or.inl (by simp [view, hback]))
    · rename_i back hback
      obtain ⟨lru, hlru⟩ := List.getLast?_eq_some_iff.mp hback
      split at he
      · -- a list element without an entry
        rename_i hnone
        have hlt : back < c.heap.length := h.lru back (by rw [hlru]; simp)
        rw [List.getElem?_eq_getElem hlt] at hnone
        exact nomatch hnone
      · rename_i victim hvictim
        split at he
        -- the oldest entry is referenced
        · rename_i hrefs
          refine Or.inr (Or.inr ⟨lru.filterMap (c.heap[·]?), victim, ?_, ?_⟩)
          · simp [view, hlru, hvictim]
          · simpa [CacheEntry.unreferenced] using hrefs
        · exact nomatch he
  · rename_i hsize
    rw [length_view h]
    exact Or.inl (by omega)

/-- An iteration keeps what it does not evict. -/
theorem allocated_evictOne {c c' : Cache} {id : UInt32} (h : c.Allocated)
    (he : c.evictOne = some (c', id)) : c'.Allocated := by
  obtain ⟨back, en, hlru, -, -, -, -, hc'⟩ := evictOne_eq_some h he
  rw [hc']
  constructor
  · intro ref href
    exact h.lru ref (by rw [hlru]; exact List.mem_append_left _ href)
  · intro hash ref hb
    exact h.byHash hash ref (GoMap.getElem?_erase_eq_some.mp hb).2

theorem wf_evictOne {c c' : Cache} {id : UInt32} (h : c.WF)
    (he : c.evictOne = some (c', id)) : c'.WF := by
  obtain ⟨back, en, hlru, hen, -, -, -, hc'⟩ := evictOne_eq_some h.allocated he
  rw [hc']
  exact wf_dropOldest h hlru hen

theorem wf_evictLoop {c : Cache} (h : c.WF) (n : Nat) (acc : List UInt32) :
    (evictLoop n c acc).1.WF := by
  induction n generalizing c acc with
  | zero => exact h
  | succ n ih =>
    unfold evictLoop
    split
    · exact h
    · rename_i he
      exact ih (wf_evictOne h he) _

/-- With enough iterations the eviction loop removes exactly the victims, oldest first. -/
theorem evictLoop_spec {c : Cache} (h : c.Allocated) {n : Nat} (hn : c.view.length ≤ n)
    (acc : List UInt32) :
    (evictLoop n c acc).1.Allocated ∧
      (evictLoop n c acc).1.view = RecencyCache.keep c.maxSize c.view ∧
      (evictLoop n c acc).2 =
        acc ++ (RecencyCache.victims c.maxSize c.view).map CacheEntry.kittyImgID ∧
      (evictLoop n c acc).1.maxSize = c.maxSize := by
  induction n generalizing c acc with
  | zero =>
    -- no iterations left means no entries left
    have hnil : c.view = [] := List.length_eq_zero_iff.mp (by omega)
    simp [evictLoop, h, hnil, RecencyCache.keep, RecencyCache.victims, RecencyList.keep]
  | succ n ih =>
    unfold evictLoop
    split
    · rename_i he
      refine ⟨h, ?_⟩
      rcases evictOne_eq_none h he with hroom | hnil | ⟨l, en, hl, hen⟩
      · -- there is room already
        have hex : RecencyCache.excess c.maxSize c.view = 0 := by
          unfold RecencyCache.excess; omega
        simp [RecencyCache.keep, RecencyCache.victims, hex]
      · simp [hnil, RecencyCache.keep, RecencyCache.victims, RecencyList.keep]
      · -- the oldest entry is referenced
        simp only [RecencyCache.keep, RecencyCache.victims]
        cases hex : RecencyCache.excess c.maxSize c.view with
        | zero => simp
        | succ k => simp [hl, RecencyList.keep_concat, RecencyList.victims_concat, hen]
    · rename_i c' id he
      obtain ⟨back, en, hlru, hback, hen, rfl, hsize, hc'⟩ := evictOne_eq_some h he
      have hmax : c'.maxSize = c.maxSize := by rw [hc']
      have hview : c.view = c'.view ++ [en] := by
        have hheap : c'.heap = c.heap := by rw [hc']
        simp [view, hlru, hheap, hback]
      have hlen : c.view.length = c'.view.length + 1 := by rw [hview]; simp
      obtain ⟨halloc, hv, hout, hm⟩ :=
        ih (allocated_evictOne h he) (by omega) (acc ++ [en.kittyImgID])
      -- one victim fewer has to go from the smaller cache
      have hex : RecencyCache.excess c.maxSize c.view =
          RecencyCache.excess c.maxSize c'.view + 1 := by
        unfold RecencyCache.excess; omega
      refine ⟨halloc, ?_, ?_, hm.trans hmax⟩
      · rw [hv, hmax, RecencyCache.keep, RecencyCache.keep, hex, hview,
          RecencyList.keep_concat, if_pos hen]
      · rw [hout, hmax, RecencyCache.victims, RecencyCache.victims, hex, hview,
          RecencyList.victims_concat, if_pos hen, List.map_cons, List.append_assoc]
        rfl

/-- `Store`'s eviction loop. -/
theorem evict_spec {c : Cache} (h : c.Allocated) :
    c.evict.1.Allocated ∧ c.evict.1.view = RecencyCache.keep c.maxSize c.view ∧
      c.evict.2 = (RecencyCache.victims c.maxSize c.view).map CacheEntry.kittyImgID ∧
      c.evict.1.maxSize = c.maxSize :=
  evictLoop_spec h (by rw [length_view h]) []

theorem wf_evict {c : Cache} (h : c.WF) : c.evict.1.WF := wf_evictLoop h _ _

/-- A new entry, for a hash and an ID that are not in the cache. -/
theorem wf_insertNew {c : Cache} (h : c.WF) {hash : Hash} {id : UInt32} (hhash : hash ∉ c.byHash)
    (hid : id ∉ c.byID) : (c.insertNew hash id).WF := by
  -- old references keep their entries, and the new one is past them all
  have hheap : ∀ (ref : EntryRef) (en : CacheEntry), c.heap[ref]? = some en →
      (c.heap ++ [{ hash, kittyImgID := id, refCount := 1 }])[ref]? = some en :=
    fun _ _ => List.getElem?_concat_of_some _
  have hnew :
      (c.heap ++ [({ hash, kittyImgID := id, refCount := 1 } : CacheEntry)])[c.heap.length]? =
      some { hash, kittyImgID := id, refCount := 1 } := by simp
  refine ⟨?_, ?_, ?_, ?_⟩
  · refine List.nodup_cons.mpr ⟨fun hmem => ?_, h.nodup⟩
    exact absurd (h.allocated.lru _ hmem) (Nat.lt_irrefl _)
  · intro ref href
    rcases List.mem_cons.mp href with rfl | href
    · exact ⟨_, hnew, by simp [insertNew], by simp [insertNew]⟩
    · obtain ⟨en, hen, hh, hi⟩ := h.lruEntry ref href
      refine ⟨en, hheap ref en hen, ?_, ?_⟩
      · rw [insertNew, GoMap.getElem?_insert_ne _ _ ?_, hh]
        rintro rfl; exact hhash (GoMap.mem_of_getElem? hh)
      · rw [insertNew, GoMap.getElem?_insert_ne _ _ ?_, hi]
        rintro rfl; exact hid (GoMap.mem_of_getElem? hi)
  · intro hash' ref hb
    rcases GoMap.getElem?_insert_eq_some.mp hb with ⟨rfl, rfl⟩ | ⟨-, hb⟩
    · exact ⟨List.mem_cons_self, _, hnew, rfl⟩
    · obtain ⟨href, en, hen, rfl⟩ := h.byHashEntry _ _ hb
      exact ⟨List.mem_cons_of_mem _ href, en, hheap ref en hen, rfl⟩
  · intro id' ref hb
    rcases GoMap.getElem?_insert_eq_some.mp hb with ⟨rfl, rfl⟩ | ⟨-, hb⟩
    · exact ⟨List.mem_cons_self, _, hnew, rfl⟩
    · obtain ⟨href, en, hen, rfl⟩ := h.byIDEntry _ _ hb
      exact ⟨List.mem_cons_of_mem _ href, en, hheap ref en hen, rfl⟩

/-- A new entry is first in the view. -/
theorem view_insertNew {c : Cache} (h : c.Allocated) (hash : Hash) (id : UInt32) :
    (c.insertNew hash id).view = { hash, kittyImgID := id, refCount := 1 } :: c.view := by
  simp only [view, insertNew, List.filterMap_cons, List.getElem?_concat_length]
  congr 1
  refine List.filterMap_congr fun ref href => ?_
  rw [List.getElem?_append_left (h.lru ref href)]

/-! ### Store -/

/-- Storing what is known counts a reference and evicts nothing. -/
theorem store_hit {c : Cache} {hash128 : Data → Hash} {data : Data} {ref : EntryRef}
    (hb : c.byHash[hash128 data]? = some ref) (id : UInt32) :
    c.store hash128 data id = ((c.addRef ref 1).moveToFront ref, []) := by
  simp only [store, hb]

/-- Storing what is not known makes room first. -/
theorem store_miss {c : Cache} {hash128 : Data → Hash} {data : Data}
    (hb : c.byHash[hash128 data]? = none) (id : UInt32) :
    c.store hash128 data id = (c.evict.1.insertNew (hash128 data) id, c.evict.2) := by
  simp only [store, hb]

/-- `Store` keeps the structures in step, provided new data comes with an ID that is not in
    the cache. -/
theorem wf_store {c : Cache} (h : c.WF) (hash128 : Data → Hash) (data : Data) {id : UInt32}
    (hid : c.lookup hash128 data = none → id ∉ c.byID) : (c.store hash128 data id).1.WF := by
  cases hb : c.byHash[hash128 data]? with
  | some ref =>
    have href := (h.byHashEntry _ _ hb).1
    rw [store_hit hb]
    exact wf_moveToFront (wf_addRef h ref 1) href
  | none =>
    have hwf := wf_evict h
    have hview := (evict_spec h.allocated).2.1
    have hsub : ∀ en ∈ c.evict.1.view, en ∈ c.view := fun en hen =>
      (RecencyList.keep_sublist _ _ _).mem (hview ▸ hen)
    rw [store_miss hb]
    -- eviction only removes entries, so hash and ID are still unknown
    refine wf_insertNew hwf ?_ ?_
    · rw [hwf.mem_byHash]
      intro hx
      obtain ⟨en, hen, heq⟩ := hx
      have hmem := (h.mem_byHash _).mpr ⟨en, hsub en hen, heq⟩
      rw [Std.ExtTreeMap.mem_iff_isSome_getElem?, hb] at hmem
      exact nomatch hmem
    · rw [hwf.mem_byID]
      intro hx
      obtain ⟨en, hen, heq⟩ := hx
      exact hid (by simp [lookup, hb]) ((h.mem_byID id).mpr ⟨en, hsub en hen, heq⟩)

/-- `Store` is the abstract store on the list of entries, and evicts the same IDs. -/
theorem view_store {c : Cache} (h : c.WF) (hash128 : Data → Hash) (data : Data) (id : UInt32) :
    ((c.store hash128 data id).1.view, (c.store hash128 data id).2) =
      RecencyCache.store c.maxSize c.view (hash128 data) id := by
  rw [RecencyCache.store, h.find?_hash]
  cases hb : c.byHash[hash128 data]? with
  | some ref =>
    obtain ⟨href, en, hen, hh⟩ := h.byHashEntry _ _ hb
    have hwf := wf_addRef h ref 1
    have hen' : (c.addRef ref 1).heap[ref]? = some (en.addRef 1) := by
      rw [heap_addRef, hen, Option.map_some, if_pos rfl]
    rw [store_hit hb, Option.bind_some, hen, view_moveToFront hwf href hen',
      CacheEntry.addRef_hash, hh, view_addRef h (h.maps_of_mem href hen).2, List.filter_map]
    congr 2
    -- the entry that gained a reference is the one filtered out
    conv_rhs => rw [← List.map_id' (List.filter _ c.view)]
    have hfilter : c.view.filter ((fun en' => en'.hash != hash128 data) ∘ fun en' =>
        if en'.kittyImgID = en.kittyImgID then en'.addRef 1 else en') =
        c.view.filter fun en' => en'.hash != hash128 data := by
      refine List.filter_congr fun en' _ => ?_
      rw [Function.comp_apply]; split <;> rfl
    rw [hfilter]
    refine List.map_congr_left fun en' hen' => if_neg fun heq => ?_
    obtain ⟨hmem, hne⟩ := List.mem_filter.mp hen'
    rw [h.eq_of_id_eq hmem (mem_view.mpr ⟨ref, href, hen⟩) heq, hh] at hne
    simp at hne
  | none =>
    obtain ⟨halloc, hview, hout, -⟩ := evict_spec h.allocated
    simp [store_miss hb, view_insertNew halloc, hview, hout]

/-- A hit stores no new ID. -/
theorem byID_store_hit {c : Cache} {hash128 : Data → Hash} {data : Data} {id : UInt32}
    (hlookup : c.lookup hash128 data = some id) (id' : UInt32) :
    (c.store hash128 data id').1.byID = c.byID := by
  unfold lookup at hlookup
  split at hlookup
  · rename_i ref hb
    rw [store_hit hb]; rfl
  · exact nomatch hlookup

theorem byID_release (c : Cache) (id : UInt32) : (c.release id).byID = c.byID := by
  unfold release; split <;> rfl

/-- What a lookup finds is an image of the cache. -/
theorem mem_byID_of_lookup {c : Cache} (h : c.WF) {hash128 : Data → Hash} {data : Data}
    {id : UInt32} (hlookup : c.lookup hash128 data = some id) : id ∈ c.byID := by
  rw [lookup_eq h, RecencyCache.lookup, Option.map_eq_some_iff] at hlookup
  obtain ⟨en, hfind, rfl⟩ := hlookup
  exact (h.mem_byID _).mpr ⟨en, List.mem_of_find?_eq_some hfind, rfl⟩

theorem maxSize_store {c : Cache} (h : c.Allocated) (hash128 : Data → Hash) (data : Data)
    (id : UInt32) : (c.store hash128 data id).1.maxSize = c.maxSize := by
  cases hb : c.byHash[hash128 data]? with
  | some ref => rw [store_hit hb]; rfl
  | none => rw [store_miss hb]; exact (evict_spec h).2.2.2

theorem maxSize_release (c : Cache) (id : UInt32) : (c.release id).maxSize = c.maxSize := by
  unfold release; split <;> rfl

end Cache

end Kgd
