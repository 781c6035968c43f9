import Kgd.ForStd.Run
import Kgd.Spec.CacheRefinement

/-!
# Every run of the upload cache is a run of a recency list

`RecencyCache.Step` says what each call does to a list of entries, most recently stored first,
in terms of that list alone. Any sequence of `Lookup`, `Store` and `Release` calls on a new
`Cache` is a sequence of these steps on `Cache.view`, for every capacity, also none.

## Key results

- `Cache.step_view`: one call is one step of the list
- `Cache.refines_recencyList`: a run of calls is a run of the list
-/

namespace Kgd

namespace Cache

/-- A call of the cache. -/
inductive Call
  | lookup (data : Data)
  | store (data : Data) (kittyImgID : UInt32)
  | release (kittyImgID : UInt32)
deriving DecidableEq

/-- What a call returns. -/
inductive Result
  | found (id : Option UInt32)
  | evicted (ids : List UInt32)
  | done
deriving DecidableEq

section Hashing
variable (hash128 : Data → Hash)

/-- The cache after a call, and what the call returns. -/
def call (c : Cache) : Call → Cache × Result
  | .lookup data => (c, .found (c.lookup hash128 data))
  | .store data id =>
    let (c', ids) := c.store hash128 data id
    (c', .evicted ids)
  | .release id => (c.release id, .done)

/-- The step relation of `call`. -/
def CallStep (c : Cache) (a : Call × Result) (c' : Cache) : Prop := c.call hash128 a.1 = (c', a.2)

/-- A `Store` of new data comes with an ID that is not in the cache. -/
def Fresh (c : Cache) : Call → Prop
  | .store data id => c.lookup hash128 data = none → id ∉ c.byID
  | _ => True

instance (c : Cache) (call : Call) : Decidable (c.Fresh hash128 call) :=
  match call with
  | .store _ _ => inferInstanceAs (Decidable (_ → _))
  | .lookup _ | .release _ => inferInstanceAs (Decidable True)

end Hashing

end Cache

/-! ## The recency list -/

namespace RecencyCache

/-- What a call does to a list of entries, most recently stored first, and what it returns. -/
inductive Step (hash128 : Data → Hash) (maxSize : Int) :
    List CacheEntry → Cache.Call × Cache.Result → List CacheEntry → Prop
  | lookupKnown {l : List CacheEntry} {en : CacheEntry} {data : Data} (hmem : en ∈ l)
      (hhash : en.hash = hash128 data) :
      Step hash128 maxSize l (.lookup data, .found (some en.kittyImgID)) l
  | lookupUnknown {l : List CacheEntry} {data : Data} (hnew : ∀ en ∈ l, en.hash ≠ hash128 data) :
      Step hash128 maxSize l (.lookup data, .found none) l
  | storeKnown {newer older : List CacheEntry} {en : CacheEntry} {data : Data} {id : UInt32}
      (hhash : en.hash = hash128 data) :
      Step hash128 maxSize (newer ++ en :: older) (.store data id, .evicted [])
        ({ en with refCount := en.refCount + 1 } :: (newer ++ older))
  /-- `gone` is the longest run of unreferenced entries at the old end, oldest first, of which
      each has to go: `maxSize` is reached with it. -/
  | storeNew {stay gone : List CacheEntry} {data : Data} {id : UInt32}
      (hnew : ∀ en ∈ stay ++ gone.reverse, en.hash ≠ hash128 data)
      (hunref : ∀ en ∈ gone, en.refCount ≤ 0)
      (hneeded : gone ≠ [] → maxSize ≤ stay.length + 1)
      (hlongest : maxSize ≤ stay.length → ∀ en ∈ stay.getLast?, 0 < en.refCount)
      (hnodup : (gone.map CacheEntry.kittyImgID).Nodup) :
      Step hash128 maxSize (stay ++ gone.reverse)
        (.store data id, .evicted (gone.map CacheEntry.kittyImgID))
        ({ hash := hash128 data, kittyImgID := id, refCount := 1 } :: stay)
  | release {l : List CacheEntry} {id : UInt32} :
      Step hash128 maxSize l (.release id, .done)
        (l.map fun en =>
          if en.kittyImgID = id then { en with refCount := en.refCount - 1 } else en)

/-- The hashes of the data stored by some calls, each once, most recently stored first. -/
def recency (hash128 : Data → Hash) (calls : List Cache.Call) : List Hash :=
  calls.foldl (fun hashes call =>
    match call with
    | .store data _ => hash128 data :: hashes.filter (· != hash128 data)
    | _ => hashes) []

end RecencyCache

namespace Cache

open RecencyCache (Step recency)

variable {hash128 : Data → Hash} {maxSize : Int} {c c' : Cache}

/-! ## One call -/

/-- No two entries have one hash. -/
theorem WF.nodup_hashes (h : c.WF) : (c.view.map CacheEntry.hash).Nodup :=
  h.nodup_view.map_on fun _ hen _ hen' heq => h.eq_of_hash_eq hen hen' heq

/-- What stays, what goes, and why no entry more or less goes. -/
theorem step_storeNew (h : c.WF) {data : Data} (hnew : ∀ en ∈ c.view, en.hash ≠ hash128 data)
    (id : UInt32) :
    Step hash128 c.maxSize c.view
      (.store data id,
        .evicted ((RecencyCache.victims c.maxSize c.view).map CacheEntry.kittyImgID))
      ({ hash := hash128 data, kittyImgID := id, refCount := 1 } ::
        RecencyCache.keep c.maxSize c.view) := by
  have hview : RecencyCache.keep c.maxSize c.view ++
      (RecencyCache.victims c.maxSize c.view).reverse = c.view :=
    RecencyList.keep_append_victims _ _ _
  have hlength : (RecencyCache.keep c.maxSize c.view).length +
      (RecencyCache.victims c.maxSize c.view).length = c.view.length :=
    RecencyList.length_keep_add _ _ _
  have hbound : (RecencyCache.victims c.maxSize c.view).length ≤
      RecencyCache.excess c.maxSize c.view := RecencyList.length_victims_le_bound _ _ _
  have hgone : ∀ en ∈ RecencyCache.victims c.maxSize c.view, en ∈ c.view := by
    intro en hen
    exact (RecencyList.mem_iff_keep_or_victims _ _ _ en).mpr (Or.inr hen)
  have hstep : Step hash128 c.maxSize (RecencyCache.keep c.maxSize c.view ++
      (RecencyCache.victims c.maxSize c.view).reverse)
      (.store data id,
        .evicted ((RecencyCache.victims c.maxSize c.view).map CacheEntry.kittyImgID))
      ({ hash := hash128 data, kittyImgID := id, refCount := 1 } ::
        RecencyCache.keep c.maxSize c.view) := by
    -- what goes is unreferenced and no more than the excess, and what stays cannot go
    apply Step.storeNew
    · rw [hview]
      exact hnew
    · intro en hen
      simpa [CacheEntry.unreferenced] using RecencyList.unref_of_mem_victims _ hen
    · intro hne
      have hpos := List.length_pos_iff.mpr hne
      unfold RecencyCache.excess at hbound
      omega
    · intro hfull en hen
      have hfew : (RecencyCache.victims c.maxSize c.view).length <
          RecencyCache.excess c.maxSize c.view := by
        unfold RecencyCache.excess
        omega
      simpa [CacheEntry.unreferenced] using RecencyList.unref_getLast?_keep _ hfew en hen
    · have hnodup := h.nodup_view
      rw [← hview, List.nodup_append, List.nodup_reverse] at hnodup
      apply hnodup.2.1.map_on
      intro en hen en' hen' heq
      exact h.eq_of_id_eq (hgone en hen) (hgone en' hen') heq
  rwa [hview] at hstep

/-- A known entry moves to the front with one reference more. -/
theorem step_storeKnown (h : c.WF) {data : Data} {en : CacheEntry} (hen : en ∈ c.view)
    (hhash : en.hash = hash128 data) (id : UInt32) :
    Step hash128 c.maxSize c.view (.store data id, .evicted [])
      (en.addRef 1 :: c.view.filter fun en' => en'.hash != hash128 data) := by
  obtain ⟨newer, older, hview⟩ := List.append_of_mem hen
  have hnodup := h.nodup_hashes
  rw [hview] at hnodup ⊢
  rw [← hhash, List.filter_bne_of_nodup_map hnodup]
  exact Step.storeKnown hhash

/-- One call is one step of the recency list. -/
theorem step_view (h : c.WF) {a : Call × Result} (hs : CallStep hash128 c a c') :
    Step hash128 c.maxSize c.view a c'.view := by
  obtain ⟨op, r⟩ := a
  cases op with
  | lookup data =>
    obtain ⟨rfl, rfl⟩ := Prod.mk.inj hs
    show Step _ _ _ (_, .found (c.lookup hash128 data)) _
    rw [lookup_eq h, RecencyCache.lookup]
    -- a search by hash decides, as the map of the source does
    cases hfind : c.view.find? fun en => en.hash == hash128 data with
    | none => exact Step.lookupUnknown (by simpa using hfind)
    | some en =>
      exact Step.lookupKnown (List.mem_of_find?_eq_some hfind)
        (by simpa using List.find?_some hfind)
  | store data id =>
    obtain ⟨rfl, rfl⟩ := Prod.mk.inj hs
    obtain ⟨hview, hids⟩ := Prod.mk.inj (view_store h hash128 data id)
    show Step _ _ _ (_, .evicted (c.store hash128 data id).2) (c.store hash128 data id).1.view
    rw [hview, hids]
    cases hfind : c.view.find? fun en => en.hash == hash128 data with
    | none => exact step_storeNew h (by simpa using hfind) id
    | some en =>
      exact step_storeKnown h (List.mem_of_find?_eq_some hfind)
        (by simpa using List.find?_some hfind) id
  | release id =>
    obtain ⟨rfl, rfl⟩ := Prod.mk.inj hs
    show Step _ _ _ _ (c.release id).view
    rw [view_release h]
    exact Step.release

/-- A call with a fresh image ID keeps the cache well formed, and its capacity. -/
theorem wf_call (h : c.WF) {a : Call × Result} (hfresh : c.Fresh hash128 a.1)
    (hs : CallStep hash128 c a c') : c'.WF ∧ c'.maxSize = c.maxSize := by
  obtain ⟨op, r⟩ := a
  cases op with
  | lookup data =>
    obtain ⟨rfl, rfl⟩ := Prod.mk.inj hs
    exact ⟨h, rfl⟩
  -- only a store asks for a fresh ID
  | store data id =>
    obtain ⟨rfl, rfl⟩ := Prod.mk.inj hs
    exact ⟨wf_store h hash128 data hfresh, maxSize_store h.allocated hash128 data id⟩
  | release id =>
    obtain ⟨rfl, rfl⟩ := Prod.mk.inj hs
    exact ⟨wf_release h id, maxSize_release c id⟩

end Cache

/-! ## What the list keeps -/

namespace RecencyCache

variable {hash128 : Data → Hash} {maxSize : Int} {l l' : List CacheEntry}
  {a : Cache.Call × Cache.Result}

/-- No step removes a referenced entry. -/
theorem Step.referenced_stays (h : Step hash128 maxSize l a l') {en : CacheEntry} (hen : en ∈ l)
    (href : 0 < en.refCount) :
    ∃ en' ∈ l', en'.hash = en.hash ∧ en'.kittyImgID = en.kittyImgID := by
  cases h with
  | lookupKnown | lookupUnknown => exact ⟨en, hen, rfl, rfl⟩
  | @storeKnown newer older known _ _ hhash =>
    simp only [List.mem_append, List.mem_cons] at hen
    rcases hen with hen | rfl | hen
    · exact ⟨en, by simp [hen], rfl, rfl⟩
    · exact ⟨_, List.mem_cons_self, rfl, rfl⟩
    · exact ⟨en, by simp [hen], rfl, rfl⟩
  | @storeNew stay gone _ _ _ hunref =>
    rcases List.mem_append.mp hen with hen | hen
    · exact ⟨en, List.mem_cons_of_mem _ hen, rfl, rfl⟩
    -- what goes is not referenced
    · have hle := hunref en (List.mem_reverse.mp hen)
      omega
  | @release _ id =>
    refine ⟨_, List.mem_map_of_mem hen, ?_⟩
    split <;> exact ⟨rfl, rfl⟩

/-- Releasing an image leaves the hashes. -/
@[simp] theorem map_hash_release (id : UInt32) :
    (l.map fun en => if en.kittyImgID = id then { en with refCount := en.refCount - 1 }
      else en).map CacheEntry.hash = l.map CacheEntry.hash := by
  rw [List.map_map]
  apply List.map_congr_left
  intro en _
  rw [Function.comp_apply]
  split <;> rfl

/-- No step makes two entries of one hash. -/
theorem Step.nodup_hashes (h : Step hash128 maxSize l a l')
    (hnodup : (l.map CacheEntry.hash).Nodup) : (l'.map CacheEntry.hash).Nodup := by
  cases h with
  | lookupKnown | lookupUnknown => exact hnodup
  | @storeKnown newer older en =>
    -- the entry only moves to the front
    have hperm : (newer ++ en :: older).Perm (en :: (newer ++ older)) := List.perm_middle
    exact ((hperm.map CacheEntry.hash).nodup_iff).mp hnodup
  | @storeNew stay gone data _ hnew =>
    rw [List.map_append] at hnodup
    rw [List.map_cons, List.nodup_cons]
    -- what stays is part of the list before, and the new hash was not in it
    refine ⟨fun hmem => ?_, (List.sublist_append_left _ _).nodup hnodup⟩
    obtain ⟨en, hen, heq⟩ := List.mem_map.mp hmem
    exact hnew en (List.mem_append_left _ hen) heq
  | release =>
    rw [map_hash_release]
    exact hnodup

/-- The hashes in the list stay those stored most recently, in this order. -/
theorem Step.recency_sublist (h : Step hash128 maxSize l a l') {calls : List Cache.Call}
    (hnodup : (l.map CacheEntry.hash).Nodup)
    (hl : (l.map CacheEntry.hash).Sublist (recency hash128 calls)) :
    (l'.map CacheEntry.hash).Sublist (recency hash128 (calls ++ [a.1])) := by
  rw [recency, List.foldl_append, ← recency]
  cases h with
  | lookupKnown | lookupUnknown => exact hl
  | @storeKnown newer older en data _ hhash =>
    show (en.hash :: (newer ++ older).map CacheEntry.hash).Sublist
      (hash128 data :: (recency hash128 calls).filter (· != hash128 data))
    -- the entry's own hash is gone from both
    have hfilter := hl.filter (· != en.hash)
    have hrest : (newer ++ en :: older).filter ((· != en.hash) ∘ CacheEntry.hash) =
        newer ++ older := List.filter_bne_of_nodup_map hnodup
    rw [List.filter_map, hrest] at hfilter
    rw [← hhash]
    exact hfilter.cons_cons _
  | @storeNew stay gone data _ hnew =>
    show (hash128 data :: stay.map CacheEntry.hash).Sublist
      (hash128 data :: (recency hash128 calls).filter (· != hash128 data))
    have hstay : (stay.map CacheEntry.hash).filter (· != hash128 data) =
        stay.map CacheEntry.hash := by
      rw [List.filter_eq_self]
      intro hash hmem
      obtain ⟨en, hen, rfl⟩ := List.mem_map.mp hmem
      exact bne_iff_ne.mpr (hnew en (List.mem_append_left _ hen))
    rw [List.map_append] at hl
    have hfilter := ((List.sublist_append_left _ _).trans hl).filter (· != hash128 data)
    rw [hstay] at hfilter
    exact hfilter.cons_cons _
  | release =>
    rw [map_hash_release]
    exact hl

/-- In every run of the list, no two entries have one hash, and they are in the order of their
    most recent `Store`. -/
theorem recency_of_run {tr : List (Transition (List CacheEntry) (Cache.Call × Cache.Result))}
    (h : Run (Step hash128 maxSize) [] tr l) :
    (l.map CacheEntry.hash).Nodup ∧
      (l.map CacheEntry.hash).Sublist (recency hash128 (tr.map fun t => t.label.1)) := by
  induction h with
  | nil => exact ⟨List.nodup_nil, List.Sublist.refl _⟩
  | snoc _ hs ih =>
    obtain ⟨hnodup, hl⟩ := ih
    rw [List.map_append]
    exact ⟨hs.nodup_hashes hnodup, hs.recency_sublist hnodup hl⟩

end RecencyCache

/-! ## Runs -/

namespace Cache

variable {hash128 : Data → Hash} {maxSize : Int} {c : Cache}
  {tr : List (Transition Cache (Call × Result))}

/-- In every sequence of calls on a new cache, of any capacity, in which a `Store` of new data
    comes with an ID that is not in the cache, the maps and the list hold the same entries,
    every call does to these what it does to a recency list, no referenced entry is removed, and
    the entries are in the order of their most recent `Store`. -/
theorem refines_recencyList (h : Run (CallStep hash128) (new maxSize) tr c)
    (hfresh : ∀ t ∈ tr, t.pre.Fresh hash128 t.label.1) :
    c.WF ∧
      Run (RecencyCache.Step hash128 maxSize) []
        (tr.map fun t => ⟨t.pre.view, t.label, t.post.view⟩) c.view ∧
      (∀ t ∈ tr, ∀ en ∈ t.pre.view, 0 < en.refCount →
        ∃ en' ∈ t.post.view, en'.hash = en.hash ∧ en'.kittyImgID = en.kittyImgID) ∧
      (c.view.map CacheEntry.hash).Sublist
        (RecencyCache.recency hash128 (tr.map fun t => t.label.1)) := by
  -- one call of the cache is one step of the list
  have hsim : ∀ (c : Cache) (a : Call × Result) (c' : Cache), c.WF ∧ c.maxSize = maxSize →
      CallStep hash128 c a c' ∧ c.Fresh hash128 a.1 →
      (c'.WF ∧ c'.maxSize = maxSize) ∧ RecencyCache.Step hash128 maxSize c.view a c'.view := by
    intro c a c' hI hx
    obtain ⟨hwf, rfl⟩ := hI
    obtain ⟨hs, hfresh⟩ := hx
    exact ⟨wf_call hwf hfresh hs, step_view hwf hs⟩
  obtain ⟨⟨hwf, -⟩, hrun⟩ := Run.simulate ⟨wf_new maxSize, rfl⟩ hsim (h.restrict hfresh)
  refine ⟨hwf, hrun, ?_, ?_⟩
  · intro t ht en hen href
    obtain ⟨_, _, -, -, hs⟩ := hrun.exists_split (List.mem_map_of_mem ht)
    exact hs.referenced_stays hen href
  · have hl := (RecencyCache.recency_of_run hrun).2
    rwa [List.map_map] at hl

/-- A hash of data for an example. -/
private def firstByte (data : Data) : Hash := .ofNat 128 (data.headD 0).toNat

private theorem run_call (h : Run (CallStep firstByte) (new 1) tr c) (op : Call) :
    Run (CallStep firstByte) (new 1)
      (tr ++ [⟨c, (op, (c.call firstByte op).2), (c.call firstByte op).1⟩])
      (c.call firstByte op).1 := h.snoc rfl

/-- A cache of one: the image in use stays, the one that was freed goes. -/
theorem refines_recencyList_evicts :
    ∃ tr c, Run (CallStep firstByte) (new 1) tr c ∧
      tr.map Transition.label =
        [(.store [1] 1, .evicted []), (.release 1, .done), (.store [2] 2, .evicted [1]),
          (.store [3] 3, .evicted []), (.lookup [1], .found none)] ∧
      c.WF ∧ c.view = [⟨firstByte [3], 3, 1⟩, ⟨firstByte [2], 2, 1⟩] := by
  have hstored := run_call (run_call .nil (.store [1] 1)) (.release 1)
  have hrun := run_call (run_call (run_call hstored (.store [2] 2)) (.store [3] 3)) (.lookup [1])
  exact ⟨_, _, hrun, rfl, (refines_recencyList hrun (by decide)).1, by decide⟩

end Cache

end Kgd
