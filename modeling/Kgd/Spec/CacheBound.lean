import Kgd.Spec.ImageAccounting

/-!
# How far the upload cache grows

`Store` makes room from the old end of the list and stops at the first referenced entry. The
comment there says that the cache grows because all entries are in use, but only the oldest one
is known to be: unreferenced entries in front of it stay, however many there are.

## Key results

- `Cache.bounded_iff`: storing new data leaves the cache within its capacity or full of
  referenced entries exactly when eviction meets no referenced entry too early
- `Cache.bounded_fails`: one image in use at the old end keeps a freed one cached
- `Engine.cacheRun_of_step`: what the engine does with the cache is a run of `Cache.Step`
-/

namespace Kgd

namespace Cache

/-- A call that changes the cache. -/
inductive Op
  | store (data : Data) (kittyImgID : UInt32)
  | release (kittyImgID : UInt32)
deriving DecidableEq, Repr

/-- The cache after a call. -/
def next (hash128 : Data → Hash) (c : Cache) : Op → Cache
  | .store data kittyImgID => (c.store hash128 data kittyImgID).1
  | .release kittyImgID => c.release kittyImgID

/-- The step relation of `next`. -/
def Step (hash128 : Data → Hash) (c : Cache) (op : Op) (c' : Cache) : Prop :=
  c.next hash128 op = c'

/-- The cache is within its capacity, or all its entries are referenced. -/
def Bounded (c : Cache) : Prop :=
  (c.view.length : Int) ≤ c.maxSize ∨ ∀ en ∈ c.view, 0 < en.refCount

/-- The entries that have to go to make room are all unreferenced, or no unreferenced entry
    is more recent than a referenced one. -/
def EvictsEnough (c : Cache) : Prop :=
  (∀ en ∈ RecencyList.oldest (RecencyCache.excess c.maxSize c.view) c.view, en.refCount ≤ 0) ∨
    c.view.Pairwise fun newer older => newer.refCount ≤ 0 → older.refCount ≤ 0

variable {hash128 : Data → Hash} {maxSize : Int} {c c' : Cache} {op : Op}

theorem unreferenced_eq_true {en : CacheEntry} : en.unreferenced = true ↔ en.refCount ≤ 0 := by
  simp [CacheEntry.unreferenced]

theorem unreferenced_eq_false {en : CacheEntry} : en.unreferenced = false ↔ 0 < en.refCount := by
  simp [CacheEntry.unreferenced]

/-- The same in terms of what the eviction loop tests. -/
theorem evictsEnough_iff :
    c.EvictsEnough ↔
      (∀ en ∈ RecencyList.oldest (RecencyCache.excess c.maxSize c.view) c.view,
        en.unreferenced = true) ∨
      c.view.Pairwise fun newer older => newer.unreferenced = true → older.unreferenced = true := by
  simp only [EvictsEnough, unreferenced_eq_true]

/-! ## One call -/

theorem allocated_addRef (h : c.Allocated) (ref : EntryRef) (d : Int) :
    (c.addRef ref d).Allocated := by
  have hlength : (c.addRef ref d).heap.length = c.heap.length := List.length_modify ..
  constructor
  · intro ref' href'
    rw [hlength]
    exact h.lru ref' href'
  · intro hash ref' hb
    rw [hlength]
    exact h.byHash hash ref' hb

theorem allocated_insertNew (h : c.Allocated) (hash : Hash) (id : UInt32) :
    (c.insertNew hash id).Allocated := by
  have hlength : (c.insertNew hash id).heap.length = c.heap.length + 1 := by simp [insertNew]
  constructor
  · intro ref href
    rw [hlength]
    rcases List.mem_cons.mp href with rfl | href
    · exact Nat.lt_succ_self _
    · exact Nat.lt_succ_of_lt (h.lru ref href)
  · intro hash' ref hb
    rw [hlength]
    rcases GoMap.getElem?_insert_eq_some.mp hb with ⟨-, rfl⟩ | ⟨-, hb⟩
    · exact Nat.lt_succ_self _
    · exact Nat.lt_succ_of_lt (h.byHash hash' ref hb)

theorem allocated_next (h : c.Allocated) : (c.next hash128 op).Allocated := by
  cases op with
  | store data id =>
    show (c.store hash128 data id).1.Allocated
    cases hb : c.byHash[hash128 data]? with
    | some ref =>
      rw [store_hit hb]
      have hadd := allocated_addRef h ref 1
      refine ⟨fun ref' href' => ?_, hadd.byHash⟩
      -- the reference that moves to the front is the one that was found
      rcases List.mem_cons.mp href' with rfl | href'
      · exact hadd.byHash _ _ hb
      · exact hadd.lru ref' (List.mem_of_mem_erase href')
    | none =>
      rw [store_miss hb]
      exact allocated_insertNew (evict_spec h).1 _ _
  | release id =>
    show (c.release id).Allocated
    unfold release
    split
    · exact allocated_addRef h _ _
    · exact h

theorem maxSize_next (h : c.Allocated) : (c.next hash128 op).maxSize = c.maxSize := by
  cases op with
  | store data id => exact maxSize_store h hash128 data id
  | release id => exact maxSize_release c id

/-- What storing new data leaves is bounded exactly when it evicts enough. -/
theorem bounded_store_iff (h : c.Allocated) (hsize : 1 ≤ c.maxSize) {data : Data}
    (hnew : c.byHash[hash128 data]? = none) (id : UInt32) :
    (c.store hash128 data id).1.Bounded ↔ c.EvictsEnough := by
  obtain ⟨halloc, hkeep, -, hmax⟩ := evict_spec h
  have hview : (c.store hash128 data id).1.view =
      { hash := hash128 data, kittyImgID := id, refCount := 1 } ::
        RecencyCache.keep c.maxSize c.view := by
    rw [store_miss hnew, view_insertNew halloc, hkeep]
  have hlength := RecencyList.length_keep_add CacheEntry.unreferenced
    (RecencyCache.excess c.maxSize c.view) c.view
  have hbound := RecencyList.length_victims_le_bound CacheEntry.unreferenced
    (RecencyCache.excess c.maxSize c.view) c.view
  have hexcess : RecencyCache.excess c.maxSize c.view ≤ c.view.length := by
    unfold RecencyCache.excess
    omega
  rw [Bounded, maxSize_store h, hview, List.length_cons, List.forall_mem_cons, evictsEnough_iff,
    ← RecencyList.length_victims_eq_iff CacheEntry.unreferenced hexcess]
  -- the capacity is kept exactly when as many entries go as have to
  have hroom : (((RecencyCache.keep c.maxSize c.view).length + 1 : Nat) : Int) ≤ c.maxSize ↔
      (RecencyList.victims CacheEntry.unreferenced (RecencyCache.excess c.maxSize c.view)
        c.view).length = RecencyCache.excess c.maxSize c.view := by
    unfold RecencyCache.keep
    unfold RecencyCache.excess at hlength hbound ⊢
    omega
  rw [hroom]
  by_cases hall : (RecencyList.victims CacheEntry.unreferenced
      (RecencyCache.excess c.maxSize c.view) c.view).length =
        RecencyCache.excess c.maxSize c.view
  · simp only [hall, true_or]
  · have hstop := mt (RecencyList.length_victims_eq_iff CacheEntry.unreferenced hexcess).mpr hall
    rw [← RecencyList.keep_referenced_iff CacheEntry.unreferenced hstop]
    simp only [hall, false_or, unreferenced_eq_false, RecencyCache.keep]
    exact ⟨fun hx => hx.2, fun hx => ⟨by decide, hx⟩⟩

/-! ## Runs -/

theorem allocated_new : (new maxSize).Allocated := (wf_new maxSize).allocated

theorem allocated_of_run {tr : List (Transition Cache Op)}
    (h : Run (Step hash128) (new maxSize) tr c) : c.Allocated ∧ c.maxSize = maxSize := by
  refine h.invariant (I := fun c => c.Allocated ∧ c.maxSize = maxSize) ⟨allocated_new, rfl⟩ ?_
  intro c op c' hc hs
  obtain ⟨halloc, hsize⟩ := hc
  rw [← hs]
  exact ⟨allocated_next halloc, (maxSize_next halloc).trans hsize⟩

/-- In every sequence of calls, after storing new data the cache is within its capacity or all
    its entries are referenced exactly when the entries that had to go were all unreferenced,
    or no unreferenced entry was more recent than a referenced one. -/
theorem bounded_iff (hsize : 1 ≤ maxSize) {tr : List (Transition Cache Op)}
    (h : Run (Step hash128) (new maxSize) tr c) :
    ∀ t ∈ tr, ∀ data id, t.label = .store data id → t.pre.byHash[hash128 data]? = none →
      (t.post.Bounded ↔ t.pre.EvictsEnough) := by
  intro t ht data id hlabel hnew
  obtain ⟨tr₁, tr₂, -, hrun, hs⟩ := h.exists_split ht
  obtain ⟨halloc, hmax⟩ := allocated_of_run hrun
  have hpost : t.post = (t.pre.store hash128 data id).1 := by
    rw [Step, hlabel] at hs
    exact hs.symm
  rw [hpost]
  exact bounded_store_iff halloc (hmax ▸ hsize) hnew id

/-- The run of a list of calls. -/
theorem run_of_ops (hash128 : Data → Hash) (c : Cache) (ops : List Op)
    (h : (Run.follow (fun c op => some (c.next hash128 op)) c ops).isSome) :
    Run (Step hash128) c ((Run.follow (fun c op => some (c.next hash128 op)) c ops).get h).1
      ((Run.follow (fun c op => some (c.next hash128 op)) c ops).get h).2 :=
  (Run.of_follow _ c ops h).mono fun _ _ _ => Option.some.inj

/-- A full cache of two evicts an unreferenced image for a third. -/
theorem bounded_iff_evicts :
    ∃ tr t c, Run (Step Script.firstByte) (new 2) (tr ++ [t]) c ∧ t.label = .store [3] 3 ∧
      (t.post.Bounded ↔ t.pre.EvictsEnough) := by
  have hrun := (run_of_ops Script.firstByte (new 2)
    [.store [1] 1, .release 1, .store [2] 2] (by decide)).snoc (a := .store [3] 3) rfl
  exact ⟨_, _, _, hrun, rfl, bounded_iff (by decide) hrun _ (by simp) [3] 3 rfl rfl⟩

/-- Two images are stored, the second one is freed, a third is stored: the first one, which is
    in use and the oldest, keeps the second one in a cache of one. -/
theorem bounded_fails :
    ∃ tr t c, Run (Step Script.firstByte) (new 1) (tr ++ [t]) c ∧
      tr.map Transition.label = [.store [1] 1, .store [2] 2, .release 2] ∧
      t.label = .store [3] 3 ∧ t.pre.byHash[Script.firstByte [3]]? = none ∧ ¬ t.post.Bounded := by
  have hrun := (run_of_ops Script.firstByte (new 1)
    [.store [1] 1, .store [2] 2, .release 2] (by decide)).snoc (a := .store [3] 3) rfl
  refine ⟨_, _, _, hrun, rfl, rfl, rfl, fun h => ?_⟩
  rcases h with hsize | hrefs
  · exact absurd hsize (by decide)
  · have hfreed := hrefs ⟨Script.firstByte [2], 2, 0⟩ (by decide)
    exact absurd hfreed (by decide)

end Cache

namespace Engine

/-! ## The engine's calls -/

/-- Releasing images one after another is a run of calls. -/
theorem cacheRun_releaseAll (hash128 : Data → Hash) (cache : Cache)
    (images : List (UInt32 × UInt32)) :
    ∃ tr, Run (Cache.Step hash128) cache tr (releaseAll cache images) := by
  induction images generalizing cache with
  | nil => exact ⟨[], .nil⟩
  | cons image images ih =>
    obtain ⟨tr, htr⟩ := ih (cache.release image.2)
    exact ⟨_, htr.cons (a := Cache.Op.release image.2) rfl⟩

/-- Everything the engine does to the cache while it handles one input is a sequence of `Store`
    and `Release` calls. -/
theorem cacheRun_of_step {hash128 : Data → Hash} {env : Env} {e e' : Engine} {input : Input}
    {out : List Action} (h : ImageStep hash128 env e input out e') :
    ∃ tr, Run (Cache.Step hash128) e.cache tr e'.cache := by
  cases h with
  | quiet _ _ _ hcache => exact ⟨[], hcache ▸ .nil⟩
  | @hit c params kittyID =>
    exact ⟨_, Run.nil.snoc (a := Cache.Op.store params.data kittyID) rfl⟩
  | refused => exact ⟨[], .nil⟩
  | @miss c params e₁ _ _ _ _ hevict =>
    -- what is done about the evicted images does not touch the cache
    have hcache : e₁.cache = (e.cache.store hash128 params.data e.idAlloc.next).1 := by
      have hfst := congrArg Prod.fst hevict
      rw [freeEvicted_fst] at hfst
      exact (congrArg Engine.cache hfst).symm
    exact ⟨_, Run.nil.snoc (a := Cache.Op.store params.data e.idAlloc.next) hcache.symm⟩
  | @free _ _ kittyID => exact ⟨_, Run.nil.snoc (a := Cache.Op.release kittyID) rfl⟩
  | disconnect hcache => exact hcache ▸ cacheRun_releaseAll hash128 e.cache _

/-- The cache of a running engine is one that a sequence of calls leads to. -/
theorem cacheRun_of_runs {hash128 : Data → Hash} {gfx notifier stopFunc inTmux : Bool}
    {maxSize : Int} {tr : List (Transition World Label)} {w : World}
    (h : World.Runs hash128 (Engine.new gfx notifier stopFunc inTmux maxSize) tr w) :
    ∃ ops, Run (Cache.Step hash128) (Cache.new maxSize) ops w.engine.cache := by
  refine h.invariant (I := fun w =>
    ∃ ops, Run (Cache.Step hash128) (Cache.new maxSize) ops w.engine.cache) ⟨[], .nil⟩ ?_
  intro w l w' hw hs
  obtain ⟨env, hr, -⟩ := hs
  obtain ⟨ops, hops⟩ := hw
  obtain ⟨ops', hops'⟩ := cacheRun_of_step (imageStep_of_receive hr)
  exact ⟨_, hops.append hops'⟩

end Engine

end Kgd
