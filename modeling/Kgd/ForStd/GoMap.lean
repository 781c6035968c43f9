import Mathlib.Data.List.Nodup
import Mathlib.Data.Set.Card

/-!
# Finite maps with Go's `range`

`GoMap K V` is an extensional finite map: two maps with the same lookups are equal.
A `for k, v := range m` statement visits every key once in an order that the language
leaves open, so each range statement takes a `RangeOrder` that permutes the keys.

Two loop shapes cover the uses in practice:

* `GoMap.rangeUpdate`: the body looks at the entry it visits, emits output, and keeps,
  changes or deletes that entry;
* `GoMap.entries`: the body only reads the map, so the loop is a fold over the visited
  entries.
-/

/-- An extensional finite map keyed by an ordered type. -/
abbrev GoMap (K : Type u) (V : Type v) [Ord K] := Std.ExtTreeMap K V compare

/-- An order in which a `range` statement visits the keys of a map: every key once. -/
structure RangeOrder (K : Type u) where
  visit : List K → List K
  perm : ∀ ks, (visit ks).Perm ks

/-- The order of the underlying tree. -/
instance : Inhabited (RangeOrder K) := ⟨⟨id, fun ks => List.Perm.refl ks⟩⟩

namespace GoMap

variable {K : Type u} {V : Type v} {O : Type w} [Ord K]

section Trans
variable [Std.TransOrd K]

/-- One iteration of a loop that edits only the entry it visits. -/
def rangeStep (body : K → V → Option V × List O) (acc : GoMap K V × List O) (k : K) :
    GoMap K V × List O :=
  match acc.1[k]? with
  | none => acc
  | some v =>
    match body k v with
    | (some v', out) => (acc.1.insert k v', acc.2 ++ out)
    | (none, out) => (acc.1.erase k, acc.2 ++ out)

/-- `for k, v := range m { … }` where the body keeps (`some`) or deletes (`none`) the
    entry it visits and appends to the output. -/
def rangeUpdate (order : RangeOrder K) (body : K → V → Option V × List O) (m : GoMap K V) :
    GoMap K V × List O :=
  (order.visit m.keys).foldl (rangeStep body) (m, [])

/-- The entries of `m` in the order a range statement visits them. -/
def entries (order : RangeOrder K) (m : GoMap K V) : List (K × V) :=
  (order.visit m.keys).filterMap fun k => m[k]?.map fun v => (k, v)

/-- A range visits no key twice. -/
theorem nodup_visit (order : RangeOrder K) (m : GoMap K V) : (order.visit m.keys).Nodup :=
  (order.perm m.keys).nodup_iff.mpr m.nodup_keys

/-- A range loop visits every entry once. -/
theorem nodup_entries (order : RangeOrder K) (m : GoMap K V) : (entries order m).Nodup := by
  refine (nodup_visit order m).filterMap fun k k' x hk hk' => ?_
  obtain ⟨v, -, rfl⟩ := Option.map_eq_some_iff.mp hk
  obtain ⟨v', -, heq⟩ := Option.map_eq_some_iff.mp hk'
  exact (Prod.mk.inj heq).1.symm

/-- A loop that reads the entries, seen as a loop over the visited keys. -/
theorem flatMap_entries (order : RangeOrder K) (m : GoMap K V) (f : K × V → List O) :
    (entries order m).flatMap f =
      (order.visit m.keys).flatMap fun k => (m[k]?.map fun v => f (k, v)).elim [] id := by
  rw [entries]
  induction order.visit m.keys with
  | nil => rfl
  | cons k ks ih =>
    cases hk : m[k]? with
    | none => simpa [List.filterMap_cons, hk] using ih
    | some v => simpa [List.filterMap_cons, hk] using ih

/-- A key with an entry is in the map. -/
theorem mem_of_getElem? {m : GoMap K V} {k : K} {v : V} (h : m[k]? = some v) : k ∈ m := by
  rw [Std.ExtTreeMap.mem_iff_isSome_getElem?, h]; rfl

/-- One iteration adds what the body yields at the key, and nothing for a deleted key. -/
theorem rangeStep_snd (body : K → V → Option V × List O) (acc : GoMap K V × List O) (k : K) :
    (rangeStep body acc k).2 = acc.2 ++ (acc.1[k]?.map (body k)).elim [] Prod.snd := by
  unfold rangeStep
  split
  · rename_i hk; simp [hk]
  · rename_i v hk; split <;> rename_i hb <;> simp [hk, hb]

end Trans

section Lawful
variable [Std.TransOrd K] [Std.LawfulEqOrd K]

/-- Storing under a key leaves the others. -/
theorem getElem?_insert_ne (m : GoMap K V) (v : V) {k j : K} (h : j ≠ k) :
    (m.insert k v)[j]? = m[j]? := by
  rw [Std.ExtTreeMap.getElem?_insert, if_neg (mt Std.LawfulEqOrd.compare_eq_iff_eq.mp (Ne.symm h))]

theorem getElem?_erase_ne (m : GoMap K V) {k j : K} (h : j ≠ k) : (m.erase k)[j]? = m[j]? := by
  rw [Std.ExtTreeMap.getElem?_erase, if_neg (mt Std.LawfulEqOrd.compare_eq_iff_eq.mp (Ne.symm h))]

/-- The entries after a deletion are the entries of the other keys. -/
theorem getElem?_erase_eq_some {m : GoMap K V} {k j : K} {v : V} :
    (m.erase k)[j]? = some v ↔ j ≠ k ∧ m[j]? = some v := by
  by_cases h : j = k
  · subst h; simp
  · rw [getElem?_erase_ne m h]; simp [h]

/-- The entries after a store: the one that was stored, and those of the other keys. -/
theorem getElem?_insert_eq_some {m : GoMap K V} {k j : K} {v w : V} :
    (m.insert k w)[j]? = some v ↔ (j = k ∧ w = v) ∨ (j ≠ k ∧ m[j]? = some v) := by
  by_cases h : j = k
  · subst h; simp
  · rw [getElem?_insert_ne m w h]; simp [h]

/-- A range visits the keys of the map. -/
@[simp] theorem mem_visit (order : RangeOrder K) (m : GoMap K V) (k : K) :
    k ∈ order.visit m.keys ↔ k ∈ m := by
  rw [(order.perm m.keys).mem_iff, Std.ExtTreeMap.mem_keys]

/-- One iteration changes the entry at its own key alone. -/
theorem rangeStep_getElem? [DecidableEq K] (body : K → V → Option V × List O)
    (acc : GoMap K V × List O)
    (k j : K) :
    (rangeStep body acc k).1[j]? =
      if j = k then acc.1[j]?.bind fun v => (body j v).1 else acc.1[j]? := by
  unfold rangeStep
  split
  · rename_i hk; split
    · rename_i hjk; subst hjk; simp [hk]
    · rfl
  · rename_i v hk
    -- the body keeps or deletes the entry at `k`, and `j` is that entry or another one
    split <;> rename_i hb <;> split <;> rename_i hjk
    · subst hjk; simp [hk, hb]
    · simp [Std.ExtTreeMap.getElem?_insert, Ne.symm hjk]
    · subst hjk; simp [hk, hb]
    · simp [Std.ExtTreeMap.getElem?_erase, Ne.symm hjk]

/-- A loop over distinct keys applies the body to each visited entry, and leaves the rest. -/
theorem foldl_rangeStep_getElem? [DecidableEq K] (body : K → V → Option V × List O) (ks : List K)
    (hks : ks.Nodup) (acc : GoMap K V × List O) (j : K) :
    (ks.foldl (rangeStep body) acc).1[j]? =
      if j ∈ ks then acc.1[j]?.bind fun v => (body j v).1 else acc.1[j]? := by
  induction ks generalizing acc with
  | nil => simp
  | cons k ks ih =>
    rw [List.nodup_cons] at hks
    rw [List.foldl_cons, ih hks.2, rangeStep_getElem?]
    by_cases hjk : j = k
    · -- `j` is not among the keys still to come
      subst hjk; simp [hks.1]
    · simp [hjk]

/-- The output of a loop over distinct keys is the output of the bodies, in order. -/
theorem foldl_rangeStep_snd (body : K → V → Option V × List O) (ks : List K)
    (hks : ks.Nodup) (acc : GoMap K V × List O) :
    (ks.foldl (rangeStep body) acc).2 =
      acc.2 ++ ks.flatMap fun k => (acc.1[k]?.map (body k)).elim [] Prod.snd := by
  classical
  induction ks generalizing acc with
  | nil => simp
  | cons k ks ih =>
    rw [List.nodup_cons] at hks
    rw [List.foldl_cons, ih hks.2, rangeStep_snd, List.flatMap_cons, List.append_assoc]
    congr 2
    -- the first iteration touched only `k`, which does not occur again
    refine List.flatMap_congr fun j hj => ?_
    have hjk : j ≠ k := fun h => hks.1 (h ▸ hj)
    rw [rangeStep_getElem?, if_neg hjk]

/-- After a range loop every entry has been handled by the body exactly once. -/
@[simp] theorem rangeUpdate_getElem? (order : RangeOrder K) (body : K → V → Option V × List O)
    (m : GoMap K V) (j : K) :
    (rangeUpdate order body m).1[j]? = m[j]?.bind fun v => (body j v).1 := by
  classical
  rw [rangeUpdate, foldl_rangeStep_getElem? body _ (nodup_visit order m)]
  split
  · rfl
  · rename_i h
    rw [mem_visit] at h
    simp [Std.ExtTreeMap.getElem?_eq_none h]

/-- A range yields what its body yields at each entry, in the order of the visits. -/
theorem rangeUpdate_snd (order : RangeOrder K) (body : K → V → Option V × List O)
    (m : GoMap K V) :
    (rangeUpdate order body m).2 =
      (order.visit m.keys).flatMap fun k => (m[k]?.map (body k)).elim [] Prod.snd := by
  rw [rangeUpdate, foldl_rangeStep_snd body _ (nodup_visit order m), List.nil_append]

/-- What a range loop emits was emitted for some entry of the map. -/
theorem mem_rangeUpdate_snd (order : RangeOrder K) (body : K → V → Option V × List O)
    (m : GoMap K V) (o : O) :
    o ∈ (rangeUpdate order body m).2 ↔ ∃ k v, m[k]? = some v ∧ o ∈ (body k v).2 := by
  rw [rangeUpdate_snd, List.mem_flatMap]
  constructor
  · intro hx
    obtain ⟨k, -, ho⟩ := hx
    cases hk : m[k]? with
    | none => simp [hk] at ho
    | some v => exact ⟨k, v, hk, by simpa [hk] using ho⟩
  · intro hx
    obtain ⟨k, v, hk, ho⟩ := hx
    exact ⟨k, (mem_visit order m k).mpr (mem_of_getElem? hk), by simpa [hk] using ho⟩

/-- The entries that a range visits are those of the map. -/
@[simp] theorem mem_entries (order : RangeOrder K) (m : GoMap K V) (k : K) (v : V) :
    (k, v) ∈ entries order m ↔ m[k]? = some v := by
  simp only [entries, List.mem_filterMap, mem_visit, Option.map_eq_some_iff, Prod.mk.injEq]
  constructor
  · intro hx
    obtain ⟨k', -, v', hv', rfl, rfl⟩ := hx
    exact hv'
  · intro h; exact ⟨k, mem_of_getElem? h, v, h, rfl, rfl⟩

/-- The output of a range loop is that of the body for every entry, in the order visited. -/
theorem rangeUpdate_snd_entries (order : RangeOrder K) (body : K → V → Option V × List O)
    (m : GoMap K V) :
    (rangeUpdate order body m).2 = (entries order m).flatMap fun x => (body x.1 x.2).2 := by
  rw [rangeUpdate_snd, flatMap_entries]
  congr 1
  funext k
  cases m[k]? <;> rfl

/-- A range loop visits the keys in its order. -/
theorem map_fst_entries (order : RangeOrder K) (m : GoMap K V) :
    (entries order m).map Prod.fst = order.visit m.keys := by
  have hmem : ∀ k ∈ order.visit m.keys, k ∈ m := fun k hk => (mem_visit order m k).mp hk
  unfold entries
  -- generalised to any list of keys that are in the map, for the induction
  revert hmem
  induction order.visit m.keys with
  | nil => exact fun _ => rfl
  | cons k ks ih =>
    intro hmem
    obtain ⟨v, hv⟩ := Option.isSome_iff_exists.mp
      (Std.ExtTreeMap.mem_iff_isSome_getElem?.mp (hmem k List.mem_cons_self))
    rw [List.filterMap_cons, hv]
    simp only [Option.map_some, List.map_cons]
    rw [ih fun k' hk' => hmem k' (List.mem_cons_of_mem _ hk')]

/-- A range visits as many entries as the map has. -/
theorem length_entries (order : RangeOrder K) (m : GoMap K V) :
    (entries order m).length = m.size := by
  rw [← List.length_map Prod.fst, map_fst_entries, (order.perm m.keys).length_eq,
    Std.ExtTreeMap.length_keys]

/-- Keys are inserted once, however often they come. -/
theorem size_foldl_insert {ks l : List K} (hl : l.Nodup) (hmem : ∀ k, k ∈ l ↔ k ∈ ks) :
    (ks.foldl (fun m k => m.insert k ()) (∅ : GoMap K Unit)).size = l.length := by
  -- for any map to begin with, since the fold grows it
  have hkeys : ∀ (m : GoMap K Unit) k,
      k ∈ ks.foldl (fun m k => m.insert k ()) m ↔ k ∈ m ∨ k ∈ ks := by
    clear hmem
    induction ks with
    | nil => simp
    | cons k' ks ih =>
      intro m k
      rw [List.foldl_cons, ih, Std.ExtTreeMap.mem_insert, Std.LawfulEqOrd.compare_eq_iff_eq,
        List.mem_cons, eq_comm (a := k'), or_assoc, or_left_comm]
  rw [← Std.ExtTreeMap.length_keys]
  apply List.Perm.length_eq
  rw [List.perm_ext_iff_of_nodup (Std.ExtTreeMap.nodup_keys) hl]
  intro k
  rw [Std.ExtTreeMap.mem_keys, hkeys, hmem]
  simp

/-- A loop whose body keeps every entry and emits nothing does nothing. -/
theorem rangeUpdate_eq_self {order : RangeOrder K} {body : K → V → Option V × List O}
    {m : GoMap K V} (h : ∀ k v, m[k]? = some v → body k v = (some v, [])) :
    rangeUpdate order body m = (m, []) := by
  apply Prod.ext
  · apply Std.ExtTreeMap.ext_getElem?
    intro k
    rw [rangeUpdate_getElem?]
    cases hk : m[k]? with
    | none => rfl
    | some v => rw [Option.bind_some, h k v hk]
  · rw [rangeUpdate_snd_entries, List.flatMap_eq_nil_iff]
    rintro ⟨k, v⟩ hx
    rw [h k v ((mem_entries order m k v).mp hx)]

/-- How often a range loop sees the value `v`: once for each key that holds it. -/
theorem countP_entries [DecidableEq V] (order : RangeOrder K) (m : GoMap K V) (v : V) :
    (entries order m).countP (fun x => decide (x.2 = v)) = {k : K | m[k]? = some v}.ncard := by
  classical
  -- the entries with this value have distinct keys, so counting them counts keys
  have hnodup : (((entries order m).filter fun x => decide (x.2 = v)).map Prod.fst).Nodup := by
    refine ((nodup_entries order m).filter _).map_on fun x hx y hy hxy => Prod.ext hxy ?_
    simp only [List.mem_filter, decide_eq_true_eq] at hx hy
    rw [hx.2, hy.2]
  have hlength : ((entries order m).filter fun x => decide (x.2 = v)).length =
      (((entries order m).filter fun x => decide (x.2 = v)).map Prod.fst).length :=
    (List.length_map Prod.fst).symm
  rw [List.countP_eq_length_filter, hlength, ← List.toFinset_card_of_nodup hnodup,
    ← Set.ncard_coe_finset]
  congr 1
  ext k
  simp

end Lawful

end GoMap
