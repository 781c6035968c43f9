import Mathlib.Data.List.Chain
import Mathlib.Logic.Function.Basic

/-!
# List lemmas for the standard library

Lookup in a list that grew by one element at its end, as a heap or a history does, loops of which
one round matters, and lists that arrive in parts.
-/

namespace List

variable {α : Type u} {l : List α} {a b : α} {i : Nat}

/-- An element of `l ++ [a]` is one of `l` or the new one. -/
theorem getElem?_concat_eq_some :
    (l ++ [a])[i]? = some b ↔ l[i]? = some b ∨ (i = l.length ∧ a = b) := by
  -- before the last element, at it, past it
  rcases Nat.lt_trichotomy i l.length with hlt | heq | hgt
  · rw [getElem?_append_left hlt]
    exact ⟨Or.inl, fun h => h.elim id fun hi => absurd hi.1 (by omega)⟩
  · subst heq
    simp
  · have hnone : l[i]? = none := getElem?_eq_none (by omega)
    have hnone' : (l ++ [a])[i]? = none := getElem?_eq_none (by simp; omega)
    rw [hnone, hnone']
    simp only [reduceCtorEq, false_or, false_iff, not_and]
    intro hi
    omega

/-- The elements of `l` keep their places. -/
theorem getElem?_concat_of_some (a : α) (h : l[i]? = some b) : (l ++ [a])[i]? = some b :=
  getElem?_concat_eq_some.mpr (Or.inl h)

/-- The new element is replaced. -/
@[simp] theorem set_concat_length (l : List α) (a b : α) :
    (l ++ [a]).set l.length b = l ++ [b] := by
  rw [set_append_right _ _ (Nat.le_refl _), Nat.sub_self, set_cons_zero]

/-- The new element is not at an old place. -/
theorem ne_length_of_getElem? (h : l[i]? = some b) : i ≠ l.length :=
  Nat.ne_of_lt (getElem?_eq_some_iff.mp h).1

/-- What is true of some element is true of an old one or of the new one. -/
theorem exists_mem_concat {p : α → Prop} :
    (∃ x ∈ l ++ [a], p x) ↔ (∃ x ∈ l, p x) ∨ p a := by
  simp only [mem_append, mem_singleton, or_and_right, exists_or, exists_eq_left]

/-- A member with the property is still one in the longer list. -/
theorem exists_mem_concat_left {p : α → Prop} (h : ∃ x ∈ l, p x) : ∃ x ∈ l ++ [a], p x :=
  exists_mem_concat.mpr (.inl h)

/-! ## What is said of the elements, by place -/

variable {β : Type v} {f : α → Option β}

/-- What is said of an element, looked up before or after it is said. -/
theorem bind_getElem?_eq_some_iff {v : β} :
    l[i]?.bind f = some v ↔ (l.map f)[i]? = some (some v) := by
  rw [getElem?_map, Option.bind_eq_some_iff, Option.map_eq_some_iff]

/-- A new element about which nothing is said. -/
theorem bind_getElem?_concat (hf : f a = none) :
    (fun j : Nat => (l ++ [a])[j]?.bind f) = fun j => l[j]?.bind f := by
  funext i
  rcases Nat.lt_trichotomy i l.length with hlt | heq | hgt
  · rw [getElem?_append_left hlt]
  · subst heq
    simp [hf]
  · rw [getElem?_eq_none (by simp; omega), getElem?_eq_none (by omega)]

/-- The new entry has no value, so a value was there before. -/
theorem bind_getElem?_of_concat {v : β} (hf : f a = none)
    (h : (l ++ [a])[i]?.bind f = some v) : l[i]?.bind f = some v :=
  (congrFun (bind_getElem?_concat hf) i).symm.trans h

/-- Setting an entry updates what the entries hold at its index alone. -/
theorem bind_getElem?_set (h : l[i]? = some a) (b : α) :
    (fun j : Nat => (l.set i b)[j]?.bind f) =
      Function.update (fun j : Nat => l[j]?.bind f) i (f b) := by
  have hlt : i < l.length := (getElem?_eq_some_iff.mp h).1
  funext j
  by_cases hj : j = i
  · subst hj
    rw [Function.update_self, getElem?_set_self hlt, Option.bind_some]
  · rw [Function.update_of_ne hj, getElem?_set_ne (Ne.symm hj)]

/-- An element about which the same is said. -/
theorem bind_getElem?_set_of_eq (h : l[i]? = some a) (hf : f b = f a) :
    (fun j : Nat => (l.set i b)[j]?.bind f) = fun j : Nat => l[j]?.bind f := by
  rw [bind_getElem?_set h, hf, Function.update_eq_self_iff, h, Option.bind_some]

/-- An element about which nothing is said leaves what is said elsewhere. -/
theorem bind_getElem?_of_set {j : Nat} {v : β} (hb : f b = none)
    (h : (l.set i b)[j]?.bind f = some v) : l[j]?.bind f = some v := by
  by_cases hj : i = j
  · subst hj
    cases hset : (l.set i b)[i]? with
    | none =>
      rw [hset] at h
      exact nomatch h
    | some q =>
      have hlt : i < l.length := by
        have hlt := (getElem?_eq_some_iff.mp hset).1
        rwa [length_set] at hlt
      rw [getElem?_set_self hlt, Option.bind_some, hb] at h
      exact nomatch h
  · rwa [getElem?_set_ne hj] at h

/-! ## Loops of which one round matters -/

/-- A loop over distinct elements of which only `a` contributes. -/
theorem flatMap_of_unique [DecidableEq α] {f : α → List β} (hl : l.Nodup)
    (hf : ∀ b ∈ l, b ≠ a → f b = []) : l.flatMap f = if a ∈ l then f a else [] := by
  induction l with
  | nil => rfl
  | cons b l ih =>
    rw [nodup_cons] at hl
    rw [flatMap_cons, ih hl.2 fun c hc => hf c (mem_cons_of_mem _ hc)]
    by_cases hb : b = a
    · -- the round of `a` is this one and none of the others
      subst hb
      rw [if_neg hl.1, if_pos mem_cons_self, append_nil]
    · rw [hf b mem_cons_self hb, nil_append]
      simp [Ne.symm hb]

/-! ## Elements with keys of their own -/

/-- Where no key occurs twice, filtering by the key of an element takes out that element. -/
theorem filter_bne_of_nodup_map {β : Type v} [BEq β] [LawfulBEq β] {f : α → β} {s t : List α}
    (h : ((s ++ a :: t).map f).Nodup) :
    (s ++ a :: t).filter (fun b => f b != f a) = s ++ t := by
  simp only [map_append, map_cons, nodup_append, nodup_cons, mem_map] at h
  -- no other element has the same image
  obtain ⟨-, ⟨ht, -⟩, hs⟩ := h
  rw [filter_append, filter_cons_of_neg (by simp)]
  congr 1
  · rw [filter_eq_self]
    intro b hb
    exact bne_iff_ne.mpr (hs _ ⟨b, hb, rfl⟩ _ mem_cons_self)
  · rw [filter_eq_self]
    intro b hb
    exact bne_iff_ne.mpr fun heq => ht ⟨b, hb, heq⟩

/-! ## Changing several elements -/

/-- The same change at several places. -/
theorem getElem?_foldl_modify (f : α → α) (is : List Nat) (hnodup : is.Nodup) (l : List α)
    (j : Nat) :
    (is.foldl (fun l i => l.modify i f) l)[j]? = l[j]?.map fun a => if j ∈ is then f a else a := by
  induction is generalizing l with
  | nil => simp
  | cons i is ih =>
    obtain ⟨hi, hnodup⟩ := nodup_cons.mp hnodup
    rw [foldl_cons, ih hnodup, getElem?_modify, Option.map_eq_map, Option.map_map]
    apply congrArg (Option.map · l[j]?)
    funext a
    by_cases hij : i = j
    · subst hij
      simp [hi]
    · simp [hij, Ne.symm hij]

/-! ## Records of changes -/

/-- A record of the changes of a value stays one if it is extended when the value changes. -/
theorem isChain_append_change [DecidableEq α] {x y z : α} (h : (x :: l).IsChain (· ≠ ·))
    (hlast : l.getLastD x = y) :
    (x :: (l ++ if z = y then [] else [z])).IsChain (· ≠ ·) ∧
      (l ++ if z = y then [] else [z]).getLastD x = z := by
  by_cases hz : z = y
  · rw [if_pos hz, append_nil, hz]
    exact ⟨h, hlast⟩
  · rw [if_neg hz, ← cons_append, isChain_append]
    refine ⟨⟨h, isChain_singleton _, ?_⟩, by simp⟩
    -- the chain ends in `y`, which is not `z`
    intro last hlast' next hnext
    rw [getLast?_cons, Option.mem_def, Option.some.injEq] at hlast'
    obtain rfl : z = next := by simpa using hnext
    rw [← hlast', ← getLastD_eq_getLast?, hlast]
    exact Ne.symm hz

/-! ## Lists of which only a part has come -/

/-- The part that first makes a concatenation at least `n` long. -/
theorem exists_first_reaching {ls : List (List α)} {n : Nat} (hpos : 0 < n)
    (h : n ≤ ls.flatten.length) :
    ∃ first l rest, ls = first ++ l :: rest ∧ first.flatten.length < n ∧
      n ≤ (first.flatten ++ l).length := by
  induction ls generalizing n with
  | nil => exact absurd h (Nat.not_le_of_lt hpos)
  | cons l ls ih =>
    rw [flatten_cons, length_append] at h
    by_cases hl : n ≤ l.length
    · exact ⟨[], l, ls, rfl, hpos, hl⟩
    -- too short: the rest has to reach what is missing
    · obtain ⟨first, l', rest, rfl, hlt, hle⟩ := ih (n := n - l.length) (by omega) (by omega)
      refine ⟨l :: first, l', rest, rfl, ?_, ?_⟩
      · rw [flatten_cons, length_append]
        omega
      · rw [flatten_cons, append_assoc, length_append]
        omega

/-- A prefix of `s ++ t` ends within `s`, or consists of `s` and a prefix of `t`. -/
theorem prefix_append_iff {p s t : List α} :
    p <+: s ++ t ↔ (p <+: s ∧ p ≠ s) ∨ ∃ u, p = s ++ u ∧ u <+: t := by
  constructor
  · intro hp
    rcases prefix_or_prefix_of_prefix hp (prefix_append s t) with h | ⟨u, rfl⟩
    -- all of `s` and nothing more counts as the second case
    · by_cases heq : p = s
      · exact Or.inr ⟨[], by simp [heq], nil_prefix⟩
      · exact Or.inl ⟨h, heq⟩
    · exact Or.inr ⟨u, rfl, (prefix_append_right_inj s).mp hp⟩
  · rintro (⟨h, -⟩ | ⟨u, rfl, hu⟩)
    · exact h.trans (prefix_append s t)
    · exact (prefix_append_right_inj s).mpr hu

end List
