import Mathlib.Data.List.AList
import Kgd.ForStd.List

/-!
# Tables whose entries have owners

A table maps keys to positions of a list, as a table of pending requests maps ids to the
requests. Every entry belongs to the element at its position: it stands under the key of that
element, and the element is live.

## Key results

- `Owned.insert`, `Owned.erase`, `Owned.concat`, `Owned.modify`: what keeps the entries owned
- `Owned.eq_empty`: without live elements there are no entries
-/

variable {α κ : Type*} [DecidableEq κ]

/-- Every entry is that of a live element of the list, under the element's key. -/
def Owned (key : α → κ) (live : α → Prop) (table : AList fun _ : κ => Nat) (l : List α) : Prop :=
  ∀ k i, table.lookup k = some i → ∃ a, l[i]? = some a ∧ key a = k ∧ live a

namespace Owned

variable {key : α → κ} {live : α → Prop} {table : AList fun _ : κ => Nat} {l : List α} {i : Nat}
  {a : α} {k : κ} {f : α → α}

/-- The empty table has nothing that could be owned wrongly. -/
theorem empty : Owned key live ∅ l := by
  intro k i h
  rw [AList.lookup_empty] at h
  exact nomatch h

/-- The entry that was there before need not be owned. -/
theorem insert (h : Owned key live (table.erase (key a)) l) (hi : l[i]? = some a) (ha : live a) :
    Owned key live (table.insert (key a) i) l := by
  intro k j hj
  by_cases hk : k = key a
  · subst hk
    rw [AList.lookup_insert] at hj
    obtain rfl := Option.some.inj hj
    exact ⟨a, hi, rfl, ha⟩
  · rw [AList.lookup_insert_ne hk, ← AList.lookup_erase_ne hk] at hj
    exact h k j hj

/-- Erasing an entry keeps the rest of the table owned. -/
theorem erase (h : Owned key live table l) : Owned key live (table.erase k) l := by
  intro k' j hj
  by_cases hk : k' = k
  · subst hk
    rw [AList.lookup_erase] at hj
    exact nomatch hj
  · rw [AList.lookup_erase_ne hk] at hj
    exact h k' j hj

/-- The entries stay owned when the list grows. -/
theorem concat (h : Owned key live table l) : Owned key live table (l ++ [a]) := by
  intro k j hj
  obtain ⟨b, hb, hrest⟩ := h k j hj
  exact ⟨b, List.getElem?_concat_of_some a hb, hrest⟩

/-- An element with an entry stays live. -/
theorem modify (h : Owned key live table l)
    (hf : ∀ a, l[i]? = some a → live a → table.lookup (key a) = some i →
      key (f a) = key a ∧ live (f a)) :
    Owned key live table (l.modify i f) := by
  intro k j hj
  obtain ⟨b, hb, hkey, hlive⟩ := h k j hj
  rw [List.getElem?_modify, hb]
  by_cases hij : i = j
  · subst hij
    obtain ⟨hkey', hlive'⟩ := hf b hb hlive (hkey ▸ hj)
    exact ⟨f b, by simp, hkey'.trans hkey, hlive'⟩
  · exact ⟨b, by simp [hij], hkey, hlive⟩

/-- Without live elements there are no entries. -/
theorem eq_empty (h : Owned key live table l) (hl : ∀ a ∈ l, ¬ live a) : table = ∅ := by
  apply AList.ext
  rw [AList.empty_entries]
  apply List.eq_nil_iff_forall_not_mem.mpr
  intro e he
  obtain ⟨k, i⟩ := e
  have hlookup : table.lookup k = some i := AList.mem_lookup_iff.mpr he
  obtain ⟨a, ha, -, hlive⟩ := h k i hlookup
  exact hl a (List.mem_of_getElem? ha) hlive

end Owned
