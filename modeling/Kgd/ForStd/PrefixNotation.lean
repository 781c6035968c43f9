import Mathlib.Data.List.Basic

/-!
# Formats in prefix notation

A value starts with an item that tells its own length and how many further values belong to
the value: its operands, which follow one after the other. `PrefixNotation.skip k` drops `k`
values off the front of an input by counting the values that are still to come.

## Key results

- `PrefixNotation.skip_add`: skipping values one after the other
- `PrefixNotation.skip_append`: what follows the values does not matter
- `PrefixNotation.length_skip_lt`: a value is not empty
-/

universe u

/-- How the items of a format start. -/
structure PrefixNotation (α : Type u) where
  /-- the length of the first item and the number of its operands, if the item is complete -/
  head : List α → Option (Nat × Nat)
  head_pos : ∀ {as n k}, head as = some (n, k) → 0 < n
  head_le : ∀ {as n k}, head as = some (n, k) → n ≤ as.length
  head_append : ∀ {as n k} (bs), head as = some (n, k) → head (as ++ bs) = some (n, k)

namespace PrefixNotation

variable {α : Type u} (f : PrefixNotation α)

/-- `skip`, for at most so many items. -/
def skipItems : Nat → Nat → List α → Option (List α)
  | _, 0, as => some as
  | 0, _ + 1, _ => none
  | fuel + 1, k + 1, as =>
    match f.head as with
    | none => none
    | some (n, operands) => skipItems fuel (operands + k) (as.drop n)

/-- What follows the first `k` values, if they are complete. -/
def skip (k : Nat) (as : List α) : Option (List α) := f.skipItems as.length k as

/-- The number of operands of the first item, and what follows the item. -/
def item (as : List α) : Option (Nat × List α) :=
  (f.head as).map fun (n, operands) => (operands, as.drop n)

/-- The input is exactly one value. -/
def IsValue (as : List α) : Prop := f.skip 1 as = some []

/-- An item is not empty, so the length of the input is enough fuel. -/
theorem skipItems_of_length_le (fuel k : Nat) (as : List α) (h : as.length ≤ fuel) :
    f.skipItems fuel k as = f.skip k as := by
  rw [skip]
  induction hn : as.length using Nat.strongRecOn generalizing fuel k as with
  | ind n ih =>
    cases k with
    | zero => cases fuel <;> cases n <;> rfl
    | succ k =>
      cases hhead : f.head as with
      | none => cases fuel <;> cases n <;> simp [skipItems, hhead]
      | some p =>
        obtain ⟨m, operands⟩ := p
        have hpos := f.head_pos hhead
        have hle := f.head_le hhead
        -- an item takes at least one element, so either fuel is enough for what follows
        obtain ⟨fuel, rfl⟩ : ∃ g, fuel = g + 1 := ⟨fuel - 1, by omega⟩
        obtain ⟨n, rfl⟩ : ∃ g, n = g + 1 := ⟨n - 1, by omega⟩
        have hlen : (as.drop m).length < n + 1 := by rw [List.length_drop]; omega
        simp only [skipItems, hhead]
        rw [ih _ hlen fuel _ _ (by omega) rfl, ih _ hlen n _ _ (by omega) rfl]

/-- No value is skipped without a look at the input. -/
@[simp] theorem skip_zero (as : List α) : f.skip 0 as = some as := by
  cases as <;> rfl

/-- A value is skipped by its first item and then the operands of this. -/
theorem skip_succ (k : Nat) (as : List α) :
    f.skip (k + 1) as =
      (f.head as).bind fun item => f.skip (item.2 + k) (as.drop item.1) := by
  rw [← f.skipItems_of_length_le _ _ _ (Nat.le_succ as.length), skipItems]
  cases hhead : f.head as with
  | none => rfl
  | some item =>
    have hlen : (as.drop item.1).length ≤ as.length := by rw [List.length_drop]; omega
    exact f.skipItems_of_length_le _ _ _ hlen

/-- A value is its first item and the operands. -/
theorem skip_of_item {operands : Nat} {as rest : List α} (h : f.item as = some (operands, rest))
    (k : Nat) : f.skip (k + 1) as = f.skip (operands + k) rest := by
  obtain ⟨⟨n, m⟩, hhead, heq⟩ := Option.map_eq_some_iff.mp h
  obtain ⟨rfl, rfl⟩ := Prod.mk.inj heq
  rw [skip_succ, hhead]
  rfl

/-- Induction along `skip`: over the items, with the number of values to come. -/
theorem skip_induction {motive : Nat → List α → Prop} (done : ∀ as, motive 0 as)
    (incomplete : ∀ k as, f.head as = none → motive (k + 1) as)
    (item : ∀ k as n m, f.head as = some (n, m) → motive (m + k) (as.drop n) → motive (k + 1) as)
    (k : Nat) (as : List α) : motive k as := by
  induction hn : as.length using Nat.strongRecOn generalizing k as with
  | ind n ih =>
    cases k with
    | zero => exact done as
    | succ k =>
      cases hhead : f.head as with
      | none => exact incomplete k as hhead
      | some p =>
        obtain ⟨m, operands⟩ := p
        have hpos := f.head_pos hhead
        have hle := f.head_le hhead
        -- an item takes an element at least
        have hlen : (as.drop m).length < n := by rw [List.length_drop]; omega
        exact item k as m operands hhead (ih _ hlen _ _ rfl)

/-- Values are skipped one part after the other. -/
theorem skip_add (j k : Nat) (as : List α) :
    f.skip (j + k) as = (f.skip j as).bind (f.skip k) := by
  induction j, as using f.skip_induction with
  | done as => simp
  | incomplete j as hhead =>
    rw [show j + 1 + k = (j + k) + 1 by omega]
    simp [skip_succ, hhead]
  | item j as n m hhead ih =>
    rw [show j + 1 + k = (j + k) + 1 by omega, skip_succ, skip_succ, hhead]
    simp only [Option.bind_some]
    rw [← ih, Nat.add_assoc]

/-- What follows the values is left. -/
theorem skip_append {k : Nat} {as rest : List α} (bs : List α) (h : f.skip k as = some rest) :
    f.skip k (as ++ bs) = some (rest ++ bs) := by
  induction k, as using f.skip_induction with
  | done as =>
    rw [skip_zero] at h ⊢
    rw [Option.some.inj h]
  | incomplete k as hhead => simp [skip_succ, hhead] at h
  | item k as n m hhead ih =>
    -- the item lies within `as`, so what follows does not matter
    have hle := f.head_le hhead
    rw [skip_succ, hhead] at h
    rw [skip_succ, f.head_append bs hhead]
    simp only [Option.bind_some] at h ⊢
    rw [List.drop_append_of_le_length hle]
    exact ih h

/-- After the values of one input come those of the next. -/
theorem skip_append_of {j : Nat} {as : List α} (h : f.skip j as = some []) (k : Nat)
    (bs : List α) : f.skip (j + k) (as ++ bs) = f.skip k bs := by
  rw [skip_add, f.skip_append bs h, List.nil_append, Option.bind_some]

/-- Values one after the other are skipped together. -/
theorem skip_flatten (values : List (List α)) (h : ∀ v ∈ values, f.IsValue v) :
    f.skip values.length values.flatten = some [] := by
  induction values with
  | nil => simp
  | cons v values ih =>
    have hv := h v List.mem_cons_self
    rw [List.length_cons, Nat.add_comm, List.flatten_cons, f.skip_append_of hv]
    exact ih fun w hw => h w (List.mem_cons_of_mem v hw)

/-- What follows an item is left. -/
theorem item_append {operands : Nat} {as rest : List α} (bs : List α)
    (h : f.item as = some (operands, rest)) :
    f.item (as ++ bs) = some (operands, rest ++ bs) := by
  obtain ⟨⟨n, m⟩, hhead, heq⟩ := Option.map_eq_some_iff.mp h
  obtain ⟨rfl, rfl⟩ := Prod.mk.inj heq
  rw [item, f.head_append bs hhead, Option.map_some]
  show some (m, (as ++ bs).drop n) = _
  rw [List.drop_append_of_le_length (f.head_le hhead)]

/-- What is left is the end of the input. -/
theorem skip_suffix {k : Nat} {as rest : List α} (h : f.skip k as = some rest) :
    rest <:+ as := by
  induction k, as using f.skip_induction with
  | done as =>
    rw [skip_zero] at h
    exact Option.some.inj h ▸ List.suffix_refl as
  | incomplete k as hhead => simp [skip_succ, hhead] at h
  | item k as n m hhead ih =>
    rw [skip_succ, hhead] at h
    exact (ih h).trans (List.drop_suffix n as)

/-- An item takes at least one element. -/
theorem length_item_lt {operands : Nat} {as rest : List α}
    (h : f.item as = some (operands, rest)) : rest.length < as.length := by
  obtain ⟨⟨n, m⟩, hhead, heq⟩ := Option.map_eq_some_iff.mp h
  obtain ⟨-, rfl⟩ := Prod.mk.inj heq
  have hpos := f.head_pos hhead
  have hle := f.head_le hhead
  rw [List.length_drop]
  omega

/-- Skipping at least one value shortens the input. -/
theorem length_skip_lt {k : Nat} {as rest : List α} (h : f.skip (k + 1) as = some rest) :
    rest.length < as.length := by
  rw [skip_succ] at h
  cases hhead : f.head as with
  | none => simp [hhead] at h
  | some item =>
    rw [hhead] at h
    have hpos := f.head_pos hhead
    have hle := f.head_le hhead
    have hrest := (f.skip_suffix h).length_le
    rw [List.length_drop] at hrest
    omega

end PrefixNotation
