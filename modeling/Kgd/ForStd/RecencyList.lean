import Mathlib.Data.List.Induction
import Mathlib.Data.List.TakeWhile

/-!
# Recency lists

A list of cache entries, most recently used first. Making room removes entries from the old
end, but only unreferenced ones: `victims` are the entries removed, oldest first, and `keep`
is what stays. Both are characterised by one step at the old end (`victims_concat`,
`keep_concat`), which is how an eviction loop proceeds. `length_victims_eq_iff` says when enough
goes, and `keep_referenced_iff` when nothing that could go stays.
-/

namespace RecencyList

variable {E : Type u} (unref : E → Bool)

/-- The longest run of unreferenced entries at the old end, at most `n` of them, oldest
    first. -/
def victims (n : Nat) (l : List E) : List E := (l.reverse.take n).takeWhile unref

/-- The entries that stay when the `victims` are removed. -/
def keep (n : Nat) (l : List E) : List E := l.take (l.length - (victims unref n l).length)

@[simp] theorem victims_zero (l : List E) : victims unref 0 l = [] := by simp [victims]

@[simp] theorem victims_nil (n : Nat) : victims unref n ([] : List E) = [] := by
  simp [victims]

/-- One step of eviction: an unreferenced oldest entry goes first. -/
theorem victims_concat (n : Nat) (l : List E) (e : E) :
    victims unref (n + 1) (l ++ [e]) = if unref e then e :: victims unref n l else [] := by
  simp only [victims, List.reverse_append, List.reverse_singleton, List.singleton_append,
    List.take_succ_cons, List.takeWhile_cons]

/-- The victims are elements of the list. -/
theorem length_victims_le (n : Nat) (l : List E) : (victims unref n l).length ≤ l.length := by
  have h₁ : (victims unref n l).length ≤ (l.reverse.take n).length :=
    (List.takeWhile_sublist _).length_le
  have h₂ : (l.reverse.take n).length ≤ l.length := by
    rw [List.length_take, List.length_reverse]; omega
  omega

theorem length_victims_le_bound (n : Nat) (l : List E) : (victims unref n l).length ≤ n := by
  have h₁ : (victims unref n l).length ≤ (l.reverse.take n).length :=
    (List.takeWhile_sublist _).length_le
  rw [List.length_take] at h₁
  omega

@[simp] theorem keep_zero (l : List E) : keep unref 0 l = l := by simp [keep]

/-- One step of eviction, seen from the entries that stay. -/
theorem keep_concat (n : Nat) (l : List E) (e : E) :
    keep unref (n + 1) (l ++ [e]) = if unref e then keep unref n l else l ++ [e] := by
  have hle := length_victims_le unref n l
  simp only [keep, victims_concat]
  split
  · rw [List.length_append, List.length_singleton, List.length_cons,
      show l.length + 1 - ((victims unref n l).length + 1) =
        l.length - (victims unref n l).length by omega,
      List.take_append_of_le_length (by omega)]
  · rw [List.length_nil, Nat.sub_zero, List.take_length]

/-- The kept entries and the victims, put back, are the list. -/
theorem keep_append_victims (n : Nat) (l : List E) :
    keep unref n l ++ (victims unref n l).reverse = l := by
  -- from the oldest end, where the eviction begins
  induction l using List.reverseRecOn generalizing n with
  | nil => simp [keep]
  | append_singleton l e ih =>
    cases n with
    | zero => simp
    | succ n =>
      rw [keep_concat, victims_concat]
      split
      · rw [List.reverse_cons, ← List.append_assoc, ih]
      · simp

/-- Every element is kept or a victim. -/
theorem mem_iff_keep_or_victims (n : Nat) (l : List E) (e : E) :
    e ∈ l ↔ e ∈ keep unref n l ∨ e ∈ victims unref n l := by
  conv_lhs => rw [← keep_append_victims unref n l]
  rw [List.mem_append, List.mem_reverse]

/-- Each element is on one of the two sides. -/
theorem length_keep_add (n : Nat) (l : List E) :
    (keep unref n l).length + (victims unref n l).length = l.length := by
  have h := congrArg List.length (keep_append_victims unref n l)
  rwa [List.length_append, List.length_reverse] at h

/-- Only unreferenced entries are victims. -/
theorem unref_of_mem_victims {n : Nat} {l : List E} {e : E} (h : e ∈ victims unref n l) :
    unref e = true := List.mem_takeWhile_imp h

/-- What is kept is in the order it was in. -/
theorem keep_sublist (n : Nat) (l : List E) : (keep unref n l).Sublist l :=
  List.take_sublist _ _

/-- Where fewer than `n` entries go, the oldest entry that stays is referenced. -/
theorem unref_getLast?_keep {n : Nat} {l : List E} (h : (victims unref n l).length < n) :
    ∀ e ∈ (keep unref n l).getLast?, unref e = false := by
  -- from the old end, as eviction goes
  induction l using List.reverseRecOn generalizing n with
  | nil => simp [keep]
  | append_singleton l e ih =>
    cases n with
    | zero => exact absurd h (Nat.not_lt_zero _)
    | succ n =>
      rw [victims_concat] at h
      rw [keep_concat]
      split at h
      · rename_i he
        rw [List.length_cons] at h
        rw [if_pos he]
        exact ih (by omega)
      · rename_i he
        rw [if_neg he]
        simpa using he

/-- In a list of distinct entries no victim is kept. -/
theorem not_mem_keep_of_mem_victims {n : Nat} {l : List E} (hl : l.Nodup) {e : E}
    (h : e ∈ victims unref n l) : e ∉ keep unref n l := by
  rw [← keep_append_victims unref n l, List.nodup_append] at hl
  intro hk
  exact hl.2.2 e hk e (List.mem_reverse.mpr h) rfl

/-! ## How much goes -/

/-- The entries that removing `n` entries would take, oldest first, referenced or not. -/
def oldest (n : Nat) (l : List E) : List E := l.reverse.take n

@[simp] theorem oldest_zero (l : List E) : oldest 0 l = [] := by simp [oldest]

@[simp] theorem oldest_nil (n : Nat) : oldest n ([] : List E) = [] := by simp [oldest]

/-- The oldest element is the last one. -/
@[simp] theorem oldest_concat (n : Nat) (l : List E) (e : E) :
    oldest (n + 1) (l ++ [e]) = e :: oldest n l := by
  simp only [oldest, List.reverse_append, List.reverse_singleton, List.singleton_append,
    List.take_succ_cons]

/-- All the entries that have to go are victims exactly when none of them is referenced. -/
theorem length_victims_eq_iff {n : Nat} {l : List E} (hn : n ≤ l.length) :
    (victims unref n l).length = n ↔ ∀ e ∈ oldest n l, unref e = true := by
  -- from the oldest end, where the eviction begins
  induction l using List.reverseRecOn generalizing n with
  | nil =>
    obtain rfl : n = 0 := Nat.le_zero.mp hn
    simp
  | append_singleton l e ih =>
    cases n with
    | zero => simp
    | succ n =>
      rw [List.length_append, List.length_singleton] at hn
      rw [victims_concat, oldest_concat, List.forall_mem_cons, ← ih (by omega)]
      split
      · rename_i he
        simp [he]
      · rename_i he
        simp [he]

/-- Where a referenced entry stops the eviction, only referenced entries stay exactly when every
    entry behind an unreferenced one is unreferenced too. -/
theorem keep_referenced_iff {n : Nat} {l : List E}
    (hstop : ¬ ∀ e ∈ oldest n l, unref e = true) :
    (∀ e ∈ keep unref n l, unref e = false) ↔
      l.Pairwise fun newer older => unref newer = true → unref older = true := by
  -- from the oldest end, where the eviction begins
  induction l using List.reverseRecOn generalizing n with
  | nil => simp at hstop
  | append_singleton l e ih =>
    cases n with
    | zero => simp at hstop
    | succ n =>
      rw [oldest_concat, List.forall_mem_cons] at hstop
      rw [keep_concat, List.pairwise_append]
      split
      · -- `e` goes, and it is behind everything
        rename_i he
        rw [ih fun hall => hstop ⟨he, hall⟩]
        simp [he]
      · -- `e` stops the eviction
        rename_i he
        have hfalse : unref e = false := eq_false_of_ne_true he
        constructor
        · intro hall
          have hl : ∀ x ∈ l, unref x = false := fun x hx => hall x (List.mem_append_left _ hx)
          refine ⟨List.pairwise_of_forall_mem_list fun x hx y _ hunref => ?_, ?_, ?_⟩
          · rw [hl x hx] at hunref
            exact nomatch hunref
          · exact List.pairwise_singleton _ _
          · intro x hx y _ hunref
            rw [hl x hx] at hunref
            exact nomatch hunref
        · intro hx x hmem
          obtain ⟨-, -, hbehind⟩ := hx
          rcases List.mem_append.mp hmem with hl | he'
          · by_contra htrue
            exact he (hbehind x hl e (by simp) (eq_true_of_ne_false htrue))
          · obtain rfl := List.mem_singleton.mp he'
            exact hfalse

end RecencyList
