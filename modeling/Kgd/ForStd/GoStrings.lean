import Mathlib.Tactic.Common

/-!
# Strings of bytes

Substring search, counting and iteration over runes, as Go's `strings` package and `for range`
do them on a string of bytes.

## Key results

- `Strings.index_append`, `Strings.count_append`: a part without the substring's first element
  is passed over
- `Strings.count_le_append`: a longer string has no fewer occurrences
- `Strings.foldlM_runes`: a loop over the runes that goes on after ASCII alone is a loop over the
  bytes
-/

namespace Strings

/-! ## Substrings -/

/-- A string that starts with another character does not have the prefix. -/
theorem not_prefix_of_ne {α : Type u} {a c : α} {sub s : List α} (h : a ≠ c) :
    ¬ c :: sub <+: a :: s := by
  intro hp
  exact h (List.cons_prefix_cons.mp hp).1.symm

section
variable {α : Type u} [DecidableEq α]

/-- Where `sub` occurs first. -/
def index (sub : List α) : List α → Option Nat
  | [] => if sub = [] then some 0 else none
  | a :: s => if sub <+: a :: s then some 0 else (index sub s).map (· + 1)

/-- How often `sub`, which is not empty, occurs without overlaps, after the first `skip`
    elements. -/
def countFrom (sub : List α) : Nat → List α → Nat
  | _, [] => 0
  | skip + 1, _ :: s => countFrom sub skip s
  | 0, a :: s =>
    if sub <+: a :: s then countFrom sub (sub.length - 1) s + 1 else countFrom sub 0 s

/-- How often `sub`, which is not empty, occurs without overlaps. -/
def count (sub s : List α) : Nat := countFrom sub 0 s

variable {c : α} {sub s : List α}

/-- What a string starts with is found at its start. -/
@[simp] theorem index_self_append (sub t : List α) : index sub (sub ++ t) = some 0 := by
  cases h : sub ++ t with
  | nil => simp_all [index]
  | cons a s =>
    have hp : sub <+: a :: s := h ▸ List.prefix_append sub t
    rw [index, if_pos hp]

/-- A character that cannot start a match is passed over. -/
theorem index_cons_of_ne {a : α} (h : a ≠ c) :
    index (c :: sub) (a :: s) = (index (c :: sub) s).map (· + 1) := by
  rw [index, if_neg (not_prefix_of_ne h)]

/-- A part in which the first element of the substring does not occur is passed over. -/
theorem index_append (h : c ∉ s) (t : List α) :
    index (c :: sub) (s ++ t) = (index (c :: sub) t).map (· + s.length) := by
  induction s with
  | nil => simp
  | cons a s ih =>
    obtain ⟨ha, hs⟩ := not_or.mp (mt List.mem_cons.mpr h)
    rw [List.cons_append, index_cons_of_ne (Ne.symm ha), ih hs, Option.map_map]
    rfl

/-- Skipping is dropping: the rest of a match is not searched. -/
theorem countFrom_skip (skip : Nat) (s : List α) :
    countFrom sub skip s = count sub (s.drop skip) := by
  induction skip generalizing s with
  | zero => rfl
  | succ skip ih =>
    cases s with
    | nil => rfl
    | cons a s => exact ih s

theorem count_cons_of_ne {a : α} (h : a ≠ c) : count (c :: sub) (a :: s) = count (c :: sub) s := by
  rw [count, countFrom, if_neg (not_prefix_of_ne h)]
  rfl

/-- A text without the first character of a match does not count. -/
theorem count_append (h : c ∉ s) (t : List α) : count (c :: sub) (s ++ t) = count (c :: sub) t := by
  induction s with
  | nil => rfl
  | cons a s ih =>
    obtain ⟨ha, hs⟩ := not_or.mp (mt List.mem_cons.mpr h)
    rw [List.cons_append, count_cons_of_ne (Ne.symm ha), ih hs]

/-- A match at the start counts once, and the search goes on behind it. -/
theorem count_self_append (c : α) (sub t : List α) :
    count (c :: sub) (c :: sub ++ t) = count (c :: sub) t + 1 := by
  have hp : c :: sub <+: c :: (sub ++ t) := List.prefix_append (c :: sub) t
  rw [List.cons_append, count, countFrom, if_pos hp, countFrom_skip]
  simp

/-- A text shorter than the pattern has no match. -/
theorem countFrom_of_short (h : s.length < sub.length) (skip : Nat) : countFrom sub skip s = 0 := by
  induction s generalizing skip with
  | nil => rfl
  | cons a s ih =>
    have hs : s.length < sub.length := Nat.lt_of_succ_lt h
    cases skip with
    | succ skip => exact ih hs skip
    | zero =>
      -- what is shorter than `sub` does not begin with it
      have hp : ¬ sub <+: a :: s := fun hp => Nat.not_le_of_lt h hp.length_le
      rw [countFrom, if_neg hp]
      exact ih hs 0

/-- A longer string has no fewer occurrences. -/
theorem count_le_append (sub s t : List α) : count sub s ≤ count sub (s ++ t) := by
  suffices h : ∀ skip, countFrom sub skip s ≤ countFrom sub skip (s ++ t) from h 0
  induction s with
  | nil =>
    intro skip
    exact Nat.zero_le _
  | cons a s ih =>
    intro skip
    cases skip with
    | succ skip => exact ih skip
    | zero =>
      rw [List.cons_append]
      unfold countFrom
      by_cases hp : sub <+: a :: s
      · have hp' : sub <+: a :: (s ++ t) := hp.trans (List.prefix_append (a :: s) t)
        rw [if_pos hp, if_pos hp']
        have hle := ih (sub.length - 1)
        omega
      · rw [if_neg hp]
        -- an occurrence that only the longer string has
        split
        · rename_i hp'
          have hshort : ¬ sub.length ≤ (a :: s).length := fun hle =>
            hp (List.prefix_of_prefix_length_le hp' (List.prefix_append (a :: s) t) hle)
          rw [List.length_cons] at hshort
          rw [countFrom_of_short (by omega)]
          exact Nat.zero_le _
        · exact ih 0

end

/-! ## Runes -/

/-- What an invalid byte is decoded to. -/
def runeError : Nat := 0xfffd

/-- The rune at the front of `b :: s`, and how many bytes of `s` are part of it. -/
def decodeRune (b : UInt8) (s : List UInt8) : Nat × Nat :=
  if b.toNat < 0x80 then (b.toNat, 0)
  else if b.toNat < 0xc2 ∨ 0xf4 < b.toNat then (runeError, 0)
  else
    -- no overlong form, no surrogate, nothing above the last code point
    let lo := if b.toNat = 0xe0 then 0xa0 else if b.toNat = 0xf0 then 0x90 else 0x80
    let hi := if b.toNat = 0xed then 0x9f else if b.toNat = 0xf4 then 0x8f else 0xbf
    match s.map UInt8.toNat with
    | [] => (runeError, 0)
    | b1 :: s =>
      if b1 < lo ∨ hi < b1 then (runeError, 0)
      else if b.toNat < 0xe0 then (b.toNat % 32 * 64 + b1 % 64, 1)
      else
        match s with
        | [] => (runeError, 0)
        | b2 :: s =>
          if b2 < 0x80 ∨ 0xbf < b2 then (runeError, 0)
          else if b.toNat < 0xf0 then (b.toNat % 16 * 4096 + b1 % 64 * 64 + b2 % 64, 2)
          else
            match s with
            | [] => (runeError, 0)
            | b3 :: _ =>
              if b3 < 0x80 ∨ 0xbf < b3 then (runeError, 0)
              else (b.toNat % 8 * 262144 + b1 % 64 * 4096 + b2 % 64 * 64 + b3 % 64, 3)

/-- The runes that `for range` gives after the first `skip` bytes. -/
def runesFrom : Nat → List UInt8 → List Nat
  | _, [] => []
  | skip + 1, _ :: s => runesFrom skip s
  | 0, b :: s => (decodeRune b s).1 :: runesFrom (decodeRune b s).2 s

/-- The runes of a string, as `for range` gives them. -/
def runes (s : List UInt8) : List Nat := runesFrom 0 s

-- two bytes, a byte that cannot occur, a surrogate's three bytes, four bytes
example : runes [0xc3, 0xa9, 0xff, 0xed, 0xa0, 0x80, 0xf0, 0x9f, 0x98, 0x80] =
    [0xe9, runeError, runeError, runeError, runeError, 0x1f600] := by decide

/-- An ASCII byte is a character by itself. -/
theorem decodeRune_of_lt {b : UInt8} (h : b.toNat < 0x80) (s : List UInt8) :
    decodeRune b s = (b.toNat, 0) := if_pos h

/-- A byte that is not ASCII begins a rune that is not ASCII. -/
theorem le_decodeRune {b : UInt8} (h : 0x80 ≤ b.toNat) (s : List UInt8) :
    0x80 ≤ (decodeRune b s).1 := by
  unfold decodeRune runeError
  rw [if_neg (by omega)]
  split
  · decide
  · rename_i hb
    dsimp only
    split
    · decide
    · rename_i b1 s' _
      generalize hlo : (if b.toNat = 0xe0 then 0xa0 else if b.toNat = 0xf0 then 0x90 else 0x80) = lo
      generalize hhi : (if b.toNat = 0xed then 0x9f else if b.toNat = 0xf4 then 0x8f else 0xbf) = hi
      have hhi : hi ≤ 0xbf := by
        rw [← hhi]
        split
        · decide
        · split <;> decide
      split
      · decide
      · rename_i hb1
        split
        · show 0x80 ≤ b.toNat % 32 * 64 + b1 % 64
          omega
        · rename_i htwo
          split
          · decide
          · rename_i b2 _ _
            split
            · decide
            · split
              · -- three bytes: the lower bound on `b1` excludes the overlong forms
                show 0x80 ≤ b.toNat % 16 * 4096 + b1 % 64 * 64 + b2 % 64
                have hlow : b.toNat = 0xe0 → 0xa0 ≤ b1 := by
                  intro he0
                  rw [if_pos he0] at hlo
                  omega
                omega
              · rename_i hthree
                split
                · decide
                · rename_i b3 _ _
                  split
                  · decide
                  · show 0x80 ≤ b.toNat % 8 * 262144 + b1 % 64 * 4096 + b2 % 64 * 64 + b3 % 64
                    have hlow : b.toNat = 0xf0 → 0x90 ≤ b1 := by
                      intro hf0
                      rw [if_neg (by omega), if_pos hf0] at hlo
                      omega
                    omega

variable {β : Type u} {f : β → Nat → Option β}

/-- A loop that returns at the first rune that is not ASCII sees the bytes. -/
theorem foldlM_runes (hf : ∀ acc rune, 0x80 ≤ rune → f acc rune = none) (s : List UInt8)
    (acc : β) : (runes s).foldlM f acc = (s.map UInt8.toNat).foldlM f acc := by
  induction s generalizing acc with
  | nil => rfl
  | cons b s ih =>
    rw [runes, runesFrom, List.map_cons, List.foldlM_cons, List.foldlM_cons]
    by_cases hb : b.toNat < 0x80
    · rw [decodeRune_of_lt hb]
      exact congrArg (f acc b.toNat).bind (funext ih)
    · rw [hf acc _ (Nat.le_of_not_lt hb), hf acc _ (le_decodeRune (Nat.le_of_not_lt hb) s)]
      rfl

end Strings
