import Kgd.ForStd.PrefixNotation

/-!
# Streams of values in prefix notation

A reader that has received a part of a stream takes the complete values off its front and keeps
what is left until more arrives. How the stream was cut into parts does not matter, and nothing
is taken before its last element has arrived.

A reader may know only some of the items of a format. It cannot tell an item it does not know
from one that is incomplete, and then it waits for ever.

## Key results

- `PrefixNotation.foldl_feed`, `PrefixNotation.foldl_view`: reading parts is splitting the whole
- `PrefixNotation.split_values`: a stream of values is split into these values
- `PrefixNotation.await_split_eq`, `PrefixNotation.await_split_stuck`: what a reader takes that
  wants to see more after some items
- `PrefixNotation.Fillable.exists_skip_iff`: what is not complete yet can be completed unless an
  unknown item is in the way
-/

universe u v w

namespace PrefixNotation

variable {α : Type u} (f : PrefixNotation α)

/-- There is no item in nothing. -/
theorem head_nil : f.head [] = none := by
  cases hhead : f.head [] with
  | none => rfl
  | some item =>
    have hpos := f.head_pos hhead
    have hle := f.head_le hhead
    rw [List.length_nil] at hle
    omega

/-- There is no value in nothing. -/
theorem skip_nil (k : Nat) : f.skip (k + 1) [] = none := by
  rw [skip_succ, head_nil, Option.bind_none]

/-- The values at the front, by their first item. -/
theorem skip_succ_item (k : Nat) (as : List α) :
    f.skip (k + 1) as = (f.item as).bind fun item => f.skip (item.1 + k) item.2 := by
  rw [skip_succ, item]
  cases f.head as <;> rfl

/-- A proper prefix of some values is not that many values, whatever their number. -/
theorem skip_of_prefix {k : Nat} {p as : List α} (hp : p <+: as) (hne : p ≠ as)
    (has : f.skip k as = some []) : f.skip k p = none := by
  obtain ⟨q, rfl⟩ := hp
  cases hskip : f.skip k p with
  | none => rfl
  | some rest =>
    rw [f.skip_append q hskip] at has
    have hq : q = [] := (List.append_eq_nil_iff.mp (Option.some.inj has)).2
    rw [hq, List.append_nil] at hne
    exact absurd rfl hne

/-- An item is found in its own elements: no more of the input is looked at. -/
def Exact : Prop := ∀ ⦃as n m⦄, f.head as = some (n, m) → f.head (as.take n) = some (n, m)

variable {f} in
/-- Values that are found before something else are found without it. -/
theorem Exact.skip_of_append (hf : f.Exact) {k : Nat} {v rest : List α}
    (h : f.skip k (v ++ rest) = some rest) : f.skip k v = some [] := by
  induction hn : v.length using Nat.strongRecOn generalizing k v with
  | ind len ih =>
    cases k with
    | zero =>
      rw [skip_zero] at h ⊢
      rw [List.append_left_eq_self.mp (Option.some.inj h)]
    | succ k =>
      rw [skip_succ] at h
      obtain ⟨⟨n, m⟩, hhead, hskip⟩ := Option.bind_eq_some_iff.mp h
      have hpos := f.head_pos hhead
      have hle := f.head_le hhead
      -- the item ends before the rest, which is still to be reached
      have hrest := (f.skip_suffix hskip).length_le
      rw [List.length_append] at hle
      rw [List.length_drop, List.length_append] at hrest
      have hv := f.head_append (v.drop n) (hf hhead)
      rw [List.take_append_of_le_length (by omega), List.take_append_drop] at hv
      rw [List.drop_append_of_le_length (by omega)] at hskip
      rw [skip_succ, hv]
      exact ih (v.drop n).length (by rw [List.length_drop]; omega) hskip rfl

variable {f} in
/-- What is skipped is a value. -/
theorem Exact.isValue_of_skip (hf : f.Exact) {as rest : List α} (h : f.skip 1 as = some rest) :
    ∃ v, f.IsValue v ∧ as = v ++ rest := by
  obtain ⟨v, rfl⟩ := f.skip_suffix h
  exact ⟨v, hf.skip_of_append h, rfl⟩

/-! ## Splitting a stream -/

/-- `split`, for at most so many values. -/
def splitValues : Nat → List α → List (List α) × List α
  | 0, as => ([], as)
  | fuel + 1, as =>
    match f.skip 1 as with
    | none => ([], as)
    | some rest =>
      let s := splitValues fuel rest
      (as.take (as.length - rest.length) :: s.1, s.2)

/-- The complete values at the front, and what is left. -/
def split (as : List α) : List (List α) × List α := f.splitValues as.length as

/-- A value is not empty, so the length of the input is enough fuel. -/
theorem splitValues_of_length_le (fuel : Nat) (as : List α) (h : as.length ≤ fuel) :
    f.splitValues fuel as = f.split as := by
  rw [split]
  -- on the length: a value takes an element at least, so the fuel lasts
  induction hn : as.length using Nat.strongRecOn generalizing fuel as with
  | ind n ih =>
    cases hskip : f.skip 1 as with
    | none => cases fuel <;> cases n <;> simp [splitValues, hskip]
    | some rest =>
      have hlt := f.length_skip_lt hskip
      obtain ⟨fuel, rfl⟩ : ∃ g, fuel = g + 1 := ⟨fuel - 1, by omega⟩
      obtain ⟨n, rfl⟩ : ∃ g, n = g + 1 := ⟨n - 1, by omega⟩
      simp only [splitValues, hskip]
      rw [ih rest.length (by omega) fuel rest (by omega) rfl,
        ih rest.length (by omega) n rest (by omega) rfl]

/-- Without a complete value at the start nothing is split off. -/
theorem split_of_none {as : List α} (h : f.skip 1 as = none) : f.split as = ([], as) := by
  rw [← f.splitValues_of_length_le _ as (Nat.le_succ as.length), splitValues, h]

/-- A complete value at the start is the first of the values, and the rest is split by itself. -/
theorem split_of_some {as rest : List α} (h : f.skip 1 as = some rest) :
    f.split as =
      (as.take (as.length - rest.length) :: (f.split rest).1, (f.split rest).2) := by
  have hlt := f.length_skip_lt h
  rw [← f.splitValues_of_length_le _ as (Nat.le_succ as.length), splitValues, h]
  dsimp only
  rw [f.splitValues_of_length_le _ rest (by omega)]

/-- There is nothing to split in nothing. -/
@[simp] theorem split_nil : f.split [] = ([], []) := f.split_of_none (f.skip_nil 0)

/-- Nothing complete is left over. -/
theorem skip_split (as : List α) : f.skip 1 (f.split as).2 = none := by
  induction hn : as.length using Nat.strongRecOn generalizing as with
  | ind n ih =>
    cases hskip : f.skip 1 as with
    | none => rwa [f.split_of_none hskip]
    | some rest =>
      have hlt := f.length_skip_lt hskip
      rw [f.split_of_some hskip]
      exact ih rest.length (by omega) rest rfl

/-- What follows is split together with what is left. -/
theorem split_append (as bs : List α) :
    f.split (as ++ bs) =
      ((f.split as).1 ++ (f.split ((f.split as).2 ++ bs)).1,
        (f.split ((f.split as).2 ++ bs)).2) := by
  induction hn : as.length using Nat.strongRecOn generalizing as with
  | ind n ih =>
    cases hskip : f.skip 1 as with
    | none => simp [f.split_of_none hskip]
    | some rest =>
      have hlt := f.length_skip_lt hskip
      -- the value taken off is the same with and without `bs`
      have hlen : (as ++ bs).length - (rest ++ bs).length = as.length - rest.length := by
        rw [List.length_append, List.length_append]
        omega
      rw [f.split_of_some (f.skip_append bs hskip), f.split_of_some hskip,
        ih rest.length (by omega) rest rfl, hlen, List.take_append_of_le_length (by omega)]
      simp

/-- A reader's values and what it has kept, after one more part of the stream. -/
def feed (s : List (List α) × List α) (part : List α) : List (List α) × List α :=
  (s.1 ++ (f.split (s.2 ++ part)).1, (f.split (s.2 ++ part)).2)

/-- Feeding parts is splitting the whole. -/
theorem foldl_feed (parts : List (List α)) :
    parts.foldl f.feed ([], []) = f.split parts.flatten := by
  -- the induction is on the parts, from any values and any incomplete rest
  suffices hmain : ∀ values kept, f.skip 1 kept = none →
      parts.foldl f.feed (values, kept) =
        (values ++ (f.split (kept ++ parts.flatten)).1, (f.split (kept ++ parts.flatten)).2) by
    simpa using hmain [] [] (f.skip_nil 0)
  induction parts with
  | nil =>
    intro values kept hkept
    simp [f.split_of_none hkept]
  | cons part parts ih =>
    intro values kept _
    rw [List.foldl_cons, feed, ih _ _ (f.skip_split _), List.flatten_cons, ← List.append_assoc,
      f.split_append (kept ++ part)]
    simp

/-- A program that reads a part at a time, and whose state shows the values and what is kept, has
    split the whole. -/
theorem foldl_view {γ : Type v} {σ : Type w} {read : σ → γ → σ} {part : γ → List α}
    (view : List (List α) × List α → σ) {inputs : List γ}
    (h : ∀ c ∈ inputs, ∀ s, read (view s) c = view (f.feed s (part c))) :
    inputs.foldl read (view ([], [])) = view (f.split (inputs.flatMap part)) := by
  rw [List.flatMap, ← f.foldl_feed, List.foldl_map]
  -- from any state, since each part is read where the last one has left off
  generalize ([], []) = s
  induction inputs generalizing s with
  | nil => rfl
  | cons c inputs ih =>
    rw [List.foldl_cons, List.foldl_cons, h c List.mem_cons_self]
    exact ih (fun d hd => h d (List.mem_cons_of_mem c hd)) _

/-- A stream of values is split into these values. -/
theorem split_values {values : List (List α)} (h : ∀ v ∈ values, f.IsValue v) (rest : List α) :
    f.split (values.flatten ++ rest) =
      (values ++ (f.split rest).1, (f.split rest).2) := by
  induction values with
  | nil => simp
  | cons v values ih =>
    have hv : f.skip 1 (v ++ (values.flatten ++ rest)) = some (values.flatten ++ rest) := by
      have happend := f.skip_append (values.flatten ++ rest) (h v List.mem_cons_self)
      rwa [List.nil_append] at happend
    have hlen : (v ++ (values.flatten ++ rest)).length - (values.flatten ++ rest).length =
        v.length := by
      rw [List.length_append]
      omega
    rw [List.flatten_cons, List.append_assoc, f.split_of_some hv, hlen,
      ih fun w hw => h w (List.mem_cons_of_mem v hw)]
    simp

/-- A stream of values is split into these values, with nothing left. -/
theorem split_flatten {values : List (List α)} (h : ∀ v ∈ values, f.IsValue v) :
    f.split values.flatten = (values, []) := by
  have hsplit := f.split_values h []
  rw [List.append_nil] at hsplit
  simpa using hsplit

/-- The values and what is left over are all of the input. -/
theorem flatten_split (as : List α) : (f.split as).1.flatten ++ (f.split as).2 = as := by
  induction hn : as.length using Nat.strongRecOn generalizing as with
  | ind n ih =>
    cases hskip : f.skip 1 as with
    | none => simp [f.split_of_none hskip]
    | some rest =>
      have hlt := f.length_skip_lt hskip
      obtain ⟨v, rfl⟩ := f.skip_suffix hskip
      -- what is cut off is the value that was skipped
      have hv : (v ++ rest).take ((v ++ rest).length - rest.length) = v := by
        rw [List.length_append, Nat.add_sub_cancel, List.take_left]
      rw [f.split_of_some hskip, hv, List.flatten_cons, List.append_assoc,
        ih rest.length (by omega) rest rfl]

/-- What is left over is at the end. -/
theorem split_suffix (as : List α) : (f.split as).2 <:+ as := ⟨_, f.flatten_split as⟩

/-- What has arrived of a stream of values is split into the first of these values. -/
theorem split_of_prefix {values : List (List α)} (h : ∀ v ∈ values, f.IsValue v) {as : List α}
    (has : as <+: values.flatten) : (f.split as).1 <+: values := by
  obtain ⟨bs, hbs⟩ := has
  have hsplit := f.split_flatten h
  rw [← hbs, f.split_append] at hsplit
  exact ⟨_, congrArg Prod.fst hsplit⟩

/-- After a value of a stream the stream goes on. -/
theorem prefix_after_value {values : List (List α)} (h : ∀ v ∈ values, f.IsValue v)
    {as rest bs : List α} (hskip : f.skip 1 as = some rest) (has : as ++ bs <+: values.flatten) :
    ∃ v values', values = v :: values' ∧ rest ++ bs <+: values'.flatten := by
  obtain ⟨cs, hcs⟩ := has
  rw [List.append_assoc] at hcs
  -- skipping one value of the whole stream gives the same rest both ways
  have hstream := f.skip_append (bs ++ cs) hskip
  rw [hcs] at hstream
  cases values with
  | nil =>
    rw [List.flatten_nil, skip_nil] at hstream
    exact nomatch hstream
  | cons v values' =>
    have hv := f.skip_append values'.flatten (h v List.mem_cons_self)
    rw [List.flatten_cons, hv, List.nil_append] at hstream
    refine ⟨v, values', rfl, cs, ?_⟩
    rw [List.append_assoc]
    exact (Option.some.inj hstream).symm

/-- An incomplete rest of a stream is a proper prefix of a value. -/
theorem prefix_of_incomplete {values : List (List α)} (h : ∀ v ∈ values, f.IsValue v)
    {as : List α} (hne : as ≠ []) (hskip : f.skip 1 as = none) (has : as <+: values.flatten) :
    ∃ v ∈ values, as <+: v ∧ as ≠ v := by
  cases values with
  | nil => exact absurd (List.prefix_nil.mp has) hne
  | cons v values =>
    have hv := h v List.mem_cons_self
    -- with all of the first value there, one could be skipped
    have hnot : ¬ v <+: as := by
      rintro ⟨bs, rfl⟩
      rw [f.skip_append bs hv] at hskip
      exact nomatch hskip
    refine ⟨v, List.mem_cons_self, ?_, fun heq => hnot (heq ▸ List.prefix_refl as)⟩
    exact (List.prefix_or_prefix_of_prefix has (List.prefix_append v _)).resolve_right hnot

/-- What is left over is what a reader has after the number of elements that it has taken. -/
theorem drop_split (as : List α) :
    (if as.length - (f.split as).2.length < as.length
      then as.drop (as.length - (f.split as).2.length) else []) = (f.split as).2 := by
  obtain ⟨front, hfront⟩ := f.split_suffix as
  have hlen : as.length = front.length + (f.split as).2.length := by
    rw [← List.length_append, hfront]
  split
  · rw [show as.length - (f.split as).2.length = front.length by omega]
    conv_lhs => rw [← hfront]
    exact List.drop_left
  · rename_i hall
    exact (List.length_eq_zero_iff.mp (by omega)).symm

/-! ## Knowing some of the items -/

/-- The items that start with an element of `known`. -/
def restrict (known : α → Bool) : PrefixNotation α where
  head as := if (as.head?.map known).getD false then f.head as else none
  head_pos {as n k} h := by
    split at h
    · exact f.head_pos h
    · exact nomatch h
  head_le {as n k} h := by
    split at h
    · exact f.head_le h
    · exact nomatch h
  head_append {as n k} bs h := by
    split at h
    · rename_i hknown
      have hknown' : (((as ++ bs).head?).map known).getD false = true := by
        cases as with
        | nil => exact nomatch hknown
        | cons a as => exact hknown
      rw [if_pos hknown']
      exact f.head_append bs h
    · exact nomatch h

variable {f} {known : α → Bool}

/-- An item that starts with a known element is as before. -/
theorem restrict_head_cons {a : α} (as : List α) (h : known a = true) :
    (f.restrict known).head (a :: as) = f.head (a :: as) :=
  if_pos h

/-- An item that starts with an unknown element is not found. -/
theorem restrict_head_unknown {a : α} (as : List α) (h : known a = false) :
    (f.restrict known).head (a :: as) = none := by
  refine if_neg ?_
  show ¬ known a = true
  rw [h]
  exact Bool.false_ne_true

/-- An item that is found starts with a known element. -/
theorem known_of_head {a : α} {as : List α} {item : Nat × Nat}
    (h : (f.restrict known).head (a :: as) = some item) : known a = true := by
  cases hknown : known a with
  | true => rfl
  | false =>
    rw [restrict_head_unknown as hknown] at h
    exact nomatch h

/-- An item that is found is one of the notation. -/
theorem head_of_restrict {as : List α} {item : Nat × Nat}
    (h : (f.restrict known).head as = some item) : f.head as = some item := by
  cases as with
  | nil =>
    rw [head_nil] at h
    exact nomatch h
  | cons a as =>
    have hknown := known_of_head h
    rwa [restrict_head_cons as hknown] at h

/-- Restricting the first elements looks at no more of the input. -/
theorem Exact.restrict (hf : f.Exact) (known : α → Bool) : (f.restrict known).Exact := by
  intro as n m h
  cases as with
  | nil =>
    rw [head_nil] at h
    exact nomatch h
  | cons a as =>
    have hpos := (f.restrict known).head_pos h
    obtain ⟨n, rfl⟩ : ∃ n', n = n' + 1 := ⟨n - 1, by omega⟩
    have hhead := hf (head_of_restrict h)
    rw [List.take_succ_cons] at hhead ⊢
    rwa [restrict_head_cons _ (known_of_head h)]

variable (f known) in
/-- On the way through `k` values there is an item that is not known. -/
inductive Blocked : Nat → List α → Prop
  | here {k : Nat} {a : α} {as : List α} (h : known a = false) : Blocked (k + 1) (a :: as)
  | later {k n m : Nat} {as : List α} (hhead : (f.restrict known).head as = some (n, m))
    (h : Blocked (m + k) (as.drop n)) : Blocked (k + 1) as

/-- What is blocked stays so. -/
theorem Blocked.skip_append {k : Nat} {as : List α} (h : Blocked f known k as) (bs : List α) :
    (f.restrict known).skip k (as ++ bs) = none := by
  induction h with
  | here h => rw [List.cons_append, skip_succ, restrict_head_unknown _ h, Option.bind_none]
  | @later k n m as hhead h ih =>
    rw [skip_succ, (f.restrict known).head_append bs hhead, Option.bind_some,
      List.drop_append_of_le_length ((f.restrict known).head_le hhead)]
    exact ih

variable (f known) in
/-- Any item that is known can be completed with copies of an element that is itself an item. -/
structure Fillable (z : α) : Prop where
  known_fill : known z = true
  head : ∀ as, f.head (z :: as) = some (1, 0)
  complete : ∀ {a : α} {as}, known a = true → f.head (a :: as) = none →
    ∃ n m, f.head (a :: as ++ List.replicate n z) = some ((a :: as).length + n, m)

/-- Copies of an element that is an item are as many values. -/
theorem Fillable.skip_replicate {z : α} (h : Fillable f known z) (k : Nat) :
    (f.restrict known).skip k (List.replicate k z) = some [] := by
  induction k with
  | zero => rw [skip_zero, List.replicate_zero]
  | succ k ih =>
    rw [List.replicate_succ, skip_succ, restrict_head_cons _ h.known_fill, h.head, Option.bind_some]
    simpa using ih

/-- What is not blocked can be completed. -/
theorem Fillable.exists_skip {z : α} (hfill : Fillable f known z) {k : Nat} {as : List α}
    (hnone : (f.restrict known).skip k as = none) (h : ¬ Blocked f known k as) :
    ∃ n, (f.restrict known).skip k (as ++ List.replicate n z) = some [] := by
  induction k, as using (f.restrict known).skip_induction with
  | done as =>
    rw [skip_zero] at hnone
    exact nomatch hnone
  | incomplete k as hhead =>
    cases as with
    | nil => exact ⟨k + 1, hfill.skip_replicate (k + 1)⟩
    | cons a as =>
      have hknown : known a = true := by
        cases hknown : known a with
        | true => rfl
        | false => exact absurd (.here hknown) h
      rw [restrict_head_cons as hknown] at hhead
      obtain ⟨n, m, hcomplete⟩ := hfill.complete hknown hhead
      -- complete the item, then its operands and the values that are still to come
      refine ⟨n + (m + k), ?_⟩
      have hsplit : a :: as ++ List.replicate (n + (m + k)) z =
          (a :: as ++ List.replicate n z) ++ List.replicate (m + k) z := by
        rw [List.replicate_add, List.append_assoc]
      have hlen : (a :: as ++ List.replicate n z).length = (a :: as).length + n := by
        rw [List.length_append, List.length_replicate]
      have hitem : (f.restrict known).head (a :: as ++ List.replicate n z) =
          some ((a :: as).length + n, m) :=
        (restrict_head_cons (as ++ List.replicate n z) hknown).trans hcomplete
      rw [hsplit, skip_succ, (f.restrict known).head_append _ hitem, Option.bind_some, ← hlen,
        List.drop_left]
      exact hfill.skip_replicate (m + k)
  | item k as n m hhead ih =>
    rw [skip_succ, hhead, Option.bind_some] at hnone
    obtain ⟨j, hj⟩ := ih hnone fun hblocked => h (.later hhead hblocked)
    refine ⟨j, ?_⟩
    rw [skip_succ, (f.restrict known).head_append _ hhead, Option.bind_some,
      List.drop_append_of_le_length ((f.restrict known).head_le hhead)]
    exact hj

/-- What is not complete yet can be completed unless an unknown item is in the way. -/
theorem Fillable.exists_skip_iff {z : α} (hfill : Fillable f known z) {k : Nat} {as : List α}
    (hnone : (f.restrict known).skip k as = none) :
    (∃ bs, ((f.restrict known).skip k (as ++ bs)).isSome = true) ↔ ¬ Blocked f known k as := by
  constructor
  · intro hbs hblocked
    obtain ⟨bs, hbs⟩ := hbs
    rw [hblocked.skip_append bs] at hbs
    exact nomatch hbs
  · intro h
    obtain ⟨n, hn⟩ := hfill.exists_skip hnone h
    exact ⟨List.replicate n z, by rw [hn]; rfl⟩

/-! ## Waiting for more -/

/-- A reader does not wait for more after `n` elements: the first element is not in `p`, or
    something follows. -/
def hasMore (p : α → Bool) (as : List α) (n : Nat) : Bool :=
  !(as.head?.any p) || decide (n < as.length)

/-- What has arrived later does not make the reader wait again. -/
theorem hasMore_append {p : α → Bool} {as : List α} {n : Nat} (hne : as ≠ []) (bs : List α)
    (h : hasMore p as n = true) : hasMore p (as ++ bs) n = true := by
  cases as with
  | nil => exact absurd rfl hne
  | cons a as =>
    simp only [hasMore, List.cons_append, List.head?_cons, Bool.or_eq_true,
      decide_eq_true_eq, List.length_cons, List.length_append] at h ⊢
    exact h.imp_right fun hlt => by omega

variable (f) in
/-- The items, but one that starts with an element of `p` is only taken when something follows
    it. -/
def await (p : α → Bool) : PrefixNotation α where
  head as := (f.head as).filter fun item => hasMore p as item.1
  head_pos {as n k} h := f.head_pos (Option.eq_some_of_filter_eq_some h)
  head_le {as n k} h := f.head_le (Option.eq_some_of_filter_eq_some h)
  head_append {as n k} bs h := by
    obtain ⟨hhead, hmore⟩ := Option.filter_eq_some_iff.mp h
    have hne : as ≠ [] := by
      intro hnil
      rw [hnil, head_nil] at hhead
      exact nomatch hhead
    rw [f.head_append bs hhead]
    exact Option.filter_some_pos (hasMore_append hne bs hmore)

variable {p : α → Bool}

/-- An item that is found by waiting is one of the notation. -/
theorem head_of_await {as : List α} {item : Nat × Nat} (h : (f.await p).head as = some item) :
    f.head as = some item :=
  Option.eq_some_of_filter_eq_some h

/-- An item with something after it is taken. -/
theorem await_head_of_lt {as : List α} {n m : Nat} (h : f.head as = some (n, m))
    (hlt : n < as.length) : (f.await p).head as = some (n, m) := by
  show (f.head as).filter (fun item => hasMore p as item.1) = _
  rw [h]
  exact Option.filter_some_pos (by simp [hasMore, hlt])

/-- An item that the reader does not wait behind is as before. -/
theorem await_item_of_not {a : α} (h : p a = false) (as : List α) :
    (f.await p).item (a :: as) = f.item (a :: as) := by
  have hfilter : (f.await p).head (a :: as) = f.head (a :: as) := by
    show (f.head (a :: as)).filter (fun item => hasMore p (a :: as) item.1) = _
    cases f.head (a :: as) with
    | none => rfl
    | some item => exact Option.filter_some_pos (by simp [hasMore, h])
  rw [item, hfilter, item]

/-- What is taken is there. -/
theorem skip_of_await {k : Nat} {as rest : List α} (h : (f.await p).skip k as = some rest) :
    f.skip k as = some rest := by
  induction k, as using (f.await p).skip_induction with
  | done as => rwa [skip_zero] at h ⊢
  | incomplete k as hhead => simp [skip_succ, hhead] at h
  | item k as n m hhead ih =>
    rw [skip_succ, hhead] at h
    rw [skip_succ, head_of_await hhead]
    exact ih h

/-- What is not there is not taken. -/
theorem await_skip_of_none {k : Nat} {as : List α} (h : f.skip k as = none) (p : α → Bool) :
    (f.await p).skip k as = none := by
  cases hskip : (f.await p).skip k as with
  | none => rfl
  | some rest =>
    rw [skip_of_await hskip] at h
    exact nomatch h

/-- What has something after it is taken. -/
theorem await_skip_of_ne_nil {k : Nat} {as rest : List α} (h : f.skip k as = some rest)
    (hrest : rest ≠ []) : (f.await p).skip k as = some rest := by
  induction k, as using f.skip_induction with
  | done as => rwa [skip_zero] at h ⊢
  | incomplete k as hhead => simp [skip_succ, hhead] at h
  | item k as n m hhead ih =>
    rw [skip_succ, hhead, Option.bind_some] at h
    -- something is left at the end, so something follows this item
    have hlen := (f.skip_suffix h).length_le
    have hpos := List.length_pos_of_ne_nil hrest
    rw [List.length_drop] at hlen
    rw [skip_succ, await_head_of_lt hhead (by omega), Option.bind_some]
    exact ih h

variable (f p) in
/-- The last item of `k` values, which are all of the input, starts with an element of `p`. -/
inductive EndsIn : Nat → List α → Prop
  | last {n : Nat} {as : List α} (hhead : f.head as = some (n, 0)) (hlen : as.length = n)
      (hp : as.head?.any p = true) : EndsIn 1 as
  | later {k n m : Nat} {as : List α} (hhead : f.head as = some (n, m))
      (h : EndsIn (m + k) (as.drop n)) : EndsIn (k + 1) as

/-- With nothing after it, what ends in an item of `p` is not taken. -/
theorem await_skip_eq_none_iff {k : Nat} {as : List α} (h : f.skip (k + 1) as = some []) :
    (f.await p).skip (k + 1) as = none ↔ EndsIn f p (k + 1) as := by
  induction hn : as.length using Nat.strongRecOn generalizing k as with
  | ind len ih =>
    rw [skip_succ] at h
    obtain ⟨⟨n, m⟩, hhead, hskip⟩ := Option.bind_eq_some_iff.mp h
    have hpos := f.head_pos hhead
    have hle := f.head_le hhead
    have hdrop : (as.drop n).length = as.length - n := List.length_drop
    cases hmk : m + k with
    | zero =>
      -- the item is the last one
      obtain ⟨rfl, rfl⟩ : m = 0 ∧ k = 0 := by omega
      have hnil : as.drop n = [] := by
        dsimp only at hskip
        rw [Nat.add_zero, skip_zero] at hskip
        exact Option.some.inj hskip
      have hlen : as.length = n := by
        rw [hnil, List.length_nil] at hdrop
        omega
      have hawait : (f.await p).head as = if as.head?.any p then none else some (n, 0) := by
        show (f.head as).filter (fun item => hasMore p as item.1) = _
        rw [hhead, Option.filter_some]
        cases hp : as.head?.any p <;> simp [hasMore, hp, hlen]
      rw [skip_succ, hawait]
      cases hp : as.head?.any p with
      | true => exact ⟨fun _ => .last hhead hlen hp, fun _ => rfl⟩
      | false =>
        constructor
        · intro hnone
          simp [hnil] at hnone
        · intro hends
          cases hends with
          | last _ _ hp' =>
            rw [hp] at hp'
            exact nomatch hp'
          | later hhead' h' =>
            obtain ⟨rfl, rfl⟩ := Prod.mk.inj (Option.some.inj (hhead.symm.trans hhead'))
            exact nomatch h'
    | succ j =>
      -- there are more items
      dsimp only at hskip
      rw [hmk] at hskip
      have hrest : as.drop n ≠ [] := by
        intro hnil
        rw [hnil, skip_nil] at hskip
        exact nomatch hskip
      have hrestpos := List.length_pos_of_ne_nil hrest
      rw [skip_succ, await_head_of_lt hhead (by omega), Option.bind_some]
      dsimp only
      rw [hmk, ih _ (by omega) hskip rfl]
      constructor
      · intro hends
        exact .later hhead (hmk ▸ hends)
      · intro hends
        cases hends with
        | last hhead' =>
          obtain ⟨-, rfl⟩ := Prod.mk.inj (Option.some.inj (hhead.symm.trans hhead'))
          omega
        | later hhead' h' =>
          obtain ⟨rfl, rfl⟩ := Prod.mk.inj (Option.some.inj (hhead.symm.trans hhead'))
          rwa [hmk] at h'

/-- Values with something after them are taken. -/
theorem await_split_values {values : List (List α)} (h : ∀ v ∈ values, f.IsValue v)
    {rest : List α} (hrest : rest ≠ []) :
    (f.await p).split (values.flatten ++ rest) =
      (values ++ ((f.await p).split rest).1, ((f.await p).split rest).2) := by
  induction values with
  | nil => simp
  | cons v values ih =>
    have hv := f.skip_append (values.flatten ++ rest) (h v List.mem_cons_self)
    rw [List.nil_append] at hv
    -- something follows each of the values, so the reader does not wait behind it
    have hawait : (f.await p).skip 1 (v ++ (values.flatten ++ rest)) =
        some (values.flatten ++ rest) := await_skip_of_ne_nil hv (by simp [hrest])
    have hlen : (v ++ (values.flatten ++ rest)).length - (values.flatten ++ rest).length =
        v.length := by
      rw [List.length_append]
      omega
    rw [List.flatten_cons, List.append_assoc, (f.await p).split_of_some hawait, hlen,
      ih fun w hw => h w (List.mem_cons_of_mem v hw)]
    simp

/-- A value has elements. -/
theorem ne_nil_of_isValue {v : List α} (h : f.IsValue v) : v ≠ [] := by
  rintro rfl
  rw [IsValue, skip_nil] at h
  exact nomatch h

/-- A last value that ends in an item of `p` is left over. -/
theorem await_split_stuck {values : List (List α)} {v : List α}
    (h : ∀ w ∈ values ++ [v], f.IsValue w) (hends : EndsIn f p 1 v) :
    (f.await p).split (values ++ [v]).flatten = (values, v) := by
  have hv := h v (by simp)
  have hstuck : (f.await p).skip 1 v = none := (await_skip_eq_none_iff hv).mpr hends
  rw [List.flatten_append, List.flatten_singleton,
    await_split_values (fun w hw => h w (List.mem_append_left [v] hw)) (ne_nil_of_isValue hv),
    (f.await p).split_of_none hstuck, List.append_nil]

/-- If the last value does not end in an item of `p`, or something follows, all are taken. -/
theorem await_split_eq {values : List (List α)} (h : ∀ v ∈ values, f.IsValue v) {kept : List α}
    (hkept : f.skip 1 kept = none)
    (hends : kept = [] → ∀ v, values.getLast? = some v → ¬ EndsIn f p 1 v) :
    (f.await p).split (values.flatten ++ kept) = (values, kept) := by
  -- nothing follows the last value, so its end decides whether it is taken
  by_cases hnil : kept = []
  · subst hnil
    rw [List.append_nil]
    rcases List.eq_nil_or_concat values with rfl | ⟨init, v, rfl⟩
    · exact (f.await p).split_nil
    rw [List.concat_eq_append] at h hends ⊢
    have hv := h v (by simp)
    have htaken : (f.await p).skip 1 v = some [] := by
      cases hskip : (f.await p).skip 1 v with
      | none => exact absurd ((await_skip_eq_none_iff hv).mp hskip) (hends rfl v (by simp))
      | some rest =>
        have hv' := skip_of_await hskip
        rw [hv] at hv'
        exact hv'.symm
    rw [List.flatten_append, List.flatten_singleton,
      await_split_values (fun w hw => h w (List.mem_append_left [v] hw)) (ne_nil_of_isValue hv),
      (f.await p).split_of_some htaken]
    simp
  -- what is kept follows all the values
  · rw [await_split_values h hnil, (f.await p).split_of_none (await_skip_of_none hkept p),
      List.append_nil]

end PrefixNotation
