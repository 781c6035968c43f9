import Kgd.ForStd.List

/-!
# Steps of a system whose parts are in a list

A system has a list of parts, as a program has its calls. A step leaves the list alone, adds a
part at the end, or moves one part; the part whose turn it is does move.

## Key results

- `ListStep.forward`, `ListStep.backward`: the parts before and after a step
- `ListStep.moved`: the part whose turn it is
-/

variable {α : Type*}

/-- One step on a list of parts. `turn` is the part whose turn it is, if it is one's. -/
inductive ListStep (fresh : α → Prop) (moves : Nat → α → α → Prop) (turn : Option Nat)
    (l l' : List α) : Prop
  | same (h : l' = l) (hturn : turn = none)
  | concat {a : α} (h : l' = l ++ [a]) (hturn : turn = none) (ha : fresh a)
  | modify {i : Nat} {f : α → α} (h : l' = l.modify i f)
    (hturn : ∀ j ∈ turn, j = i ∧ ∃ a, l[i]? = some a)
    (hmoves : ∀ a, l[i]? = some a → moves i a (f a))

namespace ListStep

variable {fresh : α → Prop} {moves : Nat → α → α → Prop} {turn : Option Nat} {l l' : List α}
  {i : Nat} {a a' : α}

/-- The part whose turn it is moves. -/
theorem ofTurn {f : α → α} (h : l' = l.modify i f) (hi : l[i]? = some a) (hm : moves i a (f a)) :
    ListStep fresh moves (some i) l l' := by
  refine .modify h (fun j hj => ⟨(Option.some.inj hj).symm, a, hi⟩) fun a' ha' => ?_
  obtain rfl := Option.some.inj (hi.symm.trans ha')
  exact hm

/-- A part is moved by another one, if it is there. -/
theorem ofTouch {f : α → α} (h : l' = l.modify i f) (hm : ∀ a, moves i a (f a)) :
    ListStep fresh moves none l l' :=
  .modify h (fun _ hj => nomatch hj) fun a _ => hm a

/-- A part stays or moves. -/
theorem forward (h : ListStep fresh moves turn l l') (hi : l[i]? = some a) :
    ∃ a', l'[i]? = some a' ∧ (a' = a ∨ moves i a a') := by
  cases h with
  | same h _ => exact ⟨a, h ▸ hi, .inl rfl⟩
  | concat h _ _ =>
    refine ⟨a, ?_, .inl rfl⟩
    rw [h]
    exact List.getElem?_concat_of_some _ hi
  | @modify j f h _ hmoves =>
    rw [h, List.getElem?_modify, hi]
    by_cases hij : j = i
    · subst hij
      exact ⟨f a, by simp, .inr (hmoves a hi)⟩
    · exact ⟨a, by simp [hij], .inl rfl⟩

/-- A part was there, moves, or is new. -/
theorem backward (h : ListStep fresh moves turn l l') (hi : l'[i]? = some a') :
    l[i]? = some a' ∨ (∃ a, l[i]? = some a ∧ moves i a a') ∨ i = l.length ∧ fresh a' := by
  cases h with
  | same h _ => exact .inl (h ▸ hi)
  | concat h _ ha =>
    rw [h] at hi
    rcases List.getElem?_concat_eq_some.mp hi with hold | ⟨hlast, rfl⟩
    · exact .inl hold
    · exact .inr (.inr ⟨hlast, ha⟩)
  -- the element at the index of the step has moved, every other one is as it was
  | @modify j f h _ hmoves =>
    rw [h, List.getElem?_modify, Option.map_eq_map, Option.map_eq_some_iff] at hi
    obtain ⟨a, hi, rfl⟩ := hi
    by_cases hij : j = i
    · subst hij
      rw [if_pos rfl]
      exact .inr (.inl ⟨a, hi, hmoves a hi⟩)
    · rw [if_neg hij]
      exact .inl hi

/-- A step at an index moves the element there. -/
theorem moved (h : ListStep fresh moves (some i) l l') :
    ∃ a a', l[i]? = some a ∧ moves i a a' ∧ l'[i]? = some a' := by
  cases h with
  | same _ hturn | concat _ hturn _ => exact nomatch hturn
  | @modify j f h hturn hmoves =>
    obtain ⟨rfl, a, ha⟩ := hturn i rfl
    refine ⟨a, f a, ha, hmoves a ha, ?_⟩
    rw [h, List.getElem?_modify, ha]
    simp

end ListStep
