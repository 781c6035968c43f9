import Mathlib.Data.Fintype.Card
import Kgd.ForStd.List
import Kgd.ForStd.Run

/-!
# A table of slots that are taken and left

Callers share a table of slots. A caller takes the slot of its key if the slot is not taken,
and leaves it later; in between, the contents of the slots are updated by others. Several keys
can belong to one slot.

## Key results

- `SlotTable.Step.exclusive`: a slot is held by one caller at a time
- `SlotTable.Step.covered`: a slot that is taken is held
- `SlotTable.length_eq_card_iff`: as many callers as slots hold one exactly if all slots are held
- `SlotTable.Step.held`: what a caller's slot holds after a step: nothing yet, or what the step
  has made of its contents
- `SlotTable.exclusive_of_run`, `SlotTable.covered_of_run`: the same over the runs of a system
  whose steps are such steps
-/

variable {τ : Type u} {κ : Type v} {ι : Type w} {β : Type x}

/-- The slots, and for each caller the key whose slot it holds. -/
structure SlotTable (τ : Type u) (κ : Type v) (ι : Type w) (β : Type x) where
  claim : τ → Option κ
  box : ι → β

namespace SlotTable

variable (slot : κ → ι) (taken : β → Bool) (fresh : β)

/-- Steps, labelled with what they do to contents of slots that stay taken. -/
inductive Step [DecidableEq τ] [DecidableEq ι] (T : SlotTable τ κ ι β) :
    (ι → β → β) → SlotTable τ κ ι β → Prop
  | take {t k} (hclaim : T.claim t = none) (hfree : taken (T.box (slot k)) = false) :
    Step T (fun _ b => b)
      ⟨Function.update T.claim t (some k), Function.update T.box (slot k) fresh⟩
  | leave {t k} (b : β) (hclaim : T.claim t = some k) (hleft : taken b = false) :
    Step T (fun _ b => b)
      ⟨Function.update T.claim t none, Function.update T.box (slot k) b⟩
  | touch (f : ι → β → β) (htaken : ∀ i, taken (f i (T.box i)) = taken (T.box i)) :
    Step T f ⟨T.claim, fun i => f i (T.box i)⟩

/-- A slot that is held is taken, and by one caller only. -/
structure Exclusive (T : SlotTable τ κ ι β) : Prop where
  taken : ∀ {t k}, T.claim t = some k → taken (T.box (slot k)) = true
  unique : ∀ {t t' k k'}, T.claim t = some k → T.claim t' = some k' → slot k = slot k' → t = t'

/-- A slot that is taken is held by some caller. -/
def Covered (T : SlotTable τ κ ι β) : Prop :=
  ∀ i, taken (T.box i) = true → ∃ t k, T.claim t = some k ∧ slot k = i

variable {slot taken fresh}
variable {T T' : SlotTable τ κ ι β} {f : ι → β → β} {t : τ} {k : κ}

/-- Nobody holds a slot. -/
theorem Exclusive.of_none (h : ∀ t, T.claim t = none) : Exclusive slot taken T where
  taken {t k} hclaim := by rw [h t] at hclaim; exact nomatch hclaim
  unique {t t' k k'} hclaim := by rw [h t] at hclaim; exact nomatch hclaim

variable [DecidableEq τ] [DecidableEq ι]

/-- A step that changes neither claims nor contents. -/
theorem Step.quiet (hclaim : T'.claim = T.claim) (hbox : T'.box = T.box) :
    Step slot taken fresh T (fun _ b => b) T' := by
  cases T'
  cases hclaim
  cases hbox
  exact .touch (fun _ b => b) fun _ => rfl

/-- Who holds a slot after a step held it before, or has just taken it. -/
theorem Step.claim_cases (h : Step slot taken fresh T f T') (hclaim : T'.claim t = some k) :
    T.claim t = some k ∨
      (T.claim t = none ∧ taken (T.box (slot k)) = false ∧ T'.box (slot k) = fresh ∧
        ∀ t', t' ≠ t → T'.claim t' = T.claim t') := by
  cases h with
  | touch f htaken => exact .inl hclaim
  | @take t₁ k₁ hnone hfree =>
    dsimp only at hclaim ⊢
    by_cases ht : t = t₁
    · subst ht
      rw [Function.update_self] at hclaim
      obtain rfl := Option.some.inj hclaim
      exact .inr ⟨hnone, hfree, Function.update_self .., fun t' ht' => Function.update_of_ne ht' ..⟩
    · rw [Function.update_of_ne ht] at hclaim
      exact .inl hclaim
  -- whoever leaves has no claim afterwards, so this one is somebody else's
  | @leave t₁ k₁ b hsome =>
    dsimp only at hclaim
    by_cases ht : t = t₁
    · rw [ht, Function.update_self] at hclaim
      exact nomatch hclaim
    · rw [Function.update_of_ne ht] at hclaim
      exact .inl hclaim

/-- The contents of a slot that somebody goes on holding. -/
theorem Step.box_of_claim (h : Step slot taken fresh T f T') (hx : Exclusive slot taken T)
    (hclaim : T.claim t = some k) (hclaim' : T'.claim t = some k) :
    T'.box (slot k) = f (slot k) (T.box (slot k)) := by
  cases h with
  | touch f htaken => rfl
  | @take t₁ k₁ hnone hfree =>
    -- the slot was free, so it is not the one that `t` holds
    have hne : slot k ≠ slot k₁ := by
      intro heq
      rw [← heq, hx.taken hclaim] at hfree
      exact nomatch hfree
    exact Function.update_of_ne hne ..
  | @leave t₁ k₁ b hsome =>
    have hne : slot k ≠ slot k₁ := by
      intro heq
      dsimp only at hclaim'
      rw [hx.unique hclaim hsome heq, Function.update_self] at hclaim'
      exact nomatch hclaim'
    exact Function.update_of_ne hne ..

/-- What a caller's slot holds after a step. -/
theorem Step.held (h : Step slot taken fresh T f T') (hx : Exclusive slot taken T)
    (hclaim : T'.claim t = some k) :
    (T.claim t = none ∧ T'.box (slot k) = fresh) ∨
      (T.claim t = some k ∧ T'.box (slot k) = f (slot k) (T.box (slot k))) := by
  rcases h.claim_cases hclaim with hbefore | ⟨hnone, -, hfresh, -⟩
  · exact .inr ⟨hbefore, h.box_of_claim hx hbefore hclaim⟩
  · exact .inl ⟨hnone, hfresh⟩

/-- A step keeps every slot with one holder at most, where a slot that has just been taken counts as
    taken. -/
theorem Step.exclusive (h : Step slot taken fresh T f T') (hx : Exclusive slot taken T)
    (hfresh : taken fresh = true) : Exclusive slot taken T' where
  taken {t k} hclaim := by
    rcases h.held hx hclaim with ⟨-, hbox⟩ | ⟨hbefore, hbox⟩
    · rw [hbox, hfresh]
    · rw [hbox]
      cases h with
      -- a touch keeps the box as it was, taken or not
      | touch f htaken => rw [htaken, hx.taken hbefore]
      | take | leave => exact hx.taken hbefore
  unique {t t' k k'} hclaim hclaim' heq := by
    rcases h.claim_cases hclaim with hbefore | ⟨-, hfree, -, hothers⟩
    · rcases h.claim_cases hclaim' with hbefore' | ⟨-, hfree', -, -⟩
      · exact hx.unique hbefore hbefore' heq
      · -- `t'` has taken a slot that was free, but `t` held it
        rw [← heq, hx.taken hbefore] at hfree'
        exact nomatch hfree'
    · by_contra hne
      rw [hothers t' (Ne.symm hne)] at hclaim'
      rw [heq, hx.taken hclaim'] at hfree
      exact nomatch hfree

/-- Whoever takes a slot holds it, and a slot that is left is not taken any more. -/
theorem Step.covered (h : Step slot taken fresh T f T') (hcov : Covered slot taken T) :
    Covered slot taken T' := by
  intro i hi
  cases h with
  | touch f htaken =>
    rw [htaken] at hi
    exact hcov i hi
  | @take t₁ k₁ hnone hfree =>
    by_cases hslot : slot k₁ = i
    · exact ⟨t₁, k₁, Function.update_self .., hslot⟩
    · dsimp only at hi
      rw [Function.update_of_ne (Ne.symm hslot)] at hi
      obtain ⟨t, k, hclaim, hk⟩ := hcov i hi
      refine ⟨t, k, ?_, hk⟩
      -- `t` held a slot before, so it is not the one that takes
      have hne : t ≠ t₁ := by
        rintro rfl
        rw [hnone] at hclaim
        exact nomatch hclaim
      exact (Function.update_of_ne hne ..).trans hclaim
  | @leave t₁ k₁ b hsome hleft =>
    have hslot : i ≠ slot k₁ := by
      rintro rfl
      dsimp only at hi
      rw [Function.update_self, hleft] at hi
      exact nomatch hi
    dsimp only at hi
    rw [Function.update_of_ne hslot] at hi
    obtain ⟨t, k, hclaim, rfl⟩ := hcov i hi
    refine ⟨t, k, ?_, rfl⟩
    have hne : t ≠ t₁ := by
      rintro rfl
      obtain rfl := Option.some.inj (hclaim.symm.trans hsome)
      exact hslot rfl
    exact (Function.update_of_ne hne ..).trans hclaim

/-! ## Runs -/

section Runs

variable {σ : Type y} {α : Type z} {step : σ → α → σ → Prop} {s₀ s : σ} {tr : List (Transition σ α)}
  {effect : σ → α → ι → β → β}

/-- If nobody holds a slot at first, a slot is held by one caller at a time. -/
theorem exclusive_of_run (table : σ → SlotTable τ κ ι β) (h : Run step s₀ tr s)
    (hstep : ∀ {s a s'}, step s a s' → Step slot taken fresh (table s) (effect s a) (table s'))
    (hfresh : taken fresh = true) (h₀ : ∀ t, (table s₀).claim t = none) :
    Exclusive slot taken (table s) :=
  h.invariant (I := fun s => Exclusive slot taken (table s)) (.of_none h₀)
    fun _ _ _ hx hs => (hstep hs).exclusive hx hfresh

/-- If no slot is taken at first, a slot that is taken is held. -/
theorem covered_of_run (table : σ → SlotTable τ κ ι β) (h : Run step s₀ tr s)
    (hstep : ∀ {s a s'}, step s a s' → Step slot taken fresh (table s) (effect s a) (table s'))
    (h₀ : ∀ i, taken ((table s₀).box i) = false) : Covered slot taken (table s) := by
  refine h.invariant (I := fun s => Covered slot taken (table s)) ?_
    fun _ _ _ hcov hs => (hstep hs).covered hcov
  intro i hi
  rw [h₀ i] at hi
  exact nomatch hi

end Runs

/-! ## Callers in a list -/

/-- The table of callers that are numbered by their places in a list. -/
def ofList {σ : Type y} (held : σ → Option κ) (callers : List σ) (box : ι → β) :
    SlotTable Nat κ ι β :=
  ⟨fun c : Nat => callers[c]?.bind held, box⟩

section

variable {σ : Type y} {held : σ → Option κ} {callers : List σ} {box : ι → β} {c : Nat} {p q : σ}

omit [DecidableEq τ] [DecidableEq ι] in
/-- It is all the same whether callers are listed or what they hold. -/
theorem ofList_map : ofList id (callers.map held) box = ofList held callers box := by
  simp only [ofList, List.getElem?_map, Option.bind_map, Function.id_comp]

omit [DecidableEq ι] in
/-- A caller's claim, among the claims of all. -/
theorem claim_ofList_iff :
    (ofList held callers box).claim c = some k ↔ (callers.map held)[c]? = some (some k) :=
  List.bind_getElem?_eq_some_iff

/-- A new caller. -/
theorem Step.concat (hp : held p = none) :
    Step slot taken fresh (ofList held callers box) (fun _ b => b)
      (ofList held (callers ++ [p]) box) :=
  .quiet (List.bind_getElem?_concat hp) rfl

/-- A caller that goes on holding what it holds. -/
theorem Step.set (hc : callers[c]? = some q) (hheld : held p = held q) :
    Step slot taken fresh (ofList held callers box) (fun _ b => b)
      (ofList held (callers.set c p) box) :=
  .quiet (List.bind_getElem?_set_of_eq hc hheld) rfl

/-- One of the callers that held nothing takes a free slot. -/
theorem Step.setTake (hc : callers[c]? = some q) (hq : held q = none) (hp : held p = some k)
    (hfree : taken (box (slot k)) = false) :
    Step slot taken fresh (ofList held callers box) (fun _ b => b)
      (ofList held (callers.set c p) (Function.update box (slot k) fresh)) := by
  have hclaim : (ofList held callers box).claim c = none := by
    show callers[c]?.bind held = none
    rw [hc, Option.bind_some, hq]
  -- the list with one caller changed is the table with one claim changed
  have hset : ofList held (callers.set c p) (Function.update box (slot k) fresh) =
      ⟨Function.update (ofList held callers box).claim c (some k),
        Function.update (ofList held callers box).box (slot k) fresh⟩ := by
    rw [ofList, List.bind_getElem?_set hc, hp]
    rfl
  rw [hset]
  exact .take hclaim hfree

/-- One of the callers leaves its slot, which is then free. -/
theorem Step.setLeave (b : β) (hc : callers[c]? = some q) (hq : held q = some k)
    (hp : held p = none) (hb : taken b = false) :
    Step slot taken fresh (ofList held callers box) (fun _ b => b)
      (ofList held (callers.set c p) (Function.update box (slot k) b)) := by
  have hclaim : (ofList held callers box).claim c = some k := by
    show callers[c]?.bind held = some k
    rw [hc, Option.bind_some, hq]
  -- the list with one caller changed is the table with one claim changed
  have hset : ofList held (callers.set c p) (Function.update box (slot k) b) =
      ⟨Function.update (ofList held callers box).claim c none,
        Function.update (ofList held callers box).box (slot k) b⟩ := by
    rw [ofList, List.bind_getElem?_set hc, hp]
    rfl
  rw [hset]
  exact .leave b hclaim hb

/-- An update of slots that leaves them taken as they were. -/
theorem Step.ofTouch {box' : ι → β} (f : ι → β → β) (hbox : box' = fun i => f i (box i))
    (htaken : ∀ i, taken (f i (box i)) = taken (box i)) :
    Step slot taken fresh (ofList held callers box) f (ofList held callers box') := by
  subst hbox
  exact .touch f htaken

omit [DecidableEq ι] in
/-- The keys that are held, as claims. -/
theorem mem_filterMap_held {k : κ} :
    k ∈ callers.filterMap held ↔ ∃ c : Nat, callers[c]?.bind held = some k := by
  rw [List.mem_filterMap]
  constructor
  · intro hx
    obtain ⟨p, hp, hk⟩ := hx
    obtain ⟨c, hc⟩ := List.getElem?_of_mem hp
    exact ⟨c, by rw [hc, Option.bind_some, hk]⟩
  · intro hx
    obtain ⟨c, hc⟩ := hx
    obtain ⟨p, hp, hk⟩ := Option.bind_eq_some_iff.mp hc
    exact ⟨p, List.mem_of_getElem? hp, hk⟩

omit [DecidableEq ι] in
/-- A taken slot is the slot of one of the callers. -/
theorem taken_iff (hx : Exclusive slot taken (ofList held callers box))
    (hcov : Covered slot taken (ofList held callers box)) (i : ι) :
    taken (box i) = true ↔ ∃ k ∈ callers.filterMap held, slot k = i := by
  constructor
  · intro hi
    obtain ⟨c, k, hclaim, hk⟩ := hcov i hi
    exact ⟨k, mem_filterMap_held.mpr ⟨c, hclaim⟩, hk⟩
  · intro hmem
    obtain ⟨k, hk, rfl⟩ := hmem
    obtain ⟨c, hclaim⟩ := mem_filterMap_held.mp hk
    exact hx.taken (t := c) hclaim

omit [DecidableEq ι] in
/-- No two callers of a list hold the same slot. -/
theorem nodup_slots (hx : Exclusive slot taken (ofList held callers box)) :
    ((callers.filterMap held).map slot).Nodup := by
  rw [List.map_filterMap, List.Nodup, List.pairwise_filterMap, List.pairwise_iff_getElem]
  intro c c' hc hc' hlt i hi i' hi' heq
  simp only [Option.map_eq_some_iff] at hi hi'
  obtain ⟨k, hk, rfl⟩ := hi
  obtain ⟨k', hk', rfl⟩ := hi'
  have hclaim : (ofList held callers box).claim c = some k := by
    show callers[c]?.bind held = some k
    rw [List.getElem?_eq_getElem hc, Option.bind_some, hk]
  have hclaim' : (ofList held callers box).claim c' = some k' := by
    show callers[c']?.bind held = some k'
    rw [List.getElem?_eq_getElem hc', Option.bind_some, hk']
  -- two callers of one slot would be one caller
  have hsame := hx.unique hclaim hclaim' heq
  omega

/-- As many callers hold a slot as there are slots exactly if every slot is held. -/
theorem length_eq_card_iff [Fintype ι] (hx : Exclusive slot taken (ofList held callers box)) :
    (callers.filterMap held).length = Fintype.card ι ↔
      ∀ i, ∃ k ∈ callers.filterMap held, slot k = i := by
  have hnodup := nodup_slots hx
  rw [← List.length_map (f := slot), ← List.toFinset_card_of_nodup hnodup,
    Finset.card_eq_iff_eq_univ, Finset.eq_univ_iff_forall]
  simp only [List.mem_toFinset, List.mem_map]

end

end SlotTable
