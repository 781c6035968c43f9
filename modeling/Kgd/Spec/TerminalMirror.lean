import Kgd.Spec.EngineSteps

/-!
# The terminal mirrors the engine

`Engine.Mirrors` says that what the terminal shows is what the engine holds as rendered:
each rendered placement at its resolved position, and nothing else. Every input that evicts
no image keeps this, whatever the order of map iteration and whichever `Place` calls fail.

The handlers that touch many placements emit one piece of output a placement, and each
piece is about that placement alone; so a pair on display can be followed through the
output by looking at one piece (`Terminal.applyAll_flatMap_shown`). `Engine.shown_step` says
what an input does to one pair, evictions included.

## Key results

- `Engine.mirrors_step`: one input
- `World.mirrors_of_step`: from any reachable engine
- `World.mirrors_of_runs`: whole runs without eviction
-/

namespace Kgd

/-- A `Delete` that frees a whole image, as eviction issues it. -/
def Action.freesImage : Action → Bool
  | .gfx (.delete _ _ free) => free
  | _ => false

/-- Actions none of which frees an image. -/
def EvictsNothing (out : List Action) : Prop := ∀ a ∈ out, a.freesImage = false

instance (out : List Action) : Decidable (EvictsNothing out) :=
  inferInstanceAs (Decidable (∀ a ∈ out, a.freesImage = false))

/-! ## Following one pair through the output -/

namespace Terminal

/-- What a call does to one pair depends on that pair only. -/
theorem apply_shown_congr (call : GfxCall) {t t' : Terminal} {i p : UInt32}
    (h : t.shown i p = t'.shown i p) : (t.apply call).shown i p = (t'.apply call).shown i p := by
  cases call with
  | transmit => exact h
  | place imageID pid row col info ok => cases ok <;> simp [apply, setShown, h]
  | delete imageID pid free => cases free <;> simp [apply, setShown, h]
  | beginBatch => exact h
  | flushBatch => exact h

/-- Actions do to a placement on display what they do whatever else is there. -/
theorem applyAll_shown_congr (out : List Action) {t t' : Terminal} {i p : UInt32}
    (h : t.shown i p = t'.shown i p) :
    (t.applyAll out).shown i p = (t'.applyAll out).shown i p := by
  induction out generalizing t t' with
  | nil => exact h
  | cons a out ih =>
    rw [applyAll_cons, applyAll_cons]
    apply ih
    cases a with
    | gfx call => exact apply_shown_congr call h
    | _ => exact h

/-- In the output of a loop over placements only the piece for `p` matters for `(i, p)`. -/
theorem applyAll_flatMap_shown {ks : List UInt32} (hks : ks.Nodup)
    {piece : UInt32 → List Action} (hpiece : ∀ k ∈ ks, ForPlacement k (piece k)) (t : Terminal)
    (i p : UInt32) :
    (t.applyAll (ks.flatMap piece)).shown i p =
      if p ∈ ks then (t.applyAll (piece p)).shown i p else t.shown i p := by
  induction ks generalizing t with
  | nil => rfl
  | cons k ks ih =>
    have hk := hpiece k List.mem_cons_self
    have hrest : ∀ k ∈ ks, ForPlacement k (piece k) := fun k' hk' =>
      hpiece k' (List.mem_cons_of_mem _ hk')
    rw [List.nodup_cons] at hks
    rw [List.flatMap_cons, applyAll_append, ih hks.2 hrest]
    by_cases hp : p = k
    · -- the piece for `p` comes first and none of the others is about it
      subst hp
      rw [if_neg hks.1, if_pos List.mem_cons_self]
    · have hsame : (t.applyAll (piece k)).shown i p = t.shown i p :=
        applyAll_shown_of_forPlacement hk t hp
      by_cases hmem : p ∈ ks
      · rw [if_pos hmem, if_pos (List.mem_cons_of_mem _ hmem)]
        exact applyAll_shown_congr (piece p) hsame
      · rw [if_neg hmem, if_neg (by simp [hp, hmem]), hsame]

/-- Actions that transmit or free images take pairs off the display at most, and none of them
    if no image is freed. -/
theorem applyAll_shown_of_images {out : List Action}
    (himages : ∀ call, Action.gfx call ∈ out → call.touchesImages = true) (t : Terminal)
    (i p : UInt32) :
    (t.applyAll out).shown i p = t.shown i p ∨
      ((t.applyAll out).shown i p = none ∧ ¬ EvictsNothing out) := by
  induction out generalizing t with
  | nil => exact Or.inl rfl
  | cons a out ih =>
    have hrest := ih (fun call hc => himages call (List.mem_cons_of_mem _ hc)) (t.act a)
    have hevicts : EvictsNothing (a :: out) → EvictsNothing out := fun h b hb =>
      h b (List.mem_cons_of_mem _ hb)
    rw [applyAll_cons]
    -- freeing an image takes all its placements off the screen
    by_cases hfree : a.freesImage = true
    · have hnot : ¬ EvictsNothing (a :: out) := fun h =>
        absurd ((h a List.mem_cons_self).symm.trans hfree) (by decide)
      rcases hrest with hsame | ⟨hnone, -⟩
      · rw [hsame]
        cases a with
        | gfx call =>
          cases call with
          | delete imageID pid free =>
            have hfree : free = true := hfree
            by_cases hi : i = imageID
            · exact Or.inr ⟨by simp [act, apply, hfree, hi], hnot⟩
            · exact Or.inl (by simp [act, apply, hfree, hi])
          | _ => cases hfree
        | _ => cases hfree
      · exact Or.inr ⟨hnone, hnot⟩
    · -- of the calls that touch images only a free changes the display
      have hact : (t.act a).shown = t.shown := by
        cases a with
        | gfx call =>
          have hcall := himages call List.mem_cons_self
          cases call with
          | transmit => rfl
          | delete => exact absurd hcall hfree
          | place | beginBatch | flushBatch => cases hcall
        | _ => rfl
      rcases hrest with hsame | ⟨hnone, hnot⟩
      · exact Or.inl (by rw [hsame, hact])
      · exact Or.inr ⟨hnone, fun h => hnot (hevicts h)⟩

end Terminal

/-! ## The mirror -/

/-- What the terminal should show for an image on behalf of a placement. -/
def Placement.display (p : Placement) (imageID : UInt32) : Option (Int64 × Int64) :=
  if p.rendered = true ∧ p.kittyImgID = imageID then some (p.termRow, p.termCol) else none

namespace Engine

/-- The terminal shows exactly the rendered placements, each at its resolved position. -/
def Mirrors (e : Engine) (t : Terminal) : Prop :=
  ∀ imageID placementID pos, t.shown imageID placementID = some pos ↔
    ∃ (k : UInt32) (p : Placement), e.placements[k]? = some p ∧ p.rendered = true ∧
      p.kittyImgID = imageID ∧ p.id = placementID ∧ (p.termRow, p.termCol) = pos

/-- Only visible placements are rendered. -/
def RenderedVisible (e : Engine) : Prop :=
  ∀ (k : UInt32) (p : Placement), e.placements[k]? = some p → p.rendered = true →
    p.visible = true

/-- Every placement is stored under its own ID. -/
def Keyed (e : Engine) : Prop :=
  ∀ (k : UInt32) (p : Placement), e.placements[k]? = some p → p.id = k

/-- What the terminal should show for an (image, placement) pair. -/
def display (e : Engine) (imageID placementID : UInt32) : Option (Int64 × Int64) :=
  e.placements[placementID]?.bind (Placement.display · imageID)

/-- What the engine displays is rendered, where it was rendered. -/
theorem display_eq_some {e : Engine} {i pid : UInt32} {pos : Int64 × Int64} :
    e.display i pid = some pos ↔ ∃ p, e.placements[pid]? = some p ∧
      (p.rendered = true ∧ p.kittyImgID = i) ∧ (p.termRow, p.termCol) = pos := by
  simp only [display, Option.bind_eq_some_iff, Placement.display, Option.ite_none_right_eq_some,
    Option.some.injEq]

/-- The terminal mirrors the engine exactly if it displays what the engine does. -/
theorem mirrors_iff {e : Engine} (hkeyed : e.Keyed) (t : Terminal) :
    e.Mirrors t ↔ ∀ i pid, t.shown i pid = e.display i pid := by
  have hlookup : ∀ i pid pos, e.display i pid = some pos ↔
      ∃ (k : UInt32) (p : Placement), e.placements[k]? = some p ∧ p.rendered = true ∧
        p.kittyImgID = i ∧ p.id = pid ∧ (p.termRow, p.termCol) = pos := by
    intro i pid pos
    rw [display_eq_some]
    constructor
    · intro h
      obtain ⟨p, hp, ⟨hr, hi⟩, hpos⟩ := h
      exact ⟨pid, p, hp, hr, hi, hkeyed pid p hp, hpos⟩
    · intro h
      obtain ⟨k, p, hp, hr, hi, hid, hpos⟩ := h
      -- a record is stored under its own ID, so there is one to ask
      have hk : p.id = k := hkeyed k p hp
      exact ⟨p, by rw [← hid, hk]; exact hp, ⟨hr, hi⟩, hpos⟩
  constructor
  · intro h i pid
    exact Option.ext fun pos => (h i pid pos).trans (hlookup i pid pos).symm
  · intro h i pid pos
    rw [h i pid, hlookup]

/-! ### One placement

The output for a placement either brings a pair to what it should be, or leaves both the pair
and what it should be alone. -/

/-- The graphics calls of `recomputePlacements` for one placement. -/
theorem shown_recomputeOne (env : Env) {e : Engine} (hgfx : e.gfx = true) (p : Placement)
    (t : Terminal) (i : UInt32) :
    (t.applyAll (e.recomputeOne env p).2).shown i p.id = (e.recomputeOne env p).1.display i ∨
      ((t.applyAll (e.recomputeOne env p).2).shown i p.id = t.shown i p.id ∧
        (e.recomputeOne env p).1.display i = p.display i) := by
  -- the notification comes last and draws nothing
  have hnotes : ∀ t : Terminal, ∀ b : Bool, t.applyAll
      (if b then [Action.notifyClient p.clientID
        (.visibilityChanged p.id (e.resolve p).visible)] else []) = t := by
    intro t b; cases b <;> rfl
  simp only [recomputeOne, hgfx, Bool.not_true, Bool.false_eq_true, ↓reduceIte,
    Terminal.applyAll_append, hnotes, rerender]
  by_cases hi : p.kittyImgID = i
  · -- the four cases of the source: appear, disappear, move, stay
    split
    · rename_i hcase
      have hr : p.rendered = false := by simpa using (Bool.and_eq_true_iff.mp hcase).2
      cases hok : env.placeOk p.id
      · exact Or.inr (by simp [Terminal.act, Terminal.apply, Placement.display, hr])
      · exact Or.inl (by simp [Terminal.act, Terminal.apply, Terminal.setShown,
          Placement.display, hi])
    · split
      · exact Or.inl (by simp [Terminal.act, Terminal.apply, Terminal.setShown, Placement.display,
          hi])
      · split
        · -- deleted at the old position, shown at the new one unless the call fails
          cases hok : env.placeOk p.id <;>
            exact Or.inl (by simp [Terminal.act, Terminal.apply, Terminal.setShown,
              Placement.display, hi])
        · -- rendered at this position already, or hidden and not rendered
          rename_i hvis hhid hmove
          refine Or.inr ⟨rfl, ?_⟩
          unfold Placement.display
          by_cases hr : p.rendered = true
          · have hv : (e.resolve p).visible = true := by simpa [hr] using hhid
            have hpos : (e.resolve p).row = p.termRow ∧ (e.resolve p).col = p.termCol := by
              simpa [hr, hv] using hmove
            simp [hpos.1, hpos.2]
          · simp [hr]
  · -- the calls are about another image
    refine Or.inr ⟨?_, by simp [Placement.display, hi]⟩
    split
    · cases env.placeOk p.id <;>
        simp [Terminal.act, Terminal.apply, Terminal.setShown, Ne.symm hi]
    · split
      · simp [Terminal.act, Terminal.apply, Terminal.setShown, Ne.symm hi]
      · split
        · cases env.placeOk p.id <;>
            simp [Terminal.act, Terminal.apply, Terminal.setShown, Ne.symm hi]
        · rfl

/-- After a recomputation the rendered placements are visible. -/
theorem visible_of_recomputeOne (env : Env) {e : Engine} (hgfx : e.gfx = true) (p : Placement)
    (h : (e.recomputeOne env p).1.rendered = true) : (e.recomputeOne env p).1.visible = true := by
  revert h
  simp only [recomputeOne, hgfx, Bool.not_true, Bool.false_eq_true, ↓reduceIte, rerender]
  cases (e.resolve p).visible <;> cases p.rendered <;> simp

/-- Deleting a rendered placement takes it off the display. -/
theorem shown_deleteRendered {e : Engine} (hgfx : e.gfx = true) (p : Placement) (t : Terminal)
    (i : UInt32) :
    (t.applyAll (e.deleteRendered p)).shown i p.id = none ∨
      ((t.applyAll (e.deleteRendered p)).shown i p.id = t.shown i p.id ∧ none = p.display i) := by
  unfold deleteRendered
  by_cases hr : p.rendered = true
  · by_cases hi : p.kittyImgID = i
    · exact Or.inl (by simp [hr, gfxCalls, hgfx, Terminal.act, Terminal.apply, Terminal.setShown,
        hi])
    · exact Or.inr (by simp [hr, gfxCalls, hgfx, Terminal.act, Terminal.apply, Terminal.setShown,
        hi, Ne.symm hi, Placement.display])
  · exact Or.inr (by simp [hr, Placement.display])

/-- A new placement appears on the terminal if it is visible and the call succeeds. -/
theorem shown_placeCalls (env : Env) {e : Engine} (hgfx : e.gfx = true) {p : Placement}
    (hp : p.rendered = (p.visible && env.placeOk p.id)) (t : Terminal) (i : UInt32) :
    (t.applyAll (e.placeCalls env p)).shown i p.id = p.display i ∨
      ((t.applyAll (e.placeCalls env p)).shown i p.id = t.shown i p.id ∧ p.display i = none) := by
  unfold placeCalls
  -- hidden, refused, or drawn
  cases hv : p.visible
  · exact Or.inr (by simp [Placement.display, hp, hv])
  · cases hok : env.placeOk p.id
    · exact Or.inr (by simp [gfxCalls, hgfx, Terminal.act, Terminal.apply, Placement.display, hp,
        hok])
    · by_cases hi : p.kittyImgID = i
      · exact Or.inl (by simp [gfxCalls, hgfx, Terminal.act, Terminal.apply, Terminal.setShown,
          Placement.display, hp, hv, hok, hi])
      · exact Or.inr (by simp [gfxCalls, hgfx, Terminal.act, Terminal.apply, Terminal.setShown,
          Placement.display, hi, Ne.symm hi])

/-- The calls of a place request are about the new placement. -/
theorem isFor_of_placeCalls (env : Env) (e : Engine) (p : Placement) :
    ForPlacement p.id (e.placeCalls env p) := by
  intro call hc
  unfold placeCalls at hc
  split at hc
  · rw [gfx_mem_gfxCalls, List.mem_singleton] at hc
    rw [hc.2]; simp [GfxCall.isFor]
  · cases hc

/-! ### Loops over all placements -/

/-- In the output of a loop over placements stored under their own IDs, what matters for a pair
    is what the body emits for its placement. -/
theorem shown_visit {β : Type} (order : RangeOrder UInt32) (body : Placement → β)
    (emit : β → List Action) {placements : GoMap UInt32 Placement}
    (hkeyed : ∀ (k : UInt32) (p : Placement), placements[k]? = some p → p.id = k)
    (hfor : ∀ p, ForPlacement p.id (emit (body p))) (t : Terminal) (i pid : UInt32) :
    (t.applyAll ((order.visit placements.keys).flatMap fun k =>
        (placements[k]?.map body).elim [] emit)).shown i pid =
      placements[pid]?.elim (t.shown i pid) fun p =>
        (t.applyAll (emit (body p))).shown i pid := by
  -- each round of the loop is about the placement stored under its key
  have hpiece : ∀ k ∈ order.visit placements.keys,
      ForPlacement k ((placements[k]?.map body).elim [] emit) := by
    intro k _
    cases hk : placements[k]? with
    | none => intro call hc; exact nomatch hc
    | some p =>
      have hid := hkeyed k p hk
      exact hid ▸ hfor p
  rw [Terminal.applyAll_flatMap_shown (GoMap.nodup_visit order placements) hpiece]
  cases hk : placements[pid]? with
  | none =>
    have hmem : pid ∉ order.visit placements.keys := by
      rw [GoMap.mem_visit, Std.ExtTreeMap.mem_iff_isSome_getElem?, hk]; exact nofun
    rw [if_neg hmem]
    rfl
  | some p =>
    have hmem : pid ∈ order.visit placements.keys := by
      rw [GoMap.mem_visit]; exact GoMap.mem_of_getElem? hk
    rw [if_pos hmem]
    rfl

/-- A loop whose body follows one placement follows all of them. -/
theorem shown_rangeUpdate (order : RangeOrder UInt32)
    (body : Placement → Option Placement × List Action) {placements : GoMap UInt32 Placement}
    (hkeyed : ∀ (k : UInt32) (p : Placement), placements[k]? = some p → p.id = k)
    (hfor : ∀ p, ForPlacement p.id (body p).2)
    (hone : ∀ p (t : Terminal) i,
      (t.applyAll (body p).2).shown i p.id = (body p).1.bind (Placement.display · i) ∨
        ((t.applyAll (body p).2).shown i p.id = t.shown i p.id ∧
          (body p).1.bind (Placement.display · i) = p.display i))
    (t : Terminal) (i pid : UInt32) :
    (t.applyAll (GoMap.rangeUpdate order (fun _ p => body p) placements).2).shown i pid =
        (GoMap.rangeUpdate order (fun _ p => body p) placements).1[pid]?.bind
          (Placement.display · i) ∨
      ((t.applyAll (GoMap.rangeUpdate order (fun _ p => body p) placements).2).shown i pid =
          t.shown i pid ∧
        (GoMap.rangeUpdate order (fun _ p => body p) placements).1[pid]?.bind
          (Placement.display · i) = placements[pid]?.bind (Placement.display · i)) := by
  rw [GoMap.rangeUpdate_snd, GoMap.rangeUpdate_getElem?,
    shown_visit order body Prod.snd hkeyed hfor]
  -- a placement that is not there is not visited
  cases hk : placements[pid]? with
  | none => exact Or.inr ⟨rfl, rfl⟩
  | some p =>
    have hid := hkeyed pid p hk
    rw [← hid]
    exact hone p t i

/-- Removing a client's placements brings each of them off the display, or leaves it. -/
theorem shown_removeOwned (env : Env) {e : Engine} (hgfx : e.gfx = true) (hkeyed : e.Keyed)
    (c : ClientID) (t : Terminal) (i pid : UInt32) :
    (t.applyAll (e.removeOwned env c).2).shown i pid = (e.removeOwned env c).1.display i pid ∨
      ((t.applyAll (e.removeOwned env c).2).shown i pid = t.shown i pid ∧
        (e.removeOwned env c).1.display i pid = e.display i pid) := by
  refine shown_rangeUpdate env.placementOrder
    (fun p => if p.clientID == c then (none, e.deleteRendered p) else (some p, [])) hkeyed ?_ ?_ t
    i pid
  -- each turn is about the placement it visits
  · intro p
    split
    · exact isFor_of_deleteRendered e p
    · intro call hc; exact nomatch hc
  · intro p t i
    split
    · exact shown_deleteRendered hgfx p t i
    · exact Or.inr ⟨rfl, rfl⟩

/-- A recomputation brings each placement to where the engine has it, or leaves it. -/
theorem shown_recomputePlacements (env : Env) {e : Engine} (hgfx : e.gfx = true)
    (hkeyed : e.Keyed) (t : Terminal) (i pid : UInt32) :
    (t.applyAll (e.recomputePlacements env).2).shown i pid =
        (e.recomputePlacements env).1.display i pid ∨
      ((t.applyAll (e.recomputePlacements env).2).shown i pid = t.shown i pid ∧
        (e.recomputePlacements env).1.display i pid = e.display i pid) := by
  have hbegin : ∀ t : Terminal, t.applyAll (e.gfxCalls [.beginBatch]) = t := by
    intro t; rw [gfxCalls, if_pos hgfx]; rfl
  have hflush : ∀ t : Terminal, t.applyAll (e.gfxCalls [.flushBatch]) = t := by
    intro t; rw [gfxCalls, if_pos hgfx]; rfl
  simp only [recomputePlacements, Terminal.applyAll_append, hbegin, hflush]
  exact shown_rangeUpdate env.placementOrder
    (fun p => (some (e.recomputeOne env p).1, (e.recomputeOne env p).2)) hkeyed
    (isFor_of_recomputeOne env e) (shown_recomputeOne env hgfx) t i pid

/-! ## The step lemmas -/

/-- Every step keeps placements under their own IDs. -/
theorem keyed_step {env : Env} {e e' : Engine} {input : Input} {out : List Action}
    (hkeyed : e.Keyed) (h : PlacementStep env e input out e') : e'.Keyed := by
  intro k p hp
  rcases placement_cases h hp with hp | ⟨c, params, kittyID, -, rfl, -, rfl⟩ |
    ⟨g, p₀, -, hp₀, rfl⟩
  · exact hkeyed k p hp
  · rfl
  · rw [recomputeOne_fst]
    exact hkeyed k p₀ hp₀

/-- What an input does to one pair on display, provided a new placement gets an ID of its
    own: it brings the pair to what it should be, or leaves both alone, or the image is
    evicted. -/
theorem shown_step {env : Env} {e e' : Engine} {input : Input} {out : List Action}
    (hgfx : e.gfx = true) (hkeyed : e.Keyed)
    (hfresh : e'.nextPlacement ≠ e.nextPlacement → e.nextPlacement + 1 ∉ e.placements)
    (hstep : PlacementStep env e input out e') (t : Terminal) (i pid : UInt32) :
    (t.applyAll out).shown i pid = e'.display i pid ∨
      (e'.display i pid = e.display i pid ∧
        ((t.applyAll out).shown i pid = t.shown i pid ∨
          ((t.applyAll out).shown i pid = none ∧ ¬ EvictsNothing out))) := by
  cases hstep with
  | same _ _ _ _ _ hplacements _ _ _ _ _ himages =>
    have hsame : e'.display i pid = e.display i pid := by rw [display, hplacements, display]
    exact Or.inr ⟨hsame, Terminal.applyAll_shown_of_images himages t i pid⟩
  | @place c params kittyID himage =>
    -- the new ID was no key before
    have hnone : e.placements[e.nextPlacement + 1]? = none :=
      Std.ExtTreeMap.getElem?_eq_none (hfresh (by simp))
    rw [Terminal.applyAll_append, Terminal.applyAll_of_noCalls (by simp)]
    by_cases hpid : pid = e.nextPlacement + 1
    · -- the new pair: nothing should have been shown for it
      subst hpid
      have hold : e.display i (e.nextPlacement + 1) = none := by rw [display, hnone]; rfl
      simp only [hold]
      rw [display, Std.ExtTreeMap.getElem?_insert_self, Option.bind_some]
      refine (shown_placeCalls env hgfx ?_ t i).imp_right fun h => ⟨h.2, Or.inl h.1⟩
      simp [placed, hgfx]
    · refine Or.inr ⟨?_, Or.inl (Terminal.applyAll_shown_of_forPlacement
        (isFor_of_placeCalls env e (e.placed env c params kittyID)) t hpid)⟩
      rw [display, GoMap.getElem?_insert_ne _ _ hpid, display]
  | @unplace pid' p hp =>
    have hid : p.id = pid' := hkeyed pid' p hp
    by_cases hpid : pid = pid'
    · -- the removed pair
      subst hpid
      have hnew : display { e with placements := e.placements.erase pid } i pid = none := by
        simp [display]
      have hold : e.display i pid = p.display i := by rw [display, hp]; rfl
      rw [hnew, hold, ← hid]
      exact (shown_deleteRendered hgfx p t i).imp_right fun h => ⟨h.2, Or.inl h.1⟩
    · refine Or.inr ⟨?_, Or.inl (Terminal.applyAll_shown_of_forPlacement
        (isFor_of_deleteRendered e p) t (hid ▸ hpid))⟩
      rw [display, GoMap.getElem?_erase_ne _ hpid, display]
  | unplaceAll =>
    exact (shown_removeOwned env hgfx hkeyed _ t i pid).imp_right fun h => ⟨h.2, Or.inl h.1⟩
  | @disconnect c _ hplacements =>
    have hsame : e'.display i pid = (e.removeOwned env c).1.display i pid := by
      rw [display, hplacements, display]
    rw [hsame]
    exact (shown_removeOwned env hgfx hkeyed _ t i pid).imp_right fun h => ⟨h.2, Or.inl h.1⟩
  | @recompute _ g notes hgeometry hnotes =>
    have hg := geometryUpdate_eq_some hgeometry
    have hsame : g.display i pid = e.display i pid := by rw [hg]; rfl
    rw [Terminal.applyAll_append, Terminal.applyAll_of_noCalls hnotes, ← hsame]
    refine (shown_recomputePlacements env ?_ ?_ t i pid).imp_right fun h => ⟨h.2, Or.inl h.1⟩
    · rw [hg]; exact hgfx
    · rw [hg]; exact hkeyed

/-- Every input that evicts nothing keeps the mirror. -/
theorem mirrors_step {env : Env} {e e' : Engine} {input : Input} {out : List Action} {t : Terminal}
    (hgfx : e.gfx = true) (hkeyed : e.Keyed) (hfresh : e.nextPlacement + 1 ∉ e.placements)
    (hm : e.Mirrors t) (hstep : PlacementStep env e input out e') (hout : EvictsNothing out) :
    e'.Mirrors (t.applyAll out) := by
  rw [mirrors_iff hkeyed] at hm
  rw [mirrors_iff (keyed_step hkeyed hstep)]
  intro i pid
  rcases shown_step hgfx hkeyed (fun _ => hfresh) hstep t i pid with h | ⟨hsame, h | ⟨-, hnot⟩⟩
  · exact h
  · rw [h, hsame, hm]
  · exact absurd hout hnot

/-- Every input keeps the rendered placements visible. -/
theorem renderedVisible_step {env : Env} {e e' : Engine} {input : Input} {out : List Action}
    (hgfx : e.gfx = true) (h : e.RenderedVisible) (hstep : PlacementStep env e input out e') :
    e'.RenderedVisible := by
  intro k p hp hr
  rcases placement_cases hstep hp with hp | ⟨c, params, kittyID, -, -, -, rfl⟩ |
    ⟨g, p₀, hgeometry, -, rfl⟩
  · exact h k p hp hr
  · simp only [placed, Bool.and_eq_true] at hr
    exact hr.1.1
  · refine visible_of_recomputeOne env ?_ p₀ hr
    rw [geometryUpdate_eq_some hgeometry]; exact hgfx

end Engine

namespace World

/-! ## Whole runs -/

section Runs
variable {hash128 : Data → Hash} {gfx notifier stopFunc inTmux : Bool} {maxSize : Int}
  {tr : List (Transition World Label)} {w : World}

theorem keyed_of_runs (h : Runs hash128 (Engine.new gfx notifier stopFunc inTmux maxSize) tr w) :
    w.engine.Keyed := by
  refine Run.invariant (I := fun w : World => w.engine.Keyed) ?_ ?_ h
  · intro k p hp
    simp [start, Engine.new] at hp
  · intro w l w' hkeyed hs
    obtain ⟨env, hr, -⟩ := hs
    exact Engine.keyed_step hkeyed (Engine.placementStep_of_receive hr)

/-- While the counter has not come round, it is the number of placements created, and all
    placement IDs are at most that. -/
theorem nextPlacement_of_runs
    (h : Runs hash128 (Engine.new gfx notifier stopFunc inTmux maxSize) tr w)
    (hcount : placementsCreated tr < 2 ^ 32) :
    w.engine.nextPlacement.toNat = placementsCreated tr ∧
      ∀ (k : UInt32) (p : Placement), w.engine.placements[k]? = some p →
        k.toNat ≤ placementsCreated tr := by
  revert hcount
  refine Run.historyInvariant (I := fun tr w => placementsCreated tr < 2 ^ 32 →
    w.engine.nextPlacement.toNat = placementsCreated tr ∧
      ∀ (k : UInt32) (p : Placement), w.engine.placements[k]? = some p →
        k.toNat ≤ placementsCreated tr) ?_ ?_ h
  · intro _
    refine ⟨by simp [start, Engine.new, placementsCreated], fun k p hp => ?_⟩
    simp [start, Engine.new] at hp
  · intro tr w l w' hrun ih hs hcount
    -- the count grows with the counter
    have hsum : placementsCreated (tr ++ [⟨w, l, w'⟩]) = placementsCreated tr +
        if w.engine.nextPlacement != w'.engine.nextPlacement then 1 else 0 := by
      simp [placementsCreated, List.countP_append, List.countP_cons]
    obtain ⟨hnext, hids⟩ := ih (by omega)
    obtain ⟨env, hr, -⟩ := hs
    have hstep := Engine.placementStep_of_receive hr
    have hnew : w'.engine.nextPlacement.toNat = placementsCreated (tr ++ [⟨w, l, w'⟩]) := by
      rcases Engine.nextPlacement_cases hstep with heq | heq
      · rw [hsum, heq, if_neg (by simp)]
        exact hnext
      · -- a placement was created; the counter is below 2^32 and does not wrap
        have hne : w.engine.nextPlacement ≠ w.engine.nextPlacement + 1 := by simp
        have hone : (1 : UInt32).toNat = 1 := rfl
        rw [heq, if_pos (bne_iff_ne.mpr hne)] at hsum
        rw [heq, UInt32.toNat_add, hone]
        omega
    refine ⟨hnew, fun k p hp => ?_⟩
    rcases Engine.placement_cases hstep hp with hp | ⟨c, params, kittyID, -, rfl, heq, -⟩ |
      ⟨g, p₀, -, hp₀, -⟩
    · have hle := hids k p hp
      omega
    · rw [← heq]; omega
    · have hle := hids k p₀ hp₀
      omega

/-- The next placement gets an ID of its own. -/
theorem nextPlacement_fresh
    (h : Runs hash128 (Engine.new gfx notifier stopFunc inTmux maxSize) tr w)
    (hcount : placementsCreated tr < 2 ^ 32 - 1) :
    w.engine.nextPlacement + 1 ∉ w.engine.placements := by
  obtain ⟨hnext, hids⟩ := nextPlacement_of_runs h (by omega)
  intro hmem
  obtain ⟨p, hp⟩ := Option.isSome_iff_exists.mp (Std.ExtTreeMap.mem_iff_isSome_getElem?.mp hmem)
  have hle := hids _ p hp
  have hone : (1 : UInt32).toNat = 1 := rfl
  rw [UInt32.toNat_add, hone] at hle
  omega

/-- A step that creates a placement gives it an ID of its own. -/
theorem nextPlacement_fresh_step {l : Label} {w' : World}
    (h : Runs hash128 (Engine.new gfx notifier stopFunc inTmux maxSize) tr w)
    (hcount : placementsCreated (tr ++ [⟨w, l, w'⟩]) < 2 ^ 32)
    (hnew : w'.engine.nextPlacement ≠ w.engine.nextPlacement) :
    w.engine.nextPlacement + 1 ∉ w.engine.placements := by
  have hsum : placementsCreated (tr ++ [⟨w, l, w'⟩]) = placementsCreated tr + 1 := by
    simp [placementsCreated, List.countP_append, Ne.symm hnew]
  exact nextPlacement_fresh h (by omega)

/-- Whatever was evicted meanwhile: what the terminal shows is a rendered placement at its
    resolved position. -/
theorem shown_of_runs
    (h : Runs hash128 (Engine.new true notifier stopFunc inTmux maxSize) tr w)
    (hcount : placementsCreated tr < 2 ^ 32) (i pid : UInt32) :
    w.terminal.shown i pid = none ∨ w.terminal.shown i pid = w.engine.display i pid := by
  revert hcount i pid
  refine Run.historyInvariant (I := fun tr w => placementsCreated tr < 2 ^ 32 → ∀ i pid,
    w.terminal.shown i pid = none ∨ w.terminal.shown i pid = w.engine.display i pid) ?_ ?_ h
  · intro _ i pid
    exact Or.inl rfl
  · intro tr w l w' hrun ih hs hcount i pid
    have hle : placementsCreated tr ≤ placementsCreated (tr ++ [⟨w, l, w'⟩]) := by
      rw [placementsCreated, placementsCreated, List.countP_append]; omega
    have hbefore := ih (by omega) i pid
    have hfresh := nextPlacement_fresh_step hrun hcount
    obtain ⟨env, hr, ht⟩ := hs
    have hstep := Engine.placementStep_of_receive hr
    rw [ht]
    -- the step drew it as the table has it, or left it, or cleared it
    rcases Engine.shown_step (gfx_of_runs hrun) (keyed_of_runs hrun) hfresh hstep w.terminal i pid
      with heq | ⟨hsame, heq | ⟨hnone, -⟩⟩
    · exact Or.inr heq
    · rw [heq, hsame]
      exact hbefore
    · exact Or.inl hnone

/-- Take any engine reached with fewer than 2^32 - 1 placements created, and any terminal that
    mirrors it. Every input that evicts no image keeps the mirror and keeps the rendered
    placements visible. -/
theorem mirrors_of_step
    (h : Runs hash128 (Engine.new true notifier stopFunc inTmux maxSize) tr w)
    (hcount : placementsCreated tr < 2 ^ 32 - 1) {t : Terminal} (hm : w.engine.Mirrors t)
    (hvis : w.engine.RenderedVisible) {l : Label} {w' : World}
    (hs : Step hash128 ⟨w.engine, t⟩ l w') (hout : EvictsNothing l.out) :
    w'.engine.Mirrors w'.terminal ∧ w'.engine.RenderedVisible := by
  obtain ⟨env, hr, ht⟩ := hs
  have hgfx := gfx_of_runs h
  have hstep := Engine.placementStep_of_receive hr
  refine ⟨?_, Engine.renderedVisible_step hgfx hvis hstep⟩
  rw [ht]
  exact Engine.mirrors_step hgfx (keyed_of_runs h) (nextPlacement_fresh h hcount) hm hstep hout

/-- In a run without evictions the terminal mirrors the engine. -/
theorem mirrors_of_runs
    (h : Runs hash128 (Engine.new true notifier stopFunc inTmux maxSize) tr w)
    (hcount : placementsCreated tr < 2 ^ 32 - 1) (hout : ∀ t ∈ tr, EvictsNothing t.label.out) :
    w.engine.Mirrors w.terminal ∧ w.engine.RenderedVisible := by
  revert hcount hout
  refine Run.historyInvariant (I := fun tr w => placementsCreated tr < 2 ^ 32 - 1 →
    (∀ t ∈ tr, EvictsNothing t.label.out) →
    w.engine.Mirrors w.terminal ∧ w.engine.RenderedVisible) ?_ ?_ h
  · intro _ _
    refine ⟨fun i pid pos => ?_, fun k p hp => ?_⟩
    · simp [start, Engine.new, Terminal.empty]
    · simp [start, Engine.new] at hp
  · intro tr w l w' hrun ih hs hcount hout
    have hle : placementsCreated tr ≤ placementsCreated (tr ++ [⟨w, l, w'⟩]) := by
      rw [placementsCreated, placementsCreated, List.countP_append]; omega
    obtain ⟨hm, hvis⟩ := ih (by omega) fun t ht => hout t (List.mem_append_left _ ht)
    -- an eviction is the one step that frees an image under its placements
    have hlast : EvictsNothing l.out := hout ⟨w, l, w'⟩ (by simp)
    have hgfx := gfx_of_runs hrun
    obtain ⟨env, hr, ht⟩ := hs
    have hstep := Engine.placementStep_of_receive hr
    refine ⟨?_, Engine.renderedVisible_step hgfx hvis hstep⟩
    rw [ht]
    exact Engine.mirrors_step hgfx (keyed_of_runs hrun) (nextPlacement_fresh hrun (by omega)) hm
      hstep hlast

end Runs

/-- Two placements, one of them in a window. -/
def twoPlacementsScript : List (Env × Input) :=
  [Script.registerWin "a" 1000 2, Script.upload "a" [1], Script.place "a" 1 Script.absolute,
    Script.place "a" 1 (Script.inWindow 1000)]

/-- The window moves; its placement is deleted and placed again, the other one stays. -/
theorem mirrors_of_step_moved :
    ∃ w l w', Step Script.firstByte w l w' ∧ l.out.length = 4 ∧
      w'.engine.Mirrors w'.terminal ∧ w'.engine.RenderedVisible := by
  have hrun := runs_of_exec Script.firstByte (Engine.new true true true false 1)
    twoPlacementsScript (by decide)
  obtain ⟨hm, hvis⟩ := mirrors_of_runs hrun (by decide) (by decide)
  have hstep := step_of_isSome Script.firstByte
    ((exec Script.firstByte (Engine.new true true true false 1) twoPlacementsScript).get
      (by decide)).2 (Script.registerWin "a" 1000 5) (by decide)
  exact ⟨_, _, _, hstep, by decide, mirrors_of_step hrun (by decide) hm hvis hstep (by decide)⟩

end World

end Kgd
