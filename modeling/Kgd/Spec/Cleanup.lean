import Kgd.Spec.ImageAccounting
import Kgd.Spec.TerminalMirror

/-!
# What is left on the terminal after a shutdown

`cleanupRenderedPlacements` deletes every rendered placement and frees every image that some
client's handle table mentions. An image stays cached, and stored on the terminal, after its
last handle is gone; such an image is not freed. `World.clean_iff` says that this is the only
thing a shutdown leaves behind.

## Key results

- `World.clean_iff`
- `World.clean_fails`: an image whose owner disconnected outlives the daemon
-/

namespace Kgd

namespace Engine

/-! ## The images that are freed -/

/-- The images that are held are those that some handle stands for. -/
theorem mem_heldImages (env : Env) (e : Engine) (id : UInt32) :
    id ∈ e.heldImages env ↔ ∃ c h, e.handleImage c h = some id := by
  simp only [heldImages, List.mem_flatMap, List.mem_map, Prod.exists, GoMap.mem_entries,
    handleImage, Option.bind_eq_some_iff]
  constructor
  · intro hx
    obtain ⟨c, images, hc, h, kid, hh, rfl⟩ := hx
    exact ⟨c, h, images, hc, hh⟩
  · intro hx
    obtain ⟨c, h, images, hc, hh⟩ := hx
    exact ⟨c, images, hc, h, id, hh, rfl⟩

/-- Every held image is freed, with everything that shows it. -/
theorem applyAll_freeOnce (freed held : List UInt32) (t : Terminal) :
    (∀ id, id ∈ (t.applyAll ((freeOnce freed held).map .gfx)).stored ↔
      id ∈ t.stored ∧ (id ∈ held → id ∈ freed)) ∧
    ∀ i p, (t.applyAll ((freeOnce freed held).map .gfx)).shown i p = t.shown i p ∨
      (t.applyAll ((freeOnce freed held).map .gfx)).shown i p = none := by
  induction held generalizing freed t with
  | nil => simp [freeOnce]
  | cons kittyID held ih =>
    simp only [freeOnce]
    split
    · -- freed before, by this loop
      rename_i hfreed
      obtain ⟨hstored, hshown⟩ := ih freed t
      refine ⟨fun id => ?_, hshown⟩
      rw [hstored]
      grind
    · rename_i hfreed
      -- freed now, and skipped from here on
      obtain ⟨hstored, hshown⟩ := ih (kittyID :: freed) (t.apply (.delete kittyID 0 true))
      simp only [List.map_cons, Terminal.applyAll_cons, Terminal.act]
      refine ⟨fun id => ?_, fun i p => ?_⟩
      · rw [hstored]
        simp only [Terminal.apply, ↓reduceIte, Finset.mem_erase]
        grind
      · rcases hshown i p with h | h
        · rw [h]
          by_cases hi : i = kittyID <;> simp [Terminal.apply, hi]
        · exact Or.inr h

/-! ## The cleanup -/

/-- The cleanup frees exactly the held images. -/
theorem stored_cleanup (env : Env) {e : Engine} (hgfx : e.gfx = true) (t : Terminal) (id : UInt32) :
    id ∈ (t.applyAll (e.cleanupRenderedPlacements env)).stored ↔
      id ∈ t.stored ∧ ∀ c h, e.handleImage c h ≠ some id := by
  -- the placements are deleted first, which frees no image
  have hquiet : ImageQuiet ((GoMap.entries env.placementOrder e.placements).flatMap
      fun x => e.deleteRendered x.2) := by
    intro call hc
    obtain ⟨x, -, hx⟩ := List.mem_flatMap.mp hc
    exact touchesImages_of_isFor (isFor_of_deleteRendered e x.2 call hx)
  have hfreed : e.gfxCalls (freeOnce [] (e.heldImages env)) =
      (freeOnce [] (e.heldImages env)).map .gfx := by rw [gfxCalls, if_pos hgfx]
  simp only [cleanupRenderedPlacements, hgfx, Bool.not_true, Bool.false_eq_true, ↓reduceIte,
    Terminal.applyAll_append, hfreed]
  rw [(applyAll_freeOnce _ _ _).1, (Terminal.applyAll_of_imageQuiet hquiet t).1, mem_heldImages]
  simp

/-- A display of nothing but rendered placements is empty after the cleanup. -/
theorem shown_cleanup (env : Env) {e : Engine} (hgfx : e.gfx = true) (hkeyed : e.Keyed)
    {t : Terminal} (h : ∀ i pid, t.shown i pid = none ∨ t.shown i pid = e.display i pid)
    (i pid : UInt32) : (t.applyAll (e.cleanupRenderedPlacements env)).shown i pid = none := by
  have hfreed : e.gfxCalls (freeOnce [] (e.heldImages env)) =
      (freeOnce [] (e.heldImages env)).map .gfx := by rw [gfxCalls, if_pos hgfx]
  simp only [cleanupRenderedPlacements, hgfx, Bool.not_true, Bool.false_eq_true, ↓reduceIte,
    Terminal.applyAll_append, hfreed]
  -- freeing images shows nothing; what is left are the deletions, one piece a placement
  suffices hdeleted : (t.applyAll ((GoMap.entries env.placementOrder e.placements).flatMap
      fun x => e.deleteRendered x.2)).shown i pid = none by
    rcases (applyAll_freeOnce [] (e.heldImages env) _).2 i pid with heq | hnone
    · exact heq.trans hdeleted
    · exact hnone
  rw [GoMap.flatMap_entries, shown_visit env.placementOrder (fun p => e.deleteRendered p) id hkeyed
    (isFor_of_deleteRendered e)]
  cases hk : e.placements[pid]? with
  | none =>
    have hnone : e.display i pid = none := by rw [display, hk]; rfl
    exact (h i pid).elim id fun heq => heq.trans hnone
  | some p =>
    have hid := hkeyed pid p hk
    have hdisplay : e.display i pid = p.display i := by rw [display, hk]; rfl
    rw [← hid]
    show (t.applyAll (e.deleteRendered p)).shown i p.id = none
    rcases shown_deleteRendered hgfx p t i with hnone | ⟨heq, hnone⟩
    · exact hnone
    · -- not deleted because not rendered, and then it was not shown either
      refine heq.trans ?_
      rw [hid]
      exact (h i pid).elim id fun heq => heq.trans (hdisplay.trans hnone.symm)

end Engine

namespace World

/-- Nothing persists on the terminal: no image is stored, no placement is shown. -/
def Clean (t : Terminal) : Prop := t.stored = ∅ ∧ ∀ i pid, t.shown i pid = none

/-- After a run with fewer than 2^32 - 1 kitty IDs and fewer than 2^32 placements, the cleanup
    leaves nothing on the terminal exactly when every cached image is referenced. -/
theorem clean_iff {hash128 : Data → Hash} {notifier stopFunc inTmux : Bool} {maxSize : Int}
    {tr : List (Transition World Label)} {w : World}
    (h : Runs hash128 (Engine.new true notifier stopFunc inTmux maxSize) tr w)
    (hcalls : nextCalls tr < 2 ^ 32 - 1) (hcount : placementsCreated tr < 2 ^ 32) (env : Env) :
    Clean (w.terminal.applyAll (w.engine.cleanupRenderedPlacements env)) ↔
      ∀ en ∈ w.engine.cache.view, 0 < en.refCount := by
  have hgfx := gfx_of_runs h
  have hacc := accounting_of_fresh h (fresh_of_nextCalls h hcalls)
  have hshown := Engine.shown_cleanup env hgfx (keyed_of_runs h) (shown_of_runs h hcount)
  have hstored := Engine.stored_cleanup env hgfx w.terminal
  have hreferenced : ∀ en ∈ w.engine.cache.view, 0 < en.refCount ↔
      ∃ c k, w.engine.handleImage c k = some en.kittyImgID := by
    intro en hen
    have hiff := hacc.accounts.unreferenced_iff hen
    rw [CacheEntry.unreferenced, decide_eq_true_eq] at hiff
    rw [← not_iff_not, Int.not_lt, hiff]
    push Not
    exact Iff.rfl
  constructor
  · intro hclean en hen
    rw [hreferenced en hen]
    by_contra hnone
    push Not at hnone
    have hmem : en.kittyImgID ∈ w.terminal.stored :=
      (hacc.stored _).mpr ((hacc.accounts.wf.mem_byID _).mpr ⟨en, hen, rfl⟩)
    -- stored and held by nobody: the cleanup leaves it
    have hleft := (hstored en.kittyImgID).mpr ⟨hmem, hnone⟩
    rw [hclean.1] at hleft
    exact absurd hleft (Finset.notMem_empty _)
  · intro href
    refine ⟨Finset.eq_empty_of_forall_notMem fun id hid => ?_, hshown⟩
    obtain ⟨hmem, hnone⟩ := (hstored id).mp hid
    obtain ⟨en, hen, rfl⟩ := (hacc.accounts.wf.mem_byID id).mp ((hacc.stored id).mp hmem)
    obtain ⟨c, k, hk⟩ := (hreferenced en hen).mp (href en hen)
    exact hnone c k hk

/-- A client uploads an image, shows it and stays. -/
def stayingScript : List (Env × Input) :=
  [Script.upload "a" [1], Script.place "a" 1 Script.absolute]

/-- A client has an image and stays until the daemon stops. -/
theorem clean_iff_staying :
    ∃ tr w, Runs Script.firstByte (Engine.new true true true false 8) tr w ∧
      (Clean (w.terminal.applyAll (w.engine.cleanupRenderedPlacements default)) ↔
        ∀ en ∈ w.engine.cache.view, 0 < en.refCount) := by
  have hrun := runs_of_exec Script.firstByte (Engine.new true true true false 8) stayingScript
    (by decide)
  exact ⟨_, _, hrun, clean_iff hrun (by decide) (by decide) default⟩

/-- A client uploads an image and disconnects before the shutdown: its image stays. -/
theorem clean_fails :
    ∃ tr w, Runs Script.firstByte (Engine.new true true true false 8) tr w ∧
      (∀ t ∈ tr, ∀ a ∈ t.label.out, a.failed = false) ∧
      ¬ Clean (w.terminal.applyAll (w.engine.cleanupRenderedPlacements default)) := by
  have hrun := runs_of_exec Script.firstByte (Engine.new true true true false 8)
    [Script.upload "a" [1], Script.disconnect "a"] (by decide)
  refine ⟨_, _, hrun, by decide, fun hclean => ?_⟩
  -- nobody holds the image, so the cleanup does not know of it
  have hleft : (1 : UInt32) ∈ (((exec Script.firstByte (Engine.new true true true false 8)
      [Script.upload "a" [1], Script.disconnect "a"]).get (by decide)).2.terminal.applyAll
        (((exec Script.firstByte (Engine.new true true true false 8)
          [Script.upload "a" [1], Script.disconnect "a"]).get
            (by decide)).2.engine.cleanupRenderedPlacements default)).stored := by decide
  rw [hclean.1] at hleft
  exact absurd hleft (Finset.notMem_empty _)

end World

end Kgd
