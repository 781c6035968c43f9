import Kgd.Spec.TerminalMirror
import Kgd.Spec.UploadedImage

/-!
# Identifiers and the width of their counters

Image and placement IDs come from 32-bit counters that wrap. Up to 2^32 - 1 of either the IDs
are 1, 2, 3, ..., hence not 0 and none of those in use. The next one is 0.

## Key results

- `World.next_of_runs`, `World.nextPlacement_eq`: the counters are the number of IDs taken
- `World.fresh_of_few`: fewer than 2^32 allocations never meet an ID in use
- `World.idsUnique_iff`: the runs in which every ID is not 0 and not in use
-/

namespace Kgd

/-- The IDs that a step takes are not 0 and not in use, so that no image and no placement is
    overwritten, and the step deletes no placement without naming it. -/
structure IDsUnique (t : Transition World Label) : Prop where
  /-- what `Next` returns -/
  image : t.post.engine.idAlloc ≠ t.pre.engine.idAlloc →
    t.pre.engine.idAlloc.nextID.1 ≠ 0 ∧ t.pre.engine.idAlloc.nextID.1 ∉ t.pre.engine.cache.byID
  /-- the ID of a new placement -/
  placement : t.post.engine.nextPlacement ≠ t.pre.engine.nextPlacement →
    t.post.engine.nextPlacement ≠ 0 ∧ t.post.engine.nextPlacement ∉ t.pre.engine.placements
  /-- an ID in `byID` stays that of its image -/
  entry : ∀ en ∈ t.pre.engine.cache.view, ∀ en' ∈ t.post.engine.cache.view,
    en'.kittyImgID = en.kittyImgID → en'.hash = en.hash
  /-- a placement that is still there is the one that was -/
  kept : ∀ (k : UInt32) (p p' : Placement), t.pre.engine.placements[k]? = some p →
    t.post.engine.placements[k]? = some p' → p'.clientID = p.clientID ∧
      p'.imageHandle = p.imageHandle ∧ p'.kittyImgID = p.kittyImgID ∧ p'.anchor = p.anchor
  /-- `Delete(image, placementID)` has its placement ID in the command -/
  delete : ∀ imageID placementID, .gfx (.delete imageID placementID false) ∈ t.label.out →
    placementID ≠ 0

namespace Engine

/-- The allocator's counter counts the calls of `Next`. -/
theorem idAlloc_cases {hash128 : Data → Hash} {env : Env} {e e' : Engine} {input : Input}
    {out : List Action} (h : ImageStep hash128 env e input out e') :
    e'.idAlloc = e.idAlloc ∨ e'.idAlloc = ⟨e.idAlloc.next + 1⟩ := by
  cases h with
  | quiet _ _ _ _ _ halloc => exact Or.inl halloc
  | hit | free => exact Or.inl rfl
  | refused => exact Or.inr rfl
  | miss _ _ hevict =>
    have halloc := congrArg (fun x => x.1.idAlloc) hevict
    rw [freeEvicted_fst] at halloc
    exact Or.inr halloc.symm
  | disconnect _ _ halloc => exact Or.inl halloc

/-- A placement is deleted by its ID. -/
theorem delete_of_placementStep {env : Env} {e e' : Engine} {input : Input} {out : List Action}
    (h : PlacementStep env e input out e') {i pid : UInt32}
    (hout : .gfx (.delete i pid false) ∈ out) :
    ∃ (k : UInt32) (p : Placement), e.placements[k]? = some p ∧ p.id = pid := by
  -- `unplace_all` and a disconnect go over the client's records
  have howned : ∀ c, .gfx (.delete i pid false) ∈ (e.removeOwned env c).2 →
      ∃ (k : UInt32) (p : Placement), e.placements[k]? = some p ∧ p.id = pid := by
    intro c hmem
    obtain ⟨k, p, hp, hcall⟩ := (GoMap.mem_rangeUpdate_snd _ _ _ _).mp hmem
    split at hcall
    · obtain ⟨hcall, -⟩ := calls_of_deleteRendered hcall
      injection hcall with _ hid
      exact ⟨k, p, hp, hid.symm⟩
    · cases hcall
  cases h with
  | same _ _ _ _ _ _ _ _ _ _ _ hquiet => cases hquiet _ hout
  | place =>
    rcases List.mem_append.mp hout with hout | hout
    · unfold placeCalls at hout
      split at hout
      · have hcall := (gfx_mem_gfxCalls.mp hout).2
        simp at hcall
      · cases hout
    · simp at hout
  | @unplace pid' p hp =>
    obtain ⟨hcall, -⟩ := calls_of_deleteRendered hout
    injection hcall with _ hid
    exact ⟨pid', p, hp, hid.symm⟩
  | unplaceAll => exact howned _ hout
  | disconnect => exact howned _ hout
  | @recompute _ g notes hgeometry hnotes =>
    rcases List.mem_append.mp hout with hout | hout
    · simp only [recomputePlacements, List.mem_append, gfx_mem_gfxCalls, List.mem_singleton,
        reduceCtorEq, and_false, false_or, or_false] at hout
      obtain ⟨k, p, hp, hcall⟩ := (GoMap.mem_rangeUpdate_snd _ _ _ _).mp hout
      rw [geometryUpdate_eq_some hgeometry] at hp
      -- a recomputation deletes what it found rendered, or places
      rcases calls_of_rerender (calls_of_recomputeOne hcall) with hcall | hcall
      · injection hcall with _ hid
        exact ⟨k, p, hp, hid.symm⟩
      · cases hcall
    · exact absurd hout (hnotes _)

end Engine

/-- A step takes an image ID or not. -/
theorem nextCalls_concat (tr : List (Transition World Label)) (t : Transition World Label) :
    nextCalls (tr ++ [t]) =
      nextCalls tr + if t.post.engine.idAlloc = t.pre.engine.idAlloc then 0 else 1 := by
  by_cases h : t.post.engine.idAlloc = t.pre.engine.idAlloc
  · simp [nextCalls, List.countP_append, h]
  · simp [nextCalls, List.countP_append, h, Ne.symm h]

/-- A step creates a placement or not. -/
theorem placementsCreated_concat (tr : List (Transition World Label)) (t : Transition World Label) :
    placementsCreated (tr ++ [t]) = placementsCreated tr +
      if t.post.engine.nextPlacement = t.pre.engine.nextPlacement then 0 else 1 := by
  by_cases h : t.post.engine.nextPlacement = t.pre.engine.nextPlacement
  · simp [placementsCreated, List.countP_append, h]
  · simp [placementsCreated, List.countP_append, h, Ne.symm h]

namespace World

section Runs
variable {hash128 : Data → Hash} {gfx notifier stopFunc inTmux : Bool} {maxSize : Int}
  {tr : List (Transition World Label)} {w : World}

/-! ## The counters -/

/-- The next image ID is the number of those taken, plus one, modulo 2^32. -/
theorem next_of_runs (h : Runs hash128 (Engine.new gfx notifier stopFunc inTmux maxSize) tr w) :
    w.engine.idAlloc.next = .ofNat (nextCalls tr + 1) := by
  induction h with
  | nil => rfl
  | @snoc tr w l w' _ hs ih =>
    obtain ⟨env, hr, -⟩ := hs
    rw [nextCalls_concat]
    rcases Engine.idAlloc_cases (Engine.imageStep_of_receive hr) with heq | heq
    · rw [if_pos heq, heq, ih, Nat.add_zero]
    -- the counter moved by one, modulo 2^32
    · have hne : w'.engine.idAlloc ≠ w.engine.idAlloc := heq ▸ Engine.next_ne w.engine.idAlloc
      rw [if_neg hne, heq, ih, UInt32.ofNat_add (nextCalls tr + 1)]
      rfl

/-- The last placement ID is the number of those created, modulo 2^32. -/
theorem nextPlacement_eq
    (h : Runs hash128 (Engine.new gfx notifier stopFunc inTmux maxSize) tr w) :
    w.engine.nextPlacement = .ofNat (placementsCreated tr) := by
  induction h with
  | nil => rfl
  | @snoc tr w l w' _ hs ih =>
    obtain ⟨env, hr, -⟩ := hs
    rw [placementsCreated_concat]
    rcases Engine.nextPlacement_cases (Engine.placementStep_of_receive hr) with heq | heq
    · rw [if_pos heq, heq, ih, Nat.add_zero]
    -- the counter moved by one, modulo 2^32
    · have hne : w'.engine.nextPlacement ≠ w.engine.nextPlacement := by
        rw [heq]
        simp
      rw [if_neg hne, heq, ih, UInt32.ofNat_add (placementsCreated tr)]
      rfl

/-- No placement has the ID 0 while the counter has not come round. -/
theorem zero_not_mem_placements
    (h : Runs hash128 (Engine.new gfx notifier stopFunc inTmux maxSize) tr w)
    (hcount : placementsCreated tr < 2 ^ 32) : 0 ∉ w.engine.placements := by
  induction h with
  | nil => simp [start, Engine.new]
  | @snoc tr w l w' hrun hs ih =>
    rw [placementsCreated_concat] at hcount
    have hnext := nextPlacement_eq (hrun.snoc hs)
    rw [placementsCreated_concat] at hnext
    have hold := ih (by omega)
    obtain ⟨env, hr, -⟩ := hs
    have hstep := Engine.placementStep_of_receive hr
    intro hmem
    obtain ⟨p, hp⟩ := Option.isSome_iff_exists.mp (Std.ExtTreeMap.mem_iff_isSome_getElem?.mp hmem)
    rcases Engine.placement_cases hstep hp with hp | ⟨c, params, kittyID, -, hzero, heq, -⟩ |
      ⟨g, p₀, -, hp₀, -⟩
    · exact hold (GoMap.mem_of_getElem? hp)
    · -- the new placement: the counter is 0 only after a round
      have hne : w'.engine.nextPlacement ≠ w.engine.nextPlacement := by
        rw [heq]
        simp
      rw [if_neg hne] at hcount hnext
      rw [heq, ← hzero] at hnext
      have htoNat := congrArg UInt32.toNat hnext
      rw [UInt32.toNat_ofNat', Nat.mod_eq_of_lt hcount] at htoNat
      exact absurd htoNat (Nat.succ_ne_zero _).symm
    · exact hold (GoMap.mem_of_getElem? hp₀)

/-! ## Few IDs -/

/-- A count of transitions before one of them. -/
theorem nextCalls_le (tr₁ tr₂ : List (Transition World Label)) :
    nextCalls tr₁ ≤ nextCalls (tr₁ ++ tr₂) := by
  rw [nextCalls, nextCalls, List.countP_append]
  exact Nat.le_add_right _ _

/-- A longer trace creates no fewer placements. -/
theorem placementsCreated_le (tr₁ tr₂ : List (Transition World Label)) :
    placementsCreated tr₁ ≤ placementsCreated (tr₁ ++ tr₂) := by
  rw [placementsCreated, placementsCreated, List.countP_append]
  exact Nat.le_add_right _ _

/-- The first 2^32 - 1 calls of `Next` return IDs that are not 0 and not in use. -/
theorem fresh_of_few {t : Transition World Label}
    (h : Runs hash128 (Engine.new gfx notifier stopFunc inTmux maxSize) tr t.pre)
    (hcalls : nextCalls (tr ++ [t]) < 2 ^ 32)
    (hmoved : t.post.engine.idAlloc ≠ t.pre.engine.idAlloc) :
    t.pre.engine.idAlloc.next ≠ 0 ∧ t.pre.engine.FreshID := by
  rw [nextCalls_concat, if_neg hmoved] at hcalls
  obtain ⟨-, hnext, hids⟩ := alloc_of_nextCalls h (by omega)
  constructor
  · intro hzero
    rw [hzero] at hnext
    exact absurd hnext (Nat.succ_ne_zero _).symm
  · intro hmem
    have hle := hids _ hmem
    omega

/-- So the accounts of the engine hold also after the last of these. -/
theorem freshSteps_of_few
    (h : Runs hash128 (Engine.new gfx notifier stopFunc inTmux maxSize) tr w)
    (hcalls : nextCalls tr < 2 ^ 32) : ∀ t ∈ tr, FreshStep t := by
  intro t ht hmoved
  obtain ⟨tr₁, tr₂, rfl, hrun, -⟩ := h.exists_split ht
  have hle := nextCalls_le (tr₁ ++ [t]) tr₂
  rw [List.append_assoc, List.singleton_append] at hle
  exact (fresh_of_few hrun (by omega) hmoved).2

/-- A step with fewer than 2^32 IDs of either kind taken. -/
theorem idsUnique_of_few {t : Transition World Label}
    (h : Runs hash128 (Engine.new gfx notifier stopFunc inTmux maxSize) tr t.pre)
    (hs : Step hash128 t.pre t.label t.post) (hcalls : nextCalls (tr ++ [t]) < 2 ^ 32)
    (hcount : placementsCreated (tr ++ [t]) < 2 ^ 32) : IDsUnique t := by
  have hcalls' := nextCalls_le tr [t]
  have hcount' := placementsCreated_le tr [t]
  have hacc := accounts_of_fresh h (freshSteps_of_few h (by omega))
  have hnext := nextPlacement_eq (h.snoc hs)
  obtain ⟨env, hr, -⟩ := hs
  have himage := Engine.imageStep_of_receive hr
  have hplacement := Engine.placementStep_of_receive hr
  refine ⟨?_, ?_, ?_, ?_, ?_⟩
  · intro hmoved
    rw [Engine.nextID_eq]
    exact fresh_of_few h hcalls hmoved
  · intro hmoved
    have hfresh := nextPlacement_fresh_step h hcount hmoved
    have hstep := (Engine.nextPlacement_cases hplacement).resolve_left hmoved
    refine ⟨fun hzero => ?_, hstep ▸ hfresh⟩
    -- below 2^32 calls the counter has not come round to zero
    have htoNat := congrArg UInt32.toNat (hnext.symm.trans hzero)
    rw [UInt32.toNat_ofNat', Nat.mod_eq_of_lt hcount, placementsCreated_concat,
      if_neg hmoved] at htoNat
    exact absurd htoNat (Nat.succ_ne_zero _)
  · intro en hen en' hen' hid
    rcases Engine.entry_of_imageStep hacc himage t.pre.terminal hen' with
      ⟨en₀, hen₀, hhash, hid₀⟩ | ⟨c, params, -, -, -, ⟨hmoved, hnew⟩, -⟩
    · rw [← hhash, hacc.wf.eq_of_id_eq hen₀ hen (hid₀.trans hid)]
    · -- the entry is new, and so is its ID
      have hin : en.kittyImgID ∈ t.pre.engine.cache.byID :=
        (hacc.wf.mem_byID _).mpr ⟨en, hen, rfl⟩
      rw [← hid, hnew] at hin
      exact absurd hin (fresh_of_few h hcalls hmoved).2
  · intro k p p' hp hp'
    rcases Engine.placement_cases hplacement hp' with hold | ⟨c, params, kittyID, -, rfl, heq, -⟩ |
      ⟨g, p₀, -, hp₀, rfl⟩
    · obtain rfl := Option.some.inj (hp.symm.trans hold)
      exact ⟨rfl, rfl, rfl, rfl⟩
    · have hmoved : t.post.engine.nextPlacement ≠ t.pre.engine.nextPlacement := by
        rw [heq]
        simp
      exact absurd (GoMap.mem_of_getElem? hp) (nextPlacement_fresh_step h hcount hmoved)
    · obtain rfl := Option.some.inj (hp.symm.trans hp₀)
      rw [Engine.recomputeOne_fst]
      exact ⟨rfl, rfl, rfl, rfl⟩
  · intro i pid hout
    obtain ⟨k, p, hp, rfl⟩ := Engine.delete_of_placementStep hplacement hout
    rw [keyed_of_runs h k p hp]
    rintro rfl
    exact zero_not_mem_placements h (by omega) (GoMap.mem_of_getElem? hp)

/-! ## The ID after these -/

/-- Where every ID taken is not 0 and not in use, fewer than 2^32 of either kind are taken. -/
theorem few_of_idsUnique (h : Runs hash128 (Engine.new gfx notifier stopFunc inTmux maxSize) tr w)
    (hunique : ∀ t ∈ tr, IDsUnique t) : nextCalls tr < 2 ^ 32 ∧ placementsCreated tr < 2 ^ 32 := by
  induction h with
  | nil => exact ⟨by decide, by decide⟩
  | @snoc tr w l w' hrun hs ih =>
    obtain ⟨hcalls, hcount⟩ := ih fun t ht => hunique t (List.mem_append_left _ ht)
    have hlast := hunique ⟨w, l, w'⟩ (by simp)
    have hnext := next_of_runs hrun
    have hplacement := nextPlacement_eq (hrun.snoc hs)
    rw [placementsCreated_concat] at hplacement
    rw [nextCalls_concat, placementsCreated_concat]
    constructor
    · split
      · exact hcalls
      · rename_i hmoved
        -- the 2^32th call returns 0
        have hne := (hlast.image hmoved).1
        rw [Engine.nextID_eq] at hne
        have hlt : nextCalls tr + 1 ≠ 2 ^ 32 := fun heq => hne (hnext.trans (by rw [heq]; rfl))
        omega
    · split
      · exact hcount
      · rename_i hmoved
        have hne := (hlast.placement hmoved).1
        rw [if_neg hmoved] at hplacement
        have hlt : placementsCreated tr + 1 ≠ 2 ^ 32 := fun heq =>
          hne (hplacement.trans (by rw [heq]; rfl))
        omega

/-- In a run of any length, every ID taken is not 0 and not in use exactly if fewer than 2^32
    IDs of either kind are taken. -/
theorem idsUnique_iff (h : Runs hash128 (Engine.new gfx notifier stopFunc inTmux maxSize) tr w) :
    (∀ t ∈ tr, IDsUnique t) ↔ nextCalls tr < 2 ^ 32 ∧ placementsCreated tr < 2 ^ 32 := by
  refine ⟨few_of_idsUnique h, fun hfew t ht => ?_⟩
  obtain ⟨tr₁, tr₂, rfl, hrun, hs⟩ := h.exists_split ht
  have hcalls := nextCalls_le (tr₁ ++ [t]) tr₂
  have hcount := placementsCreated_le (tr₁ ++ [t]) tr₂
  rw [List.append_assoc, List.singleton_append] at hcalls hcount
  exact idsUnique_of_few hrun hs (by omega) (by omega)

end Runs

/-- Two images and two placements. -/
theorem idsUnique_iff_short :
    ∃ tr w, Runs Script.firstByte (Engine.new true true true false 1) tr w ∧
      nextCalls tr = 2 ∧ placementsCreated tr = 2 ∧ ∀ t ∈ tr, IDsUnique t := by
  have hrun := runs_of_exec Script.firstByte (Engine.new true true true false 1)
    [Script.upload "a" [1], Script.upload "a" [2], Script.place "a" 1 Script.absolute,
      Script.place "a" 2 Script.absolute] (by decide)
  exact ⟨_, _, hrun, by decide, by decide, (idsUnique_iff hrun).mpr ⟨by decide, by decide⟩⟩

/-- An upload of new data that `Transmit` refuses takes an ID and changes nothing else. -/
theorem step_refused {hash128 : Data → Hash} {w : World} (hgfx : w.engine.gfx = true)
    (params : UploadParams) (hlookup : w.engine.cache.lookup hash128 params.data = none) :
    ∃ l, Step hash128 w l
      ⟨{ w.engine with idAlloc := ⟨w.engine.idAlloc.next + 1⟩ }, w.terminal.applyAll l.out⟩ := by
  let env : Env := { (default : Env) with transmitErr := some "broken pipe" }
  obtain ⟨out, hr⟩ : ∃ out, w.engine.receive hash128 env (.event (.uploadRequest "a" params)) =
      some ({ w.engine with idAlloc := ⟨w.engine.idAlloc.next + 1⟩ }, out) := by
    simp only [Engine.receive, Engine.handle, Engine.handleUpload, hlookup, Engine.nextID_eq, hgfx,
      if_true, env]
    exact ⟨_, rfl⟩
  exact ⟨⟨_, out⟩, env, hr, rfl⟩

/-- Runs of any number of `Next` calls. -/
theorem exists_runs_of_nextCalls (n : Nat) :
    ∃ tr w, Runs Script.firstByte (Engine.new true true true false 1) tr w ∧ nextCalls tr = n ∧
      w.engine.gfx = true ∧ w.engine.cache = .new 1 := by
  induction n with
  | zero => exact ⟨[], _, .nil, rfl, rfl, rfl⟩
  | succ n ih =>
    obtain ⟨tr, w, hrun, hcalls, hgfx, hcache⟩ := ih
    have hlookup : w.engine.cache.lookup Script.firstByte [1] = none := by
      rw [hcache]
      decide
    -- a refused upload takes an ID and leaves the rest as it was
    obtain ⟨l, hs⟩ := step_refused hgfx ⟨[1], "png", 1, 1⟩ hlookup
    refine ⟨_, _, hrun.snoc hs, ?_, hgfx, hcache⟩
    rw [nextCalls_concat, hcalls, if_neg (Engine.next_ne w.engine.idAlloc)]

/-- The 2^32th call of `Next` returns 0. -/
theorem next_comes_round :
    ¬ ∀ (tr : List (Transition World Label)) (w : World),
      Runs Script.firstByte (Engine.new true true true false 1) tr w → ∀ t ∈ tr, IDsUnique t := by
  intro h
  obtain ⟨tr, w, hrun, hcalls, -⟩ := exists_runs_of_nextCalls (2 ^ 32)
  have hfew := (few_of_idsUnique hrun (h tr w hrun)).1
  rw [hcalls] at hfew
  exact absurd hfew (Nat.lt_irrefl _)

end World

end Kgd
