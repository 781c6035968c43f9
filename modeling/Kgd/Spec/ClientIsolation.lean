import Kgd.Spec.SoloRefinement
import Mathlib.Logic.Relator

/-!
# Clients do not affect each other's handles and placements

Two runs in which a client performs the same operations, whatever everybody else does, are
compared through `Solo`: each run keeps the client's handles and placements in the state that
its operations determine.

One thing leaks. Eviction is decided from handle counts alone, so an upload of another client
can evict an image that a placement still uses; when its owner uploads it again it gets a
second kitty ID, which it would not have got otherwise.

## Key results

- `World.follows_of_runs`: handles, replies and placements follow the client's own operations
- `World.isolated_of_runs`: the two-run law, where no placed image of the client is evicted
- `World.isolation_fails`
-/

namespace Kgd

namespace Engine

/-- A cached image stays cached unless an upload that stores new data evicts it. -/
theorem byID_of_kept {hash128 : Data → Hash} {env : Env} {e e' : Engine} {input : Input}
    {out : List Action} (h : e.Accounts) (hstep : ImageStep hash128 env e input out e')
    (hfresh : e'.idAlloc ≠ e.idAlloc → e.FreshID) {id : UInt32} (hid : id ∈ e.cache.byID)
    (hkept : ∀ c params, input = .event (.uploadRequest c params) →
      e.cache.lookup hash128 params.data = none →
      ∀ en ∈ RecencyCache.victims e.cache.maxSize e.cache.view, id ≠ en.kittyImgID) :
    id ∈ e'.cache.byID := by
  have hwf' := (accounts_step h hstep hfresh).wf
  cases hstep with
  | quiet _ _ _ hcache => rw [hcache]; exact hid
  | hit hlookup => exact (Cache.byID_store_hit hlookup _) ▸ hid
  | refused => exact hid
  | @miss c params e₁ _ _ hlookup _ hevict =>
    obtain ⟨hcache, -, -⟩ := h.of_evict hlookup hevict
    obtain ⟨en, hen, rfl⟩ := (h.wf.mem_byID id).mp hid
    rw [hwf'.mem_byID, setHandle, hcache, view_store_miss h.wf hlookup]
    refine ⟨en, List.mem_cons_of_mem _ ?_, rfl⟩
    -- the eviction keeps an entry or makes it a victim
    rcases (RecencyList.mem_iff_keep_or_victims _ _ _ en).mp hen with hkeep | hvictim
    · exact hkeep
    · exact absurd rfl (hkept c params rfl hlookup en hvictim)
  | free => rw [Cache.byID_release]; exact hid
  | disconnect hcache => rw [hcache, byID_releaseAll]; exact hid

end Engine

namespace World

/-! ## One run -/

/-- The entries that an iteration evicts, if it is an upload that stores new data. -/
def evictedBy (hash128 : Data → Hash) (t : Transition World Label) : List CacheEntry :=
  match t.label.input with
  | .event (.uploadRequest _ params) =>
    if (t.pre.engine.cache.lookup hash128 params.data).isNone then
      RecencyCache.victims t.pre.engine.cache.maxSize t.pre.engine.cache.view
    else []
  | _ => []

/-- An iteration evicts no image that a placement of `c` shows. -/
def KeepsPlaced (hash128 : Data → Hash) (c : ClientID) (t : Transition World Label) : Prop :=
  ∀ en ∈ evictedBy hash128 t, ∀ (pid : UInt32) (p : Placement),
    t.pre.engine.placements[pid]? = some p → p.clientID = c → p.kittyImgID ≠ en.kittyImgID

section Runs
variable {hash128 : Data → Hash} {gfx notifier stopFunc inTmux : Bool} {maxSize : Int}
  {tr : List (Transition World Label)} {w : World} {c : ClientID} {ops : List ClientOp}

/-- As long as fewer than 2^32 placements have been created, a new one has a new ID. -/
theorem freshPlacement_of_runs {l : Label} {w' : World}
    (h : Runs hash128 (Engine.new gfx notifier stopFunc inTmux maxSize) tr w)
    (hcount : placementsCreated (tr ++ [⟨w, l, w'⟩]) < 2 ^ 32)
    (hmoved : w'.engine.nextPlacement ≠ w.engine.nextPlacement) : w.engine.FreshPlacement := by
  have hsum : placementsCreated (tr ++ [⟨w, l, w'⟩]) = placementsCreated tr + 1 := by
    simp [placementsCreated, List.countP_append, Ne.symm hmoved]
  obtain ⟨hnext, -⟩ := nextPlacement_of_runs h (by omega)
  refine ⟨nextPlacement_fresh_step h hcount hmoved, ?_⟩
  have hone : (1 : UInt32).toNat = 1 := rfl
  rw [UInt32.toNat_add, hone]
  omega

/-- At the start a client has no handles, alone or among others. -/
theorem handlesOf_new :
    Solo.start.HandlesOf c [] (Engine.new gfx notifier stopFunc inTmux maxSize) := by
  constructor
  · intro handle
    simp [Solo.start, Engine.new, Engine.handleImage]
  · rfl

/-- At the start a client has no placements, alone or among others. -/
theorem placementsOf_new :
    Solo.start.PlacementsOf c [] (Engine.new gfx notifier stopFunc inTmux maxSize) := by
  constructor
  · rfl
  · intro call pid hcall
    exact nomatch hcall
  · intro pid howned
    simp [Engine.new, Engine.ownedBy] at howned
  · intro call call' pid hcall
    exact nomatch hcall
  · intro call pid hcall
    exact nomatch hcall

/-- In every run in which `Transmit` does not fail and no ID is reused, whatever the other
    clients do, the handles, the replies and the placements of a client follow its own
    operations; where no step evicts an image that it has placed, so do the images. -/
theorem follows_of_runs
    (h : Runs hash128 (Engine.new gfx notifier stopFunc inTmux maxSize) tr w)
    (hops : clientOps c tr = some ops) (hok : ∀ t ∈ tr, Engine.TransmitsOk t.label.out)
    (hcalls : nextCalls tr < 2 ^ 32 - 1) (hcount : placementsCreated tr < 2 ^ 32) :
    (Solo.run hash128 ops).HandlesOf c (uploadReplies c tr) w.engine ∧
      (Solo.run hash128 ops).PlacementsOf c (placeReplies c tr) w.engine ∧
      ((∀ t ∈ tr, KeepsPlaced hash128 c t) →
        (Solo.run hash128 ops).ContentsOf c (placeReplies c tr) w.engine) := by
  have hfresh := fresh_of_nextCalls h hcalls
  -- the induction is on the run, with the client's operations so far as its history
  clear hcalls
  revert ops
  revert hok hcount hfresh
  refine Run.historyInvariant (I := fun tr w => (∀ t ∈ tr, Engine.TransmitsOk t.label.out) →
    placementsCreated tr < 2 ^ 32 → (∀ t ∈ tr, FreshStep t) →
    ∀ {ops}, clientOps c tr = some ops →
      (Solo.run hash128 ops).HandlesOf c (uploadReplies c tr) w.engine ∧
      (Solo.run hash128 ops).PlacementsOf c (placeReplies c tr) w.engine ∧
      ((∀ t ∈ tr, KeepsPlaced hash128 c t) →
        (Solo.run hash128 ops).ContentsOf c (placeReplies c tr) w.engine)) ?_ ?_ h
  · intro _ _ _ ops hops
    obtain rfl := Option.some.inj hops
    exact ⟨handlesOf_new, placementsOf_new, fun _ call pid params id hcall => nomatch hcall⟩
  · intro tr w l w' hrun ih hs hok hcount hfresh ops hops
    obtain ⟨ops', op, hops', hop, rfl⟩ := clientOps_concat hops
    have hmono : placementsCreated tr ≤ placementsCreated (tr ++ [⟨w, l, w'⟩]) := by
      simp [placementsCreated, List.countP_append]
    have hfresh' : ∀ t ∈ tr, FreshStep t := fun t ht => hfresh t (List.mem_append_left _ ht)
    have hlast : (⟨w, l, w'⟩ : Transition World Label) ∈ tr ++ [⟨w, l, w'⟩] := by simp
    obtain ⟨hhandles, hplacements, hcontents⟩ :=
      ih (fun t ht => hok t (List.mem_append_left _ ht)) (by omega) hfresh' hops'
    have hacc := accounts_of_fresh hrun hfresh'
    have hnext := freshPlacement_of_runs hrun hcount
    have hisOp := isOp_of_clientOp hop
    obtain ⟨env, hr, -⟩ := hs
    have himage := Engine.imageStep_of_receive hr
    have huploads : uploadReplies c (tr ++ [⟨w, l, w'⟩]) =
        uploadReplies c tr ++ l.uploadReplies c := by simp [uploadReplies]
    have hplaces : placeReplies c (tr ++ [⟨w, l, w'⟩]) =
        placeReplies c tr ++ l.placeReplies c := by simp [placeReplies]
    rw [huploads, hplaces, Solo.run_append]
    refine ⟨?_, ?_, fun hkeeps => ?_⟩
    · exact Solo.handlesOf_step hhandles hacc hisOp himage (hfresh _ hlast) (hok _ hlast)
    · exact Solo.placementsOf_step hplacements hhandles hacc hisOp hr hnext
    · -- what this step evicts is not placed by the client
      have hbefore := hcontents fun t ht => hkeeps t (List.mem_append_left _ ht)
      refine Solo.contentsOf_step hbefore hplacements hhandles hacc hisOp hr (hfresh _ hlast)
        hnext fun pid params id howned hcached => ?_
      obtain ⟨p, hp, hclient, -, rfl⟩ := Engine.ownedBy_eq_some.mp howned
      refine Engine.byID_of_kept hacc himage (hfresh _ hlast) hcached
        fun c' params' hin hlookup en hen => hkeeps _ hlast en ?_ pid p hp hclient
      simp only [evictedBy, hin, hlookup, Option.isNone_none, ↓reduceIte]
      exact hen

end Runs

/-! ## Two runs -/

/-- The placements of `c` are the same up to one-to-one renamings of placement IDs and of kitty
    IDs; positions and visibility follow the geometry and are left out. -/
structure SamePlacements (c : ClientID) (samePid sameImg : UInt32 → UInt32 → Prop)
    (e₁ e₂ : Engine) : Prop where
  pids : Relator.BiUnique samePid
  kittyIDs : Relator.BiUnique sameImg
  left : ∀ (pid₁ : UInt32) (p₁ : Placement), e₁.placements[pid₁]? = some p₁ → p₁.clientID = c →
    ∃ (pid₂ : UInt32) (p₂ : Placement), e₂.placements[pid₂]? = some p₂ ∧ p₂.clientID = c ∧
      samePid pid₁ pid₂ ∧ sameImg p₁.kittyImgID p₂.kittyImgID ∧ p₁.request = p₂.request
  right : ∀ (pid₂ : UInt32) (p₂ : Placement), e₂.placements[pid₂]? = some p₂ → p₂.clientID = c →
    ∃ (pid₁ : UInt32) (p₁ : Placement), e₁.placements[pid₁]? = some p₁ ∧ p₁.clientID = c ∧
      samePid pid₁ pid₂ ∧ sameImg p₁.kittyImgID p₂.kittyImgID ∧ p₁.request = p₂.request

/-- What `c` sees of two runs is the same. -/
structure LooksSame (c : ClientID) (tr₁ : List (Transition World Label)) (w₁ : World)
    (tr₂ : List (Transition World Label)) (w₂ : World) : Prop where
  uploads : uploadReplies c tr₁ = uploadReplies c tr₂
  places : (placeReplies c tr₁).map Except.isOk = (placeReplies c tr₂).map Except.isOk
  handles : ∀ handle, handle ∈ w₁.engine.table c ↔ handle ∈ w₂.engine.table c
  placements : ∃ samePid sameImg, SamePlacements c samePid sameImg w₁.engine w₂.engine

end World

namespace Solo

variable {s : Solo} {c : ClientID} {uploads₁ uploads₂ places₁ places₂ : List (Except String UInt32)}
  {e₁ e₂ : Engine}

/-- Two calls with the same number are granted or refused in both engines. -/
theorem granted_of_granted (h₁ : s.PlacementsOf c places₁ e₁) (h₂ : s.PlacementsOf c places₂ e₂)
    {call : Nat} {pid₁ : UInt32} (hcall : places₁[call]? = some (.ok pid₁)) :
    ∃ pid₂, places₂[call]? = some (.ok pid₂) := by
  have haccepted : (places₂.map Except.isOk)[call]? = some true := by
    rw [h₂.accepted, ← h₁.accepted, List.getElem?_map, hcall]
    rfl
  rw [List.getElem?_map, Option.map_eq_some_iff] at haccepted
  obtain ⟨r, hr, hok⟩ := haccepted
  cases r with
  | error msg => exact nomatch hok
  | ok pid₂ => exact ⟨pid₂, hr⟩

/-- A placement of one engine has its counterpart in every engine that follows the same
    operations. -/
theorem counterpart (h₁ : s.PlacementsOf c places₁ e₁) (h₂ : s.PlacementsOf c places₂ e₂)
    (hc₁ : s.ContentsOf c places₁ e₁) (hc₂ : s.ContentsOf c places₂ e₂) {pid₁ : UInt32}
    {p₁ : Placement} (hp₁ : e₁.placements[pid₁]? = some p₁) (hclient : p₁.clientID = c) :
    ∃ (pid₂ : UInt32) (p₂ : Placement), e₂.placements[pid₂]? = some p₂ ∧ p₂.clientID = c ∧
      (∃ call : Nat, places₁[call]? = some (.ok pid₁) ∧ places₂[call]? = some (.ok pid₂)) ∧
      (∃ k, e₁.imageHash p₁.kittyImgID = some k ∧ e₂.imageHash p₂.kittyImgID = some k) ∧
      p₁.request = p₂.request := by
  have howned₁ : e₁.ownedBy c pid₁ = some (p₁.request, p₁.kittyImgID) :=
    Engine.ownedBy_eq_some.mpr ⟨p₁, hp₁, hclient, rfl, rfl⟩
  obtain ⟨call, hcall₁⟩ := h₁.returned pid₁ (by rw [howned₁]; rfl)
  obtain ⟨pid₂, hcall₂⟩ := granted_of_granted h₁ h₂ hcall₁
  obtain ⟨k, hplaced, hk₁⟩ := hc₁ call pid₁ _ _ hcall₁ howned₁
  -- the call's placement is still there, so it is in the other engine too
  have hthere := h₂.placed call pid₂ hcall₂
  rw [hplaced, Option.map_some, eq_comm, Option.map_eq_some_iff] at hthere
  obtain ⟨⟨params, id₂⟩, howned₂, hparams⟩ := hthere
  obtain ⟨k', hplaced', hk₂⟩ := hc₂ call pid₂ params id₂ hcall₂ howned₂
  obtain ⟨p₂, hp₂, hclient₂, hrequest, rfl⟩ := Engine.ownedBy_eq_some.mp howned₂
  have hsame : k' = k := by
    rw [hplaced'] at hplaced
    exact (Prod.mk.inj (Option.some.inj hplaced)).2
  exact ⟨pid₂, p₂, hp₂, hclient₂, ⟨call, hcall₁, hcall₂⟩, ⟨k, hk₁, hsame ▸ hk₂⟩,
    (hrequest.trans hparams).symm⟩

/-- Engines that follow the same operations of `c` hold the same placements of `c`, up to the
    renamings that match Place calls and contents. -/
theorem samePlacements (h₁ : s.PlacementsOf c places₁ e₁) (h₂ : s.PlacementsOf c places₂ e₂)
    (hc₁ : s.ContentsOf c places₁ e₁) (hc₂ : s.ContentsOf c places₂ e₂) (hwf₁ : e₁.cache.WF)
    (hwf₂ : e₂.cache.WF) :
    World.SamePlacements c
      (fun pid₁ pid₂ => ∃ call : Nat, places₁[call]? = some (.ok pid₁) ∧
        places₂[call]? = some (.ok pid₂))
      (fun id₁ id₂ => ∃ k, e₁.imageHash id₁ = some k ∧ e₂.imageHash id₂ = some k) e₁ e₂ := by
  refine ⟨⟨?_, ?_⟩, ⟨?_, ?_⟩, ?_, ?_⟩
  · rintro pid₁ pid₁' pid₂ ⟨call, hcall₁, hcall₂⟩ ⟨call', hcall₁', hcall₂'⟩
    obtain rfl := h₂.distinct call call' pid₂ hcall₂ hcall₂'
    exact Except.ok.inj (Option.some.inj (hcall₁.symm.trans hcall₁'))
  · rintro pid₁ pid₂ pid₂' ⟨call, hcall₁, hcall₂⟩ ⟨call', hcall₁', hcall₂'⟩
    obtain rfl := h₁.distinct call call' pid₁ hcall₁ hcall₁'
    exact Except.ok.inj (Option.some.inj (hcall₂.symm.trans hcall₂'))
  · rintro id₁ id₁' id₂ ⟨k, hk₁, hk₂⟩ ⟨k', hk₁', hk₂'⟩
    obtain rfl := Option.some.inj (hk₂.symm.trans hk₂')
    exact Engine.imageHash_injective hwf₁ hk₁ hk₁'
  · rintro id₁ id₂ id₂' ⟨k, hk₁, hk₂⟩ ⟨k', hk₁', hk₂'⟩
    obtain rfl := Option.some.inj (hk₁.symm.trans hk₁')
    exact Engine.imageHash_injective hwf₂ hk₂ hk₂'
  -- a placement in one of the runs has its counterpart in the other, and the other way round
  · intro pid₁ p₁ hp₁ hclient
    exact counterpart h₁ h₂ hc₁ hc₂ hp₁ hclient
  · intro pid₂ p₂ hp₂ hclient
    obtain ⟨pid₁, p₁, hp₁, hclient₁, ⟨call, hcall₂, hcall₁⟩, ⟨k, hk₂, hk₁⟩, hrequest⟩ :=
      counterpart h₂ h₁ hc₂ hc₁ hp₂ hclient
    exact ⟨pid₁, p₁, hp₁, hclient₁, ⟨call, hcall₁, hcall₂⟩, ⟨k, hk₁, hk₂⟩, hrequest.symm⟩

end Solo

namespace World

section TwoRuns
variable {hash128 : Data → Hash} {c : ClientID} {ops : List ClientOp}
  {gfx₁ notifier₁ stopFunc₁ inTmux₁ gfx₂ notifier₂ stopFunc₂ inTmux₂ : Bool}
  {maxSize₁ maxSize₂ : Int} {tr₁ tr₂ : List (Transition World Label)} {w₁ w₂ : World}

/-- Two runs in which `c` performs the same operations, and in which no step evicts an image
    that `c` has placed, look the same to `c`. Since a run may end after any of its steps, this
    holds after each operation of `c`. -/
theorem isolated_of_runs
    (h₁ : Runs hash128 (Engine.new gfx₁ notifier₁ stopFunc₁ inTmux₁ maxSize₁) tr₁ w₁)
    (h₂ : Runs hash128 (Engine.new gfx₂ notifier₂ stopFunc₂ inTmux₂ maxSize₂) tr₂ w₂)
    (hops₁ : clientOps c tr₁ = some ops) (hops₂ : clientOps c tr₂ = some ops)
    (hok₁ : ∀ t ∈ tr₁, Engine.TransmitsOk t.label.out)
    (hok₂ : ∀ t ∈ tr₂, Engine.TransmitsOk t.label.out)
    (hcalls₁ : nextCalls tr₁ < 2 ^ 32 - 1) (hcalls₂ : nextCalls tr₂ < 2 ^ 32 - 1)
    (hcount₁ : placementsCreated tr₁ < 2 ^ 32) (hcount₂ : placementsCreated tr₂ < 2 ^ 32)
    (hkeeps₁ : ∀ t ∈ tr₁, KeepsPlaced hash128 c t) (hkeeps₂ : ∀ t ∈ tr₂, KeepsPlaced hash128 c t) :
    LooksSame c tr₁ w₁ tr₂ w₂ := by
  obtain ⟨hh₁, hp₁, hc₁⟩ := follows_of_runs h₁ hops₁ hok₁ hcalls₁ hcount₁
  obtain ⟨hh₂, hp₂, hc₂⟩ := follows_of_runs h₂ hops₂ hok₂ hcalls₂ hcount₂
  have hacc₁ := accounts_of_fresh h₁ (fresh_of_nextCalls h₁ hcalls₁)
  have hacc₂ := accounts_of_fresh h₂ (fresh_of_nextCalls h₂ hcalls₂)
  -- each run shows the client what it would see alone, so both show the same
  constructor
  · rw [hh₁.uploads, hh₂.uploads]
  · rw [hp₁.accepted, hp₂.accepted]
  · intro handle
    rw [Engine.mem_table_iff, Engine.mem_table_iff, ← hh₁.isSome_iff hacc₁, ← hh₂.isSome_iff hacc₂]
  · exact ⟨_, _, Solo.samePlacements hp₁ hp₂ (hc₁ hkeeps₁) (hc₂ hkeeps₂) hacc₁.wf hacc₂.wf⟩

end TwoRuns

/-- "a" uploads an image, places it and frees the handle. -/
def placeAndFree : List (Env × Input) :=
  [Script.upload "a" [1], Script.place "a" 1 Script.absolute, Script.free "a" 1]

/-- "a" uploads the image again and places it. -/
def placeAgain : List (Env × Input) :=
  [Script.upload "a" [1], Script.place "a" 1 Script.absolute]

/-- With room for both images an upload of "b" in between makes no difference. -/
theorem isolated_of_runs_placeAgain :
    ∃ tr₁ w₁ tr₂ w₂, Runs Script.firstByte (Engine.new true true true false 8) tr₁ w₁ ∧
      Runs Script.firstByte (Engine.new true true true false 8) tr₂ w₂ ∧
      LooksSame "a" tr₁ w₁ tr₂ w₂ := by
  have h₁ := runs_of_exec Script.firstByte (Engine.new true true true false 8)
    (placeAndFree ++ Script.upload "b" [2] :: placeAgain) (by decide)
  have h₂ := runs_of_exec Script.firstByte (Engine.new true true true false 8)
    (placeAndFree ++ placeAgain) (by decide)
  -- nothing is evicted in either run
  have hkeeps {tr : List (Transition World Label)}
      (hnone : ∀ t ∈ tr, evictedBy Script.firstByte t = []) :
      ∀ t ∈ tr, KeepsPlaced Script.firstByte "a" t := by
    intro t ht en hen
    rw [hnone t ht] at hen
    exact nomatch hen
  refine ⟨_, _, _, _, h₁, h₂, isolated_of_runs h₁ h₂ rfl rfl (by decide) (by decide) (by decide)
    (by decide) (by decide) (by decide) (hkeeps (by decide)) (hkeeps (by decide))⟩

/-- Two placements with different images have no counterparts among placements of one image. -/
theorem not_samePlacements {c : ClientID} {samePid sameImg : UInt32 → UInt32 → Prop}
    {e₁ e₂ : Engine} (pid pid' id id' : UInt32)
    (h : e₁.placements[pid]?.map (fun p => (p.clientID, p.kittyImgID)) = some (c, id))
    (h' : e₁.placements[pid']?.map (fun p => (p.clientID, p.kittyImgID)) = some (c, id'))
    (hne : id ≠ id')
    (hall : ∀ x ∈ GoMap.entries default e₂.placements, x.2.kittyImgID = id) :
    ¬ SamePlacements c samePid sameImg e₁ e₂ := by
  intro hsame
  obtain ⟨p, hp, heq⟩ := Option.map_eq_some_iff.mp h
  obtain ⟨p', hp', heq'⟩ := Option.map_eq_some_iff.mp h'
  obtain ⟨hclient, rfl⟩ := Prod.mk.inj heq
  obtain ⟨hclient', rfl⟩ := Prod.mk.inj heq'
  obtain ⟨pid₂, p₂, hp₂, -, -, himg, -⟩ := hsame.left pid p hp hclient
  obtain ⟨pid₂', p₂', hp₂', -, -, himg', -⟩ := hsame.left pid' p' hp' hclient'
  -- both counterparts show the one image, whose own counterparts differ
  have hone := hall (pid₂, p₂) ((GoMap.mem_entries ..).mpr hp₂)
  have hone' := hall (pid₂', p₂') ((GoMap.mem_entries ..).mpr hp₂')
  simp only at hone hone'
  rw [hone] at himg
  rw [hone'] at himg'
  exact hne (hsame.kittyIDs.1 himg himg')

/-- With room for one image, the upload of "b" evicts the image that "a" has placed; uploaded
    again it gets another kitty ID, which it does not without "b". -/
theorem isolation_fails :
    ∃ tr₁ w₁ tr₂ w₂ ops, Runs Script.firstByte (Engine.new true true true false 1) tr₁ w₁ ∧
      Runs Script.firstByte (Engine.new true true true false 1) tr₂ w₂ ∧
      clientOps "a" tr₁ = some ops ∧ clientOps "a" tr₂ = some ops ∧
      (∀ t ∈ tr₁ ++ tr₂, Engine.TransmitsOk t.label.out) ∧
      nextCalls tr₁ = 3 ∧ nextCalls tr₂ = 1 ∧
      placementsCreated tr₁ = 2 ∧ placementsCreated tr₂ = 2 ∧
      ¬ LooksSame "a" tr₁ w₁ tr₂ w₂ := by
  have h₁ := runs_of_exec Script.firstByte (Engine.new true true true false 1)
    (placeAndFree ++ Script.upload "b" [2] :: placeAgain) (by decide)
  have h₂ := runs_of_exec Script.firstByte (Engine.new true true true false 1)
    (placeAndFree ++ placeAgain) (by decide)
  refine ⟨_, _, _, _, _, h₁, h₂, rfl, rfl, by decide, by decide, by decide, by decide, by decide,
    fun hsame => ?_⟩
  obtain ⟨samePid, sameImg, hplacements⟩ := hsame.placements
  exact not_samePlacements 1 2 1 3 (by decide) (by decide) (by decide) (by decide) hplacements

end World

end Kgd
