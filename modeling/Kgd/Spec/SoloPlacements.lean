import Kgd.ForStd.List
import Kgd.Spec.SoloHandles
import Kgd.Spec.TerminalMirror

/-!
# A client's placements follow its own operations

A placement is known by the Place call that returned its ID. IDs are handed out in increasing
order while their counter does not wrap, so each call has an ID of its own, and what the
placement asks for is what `Solo` says of the call.

## Key results

- `Engine.ownedBy_of_other`: inputs of others leave a client's placements alone
- `Solo.PlacementsOf`, with one lemma for each kind of input
-/

namespace Kgd

/-- What the Place request asked for that created the placement. -/
def Placement.request (p : Placement) : PlaceParams :=
  { handle := p.imageHandle, anchor := p.anchor, width := p.width, height := p.height,
    srcX := p.srcX, srcY := p.srcY, srcW := p.srcW, srcH := p.srcH, zIndex := p.zIndex }

namespace Engine

/-- The request and the image of a placement of `c`. -/
def ownedBy (e : Engine) (c : ClientID) (pid : UInt32) : Option (PlaceParams × UInt32) :=
  e.placements[pid]?.bind fun p =>
    if p.clientID = c then some (p.request, p.kittyImgID) else none

/-- What a client owns under an ID is its placement with that ID. -/
theorem ownedBy_eq_some {e : Engine} {c : ClientID} {pid id : UInt32} {params : PlaceParams} :
    e.ownedBy c pid = some (params, id) ↔ ∃ p, e.placements[pid]? = some p ∧ p.clientID = c ∧
      p.request = params ∧ p.kittyImgID = id := by
  simp only [ownedBy, Option.bind_eq_some_iff, Option.ite_none_right_eq_some, Option.some.injEq,
    Prod.mk.injEq]

/-- The next placement ID is new, and larger than every earlier one. -/
def FreshPlacement (e : Engine) : Prop :=
  e.nextPlacement + 1 ∉ e.placements ∧
    (e.nextPlacement + 1).toNat = e.nextPlacement.toNat + 1

section Steps
variable {env : Env} {e e' : Engine} {input : Input} {out : List Action} {c : ClientID}

/-- Only a client's own inputs create and remove its placements. -/
theorem ownedBy_of_other (h : PlacementStep env e input out e')
    (hnext : e'.nextPlacement ≠ e.nextPlacement → e.FreshPlacement)
    (hplace : ∀ params, input ≠ .event (.placeRequest c params))
    (hunplace : ∀ pid, input ≠ .event (.unplaceRequest c pid))
    (hall : input ≠ .event (.unplaceAllRequest c))
    (hdisc : input ≠ .event (.clientDisconnect c)) (pid : UInt32) :
    e'.ownedBy c pid = e.ownedBy c pid := by
  -- what another client removes is its own
  have hremoved (c' : ClientID) (hne : c ≠ c') :
      (e.removeOwned env c').1.ownedBy c pid = e.ownedBy c pid := by
    simp only [ownedBy, placements_removeOwned]
    cases e.placements[pid]? with
    | none => rfl
    | some p =>
      by_cases hp : p.clientID = c'
      · simp [hp, Ne.symm hne]
      · simp [hp]
  cases h with
  | same _ _ _ _ _ hplacements => rw [ownedBy, hplacements, ownedBy]
  | @place c' params kittyID =>
    have hne : c ≠ c' := fun heq => hplace params (heq ▸ rfl)
    have hmoved : e.nextPlacement + 1 ≠ e.nextPlacement := by simp
    by_cases hpid : pid = e.nextPlacement + 1
    · -- the new placement is not one of `c`, and replaces none
      have hnone : e.placements[e.nextPlacement + 1]? = none :=
        Std.ExtTreeMap.getElem?_eq_none (hnext hmoved).1
      have howner : (e.placed env c' params kittyID).clientID = c' := rfl
      simp [ownedBy, hpid, hnone, howner, Ne.symm hne]
    · simp only [ownedBy, GoMap.getElem?_insert_ne _ _ hpid]
  | @unplace pid' p hp =>
    have hne : p.clientID ≠ c := fun heq => hunplace pid' (heq ▸ rfl)
    by_cases hpid : pid = pid'
    · subst hpid
      simp [ownedBy, hp, hne]
    · simp only [ownedBy, GoMap.getElem?_erase_ne _ hpid]
  | @unplaceAll c' => exact hremoved c' fun heq => hall (heq ▸ rfl)
  | @disconnect c' _ hplacements =>
    have hsame : e'.ownedBy c pid = (e.removeOwned env c').1.ownedBy c pid := by
      rw [ownedBy, hplacements, ownedBy]
    exact hsame.trans (hremoved c' fun heq => hdisc (heq ▸ rfl))
  | @recompute _ g _ hgeometry =>
    rw [ownedBy, placements_recompute, geometryUpdate_eq_some hgeometry, ownedBy]
    cases e.placements[pid]? with
    | none => rfl
    | some p =>
      simp only [Option.map_some, Option.bind_some]
      rw [recomputeOne_fst]
      rfl

/-- An unplace request takes away one of the client's placements. -/
theorem ownedBy_of_unplace {pid' : UInt32}
    (h : PlacementStep env e (.event (.unplaceRequest c pid')) out e') (pid : UInt32) :
    e'.ownedBy c pid = if pid = pid' then none else e.ownedBy c pid := by
  generalize hin : Input.event (.unplaceRequest c pid') = input at h
  cases h with
  | same _ _ hunplace _ _ hplacements =>
    have hsame : e'.ownedBy c pid = e.ownedBy c pid := by rw [ownedBy, hplacements, ownedBy]
    rw [hsame]
    split
    · rename_i heq
      subst heq
      -- there was no placement of `c` to remove
      cases howned : e.ownedBy c pid with
      | none => rfl
      | some x =>
        obtain ⟨p, hp, hclient, -, -⟩ := ownedBy_eq_some.mp (show e.ownedBy c pid = some (x.1, x.2)
          from howned)
        exact absurd hclient (hunplace c pid hin.symm p hp)
    · rfl
  | unplace =>
    obtain ⟨rfl, rfl⟩ := Event.unplaceRequest.inj (Input.event.inj hin)
    split
    · rename_i heq
      simp [ownedBy, heq]
    · rename_i hne
      simp only [ownedBy, GoMap.getElem?_erase_ne _ hne]
  | recompute hgeometry => rw [← hin] at hgeometry; exact nomatch hgeometry
  | place | unplaceAll | disconnect => exact nomatch hin

/-- A client whose placements were removed owns none. -/
theorem ownedBy_of_removeOwned (pid : UInt32) : (e.removeOwned env c).1.ownedBy c pid = none := by
  simp only [ownedBy, placements_removeOwned]
  cases e.placements[pid]? with
  | none => rfl
  | some p => by_cases hp : p.clientID = c <;> simp [hp]

/-- A client that removes all its placements or leaves has none. -/
theorem ownedBy_of_removal (h : PlacementStep env e input out e')
    (hin : input = .event (.unplaceAllRequest c) ∨ input = .event (.clientDisconnect c))
    (pid : UInt32) : e'.ownedBy c pid = none := by
  cases h with
  | same _ _ _ hall hdisc =>
    rcases hin with hin | hin
    · exact absurd hin (hall c)
    · exact absurd hin (hdisc c)
  | @unplaceAll c' =>
    -- the step is the one that was asked for
    have heq : c' = c := by simpa using hin
    subst heq
    exact ownedBy_of_removeOwned pid
  | @disconnect c' _ hplacements =>
    have heq : c' = c := by simpa using hin
    subst heq
    rw [ownedBy, hplacements, ← ownedBy]
    exact ownedBy_of_removeOwned pid
  | recompute hgeometry =>
    rcases hin with rfl | rfl <;> exact nomatch hgeometry
  | place | unplace => simp at hin

end Steps

/-- A Place request with an unknown handle is refused and changes nothing; one with a known
    handle creates a placement and returns its ID. -/
theorem handlePlace_cases (env : Env) (e : Engine) (c : ClientID) (params : PlaceParams) :
    (e.handleImage c params.handle = none ∧ (e.handlePlace env c params).1 = e ∧
      ∃ msg, (e.handlePlace env c params).2.filterMap Action.placeReply? = [.error msg]) ∨
    ∃ id, e.handleImage c params.handle = some id ∧
      (e.handlePlace env c params).1.placements =
        e.placements.insert (e.nextPlacement + 1) (e.placed env c params id) ∧
      (e.handlePlace env c params).1.nextPlacement = e.nextPlacement + 1 ∧
      (e.handlePlace env c params).2.filterMap Action.placeReply? =
        [.ok (e.nextPlacement + 1)] := by
  unfold handlePlace
  split
  · rename_i hc
    exact Or.inl ⟨by simp [handleImage, hc], rfl, _, rfl⟩
  · rename_i images hc
    split
    · rename_i hh
      exact Or.inl ⟨by simp [handleImage, hc, hh], rfl, _, rfl⟩
    · rename_i id hh
      refine Or.inr ⟨id, by simp [handleImage, hc, hh], rfl, rfl, ?_⟩
      -- the terminal calls are no replies, so the one reply is the new ID
      have hquiet (calls : List GfxCall) : (e.gfxCalls calls).filterMap Action.placeReply? = [] :=
        Action.filterMap_of_noReply (fun _ _ => Action.eq_of_placeReply?)
          (noReply_gfxCalls e calls)
      rw [List.filterMap_append]
      split
      · rw [hquiet]; rfl
      · rfl

end Engine

/-- The placements of `c` and the replies to its Place calls are those of `s`. -/
structure Solo.PlacementsOf (s : Solo) (c : ClientID) (places : List (Except String UInt32))
    (e : Engine) : Prop where
  accepted : places.map Except.isOk = s.accepted
  /-- a placement asks for what its call asked for, and is there as long -/
  placed : ∀ (call : Nat) (pid : UInt32), places[call]? = some (.ok pid) →
    (s.placed call).map Prod.fst = (e.ownedBy c pid).map Prod.fst
  /-- the IDs of the client's placements were returned to it -/
  returned : ∀ pid, (e.ownedBy c pid).isSome → ∃ call : Nat, places[call]? = some (.ok pid)
  distinct : ∀ (call call' : Nat) (pid : UInt32), places[call]? = some (.ok pid) →
    places[call']? = some (.ok pid) → call = call'
  bound : ∀ (call : Nat) (pid : UInt32), places[call]? = some (.ok pid) →
    pid.toNat ≤ e.nextPlacement.toNat

namespace Solo.PlacementsOf

variable {hash128 : Data → Hash} {s : Solo} {c : ClientID}
  {places : List (Except String UInt32)} {env : Env} {e e' : Engine} {input : Input}
  {out : List Action}

/-- The counter of placement IDs does not go back before it comes round. -/
theorem nextPlacement_le (h : Engine.PlacementStep env e input out e')
    (hnext : e'.nextPlacement ≠ e.nextPlacement → e.FreshPlacement) :
    e.nextPlacement.toNat ≤ e'.nextPlacement.toNat := by
  rcases Engine.nextPlacement_cases h with heq | heq
  · rw [heq]
  · have hmoved : e'.nextPlacement ≠ e.nextPlacement := by rw [heq]; simp
    rw [heq, (hnext hmoved).2]
    omega

/-- Returned IDs stay at or below the counter. -/
theorem bound_step (h : s.PlacementsOf c places e) (hstep : Engine.PlacementStep env e input out e')
    (hnext : e'.nextPlacement ≠ e.nextPlacement → e.FreshPlacement) (call : Nat) (pid : UInt32)
    (hcall : places[call]? = some (.ok pid)) : pid.toNat ≤ e'.nextPlacement.toNat :=
  (h.bound call pid hcall).trans (nextPlacement_le hstep hnext)

/-- What is no operation on the client's placements keeps them as they are alone. -/
theorem of_other (h : s.PlacementsOf c places e) (hstep : Engine.PlacementStep env e input out e')
    (hnext : e'.nextPlacement ≠ e.nextPlacement → e.FreshPlacement)
    (hplace : ∀ params, input ≠ .event (.placeRequest c params))
    (hunplace : ∀ pid, input ≠ .event (.unplaceRequest c pid))
    (hall : input ≠ .event (.unplaceAllRequest c))
    (hdisc : input ≠ .event (.clientDisconnect c)) : s.PlacementsOf c places e' := by
  have hsame := Engine.ownedBy_of_other hstep hnext hplace hunplace hall hdisc
  refine ⟨h.accepted, ?_, ?_, h.distinct, h.bound_step hstep hnext⟩
  · intro call pid hcall
    rw [hsame]
    exact h.placed call pid hcall
  · intro pid howned
    rw [hsame] at howned
    exact h.returned pid howned

/-- An unplace request removes the same placement as it would alone. -/
theorem of_unplace (h : s.PlacementsOf c places e) {call : Nat} {pid : UInt32}
    (hcall : places[call]? = some (.ok pid))
    (hstep : Engine.PlacementStep env e (.event (.unplaceRequest c pid)) out e')
    (hnext : e'.nextPlacement ≠ e.nextPlacement → e.FreshPlacement) :
    (s.step hash128 (.unplace call)).PlacementsOf c places e' := by
  have howned := Engine.ownedBy_of_unplace hstep
  refine ⟨h.accepted, ?_, ?_, h.distinct, h.bound_step hstep hnext⟩
  · intro call' pid' hcall'
    show (Function.update s.placed call none call').map Prod.fst = _
    rw [howned]
    -- distinct calls have distinct IDs, so exactly the placement of this call goes
    by_cases heq : call' = call
    · subst heq
      have hpid : pid' = pid := Except.ok.inj (Option.some.inj (hcall'.symm.trans hcall))
      rw [Function.update_self, if_pos hpid]
      rfl
    · have hne : pid' ≠ pid := by
        intro hpid
        exact heq (h.distinct call' call pid (hpid ▸ hcall') hcall)
      rw [Function.update_of_ne heq, if_neg hne]
      exact h.placed call' pid' hcall'
  · intro pid' hsome
    rw [howned] at hsome
    split at hsome
    · exact nomatch hsome
    · exact h.returned pid' hsome

/-- A removal of all placements, by the client or because it leaves. -/
theorem of_removal (h : s.PlacementsOf c places e) {s' : Solo}
    (hstep : Engine.PlacementStep env e input out e')
    (hnext : e'.nextPlacement ≠ e.nextPlacement → e.FreshPlacement)
    (hin : input = .event (.unplaceAllRequest c) ∨ input = .event (.clientDisconnect c))
    (haccepted : s'.accepted = s.accepted) (hplaced : ∀ call, s'.placed call = none) :
    s'.PlacementsOf c places e' := by
  have hnone := Engine.ownedBy_of_removal hstep hin
  refine ⟨haccepted ▸ h.accepted, ?_, ?_, h.distinct, h.bound_step hstep hnext⟩
  · intro call pid hcall
    rw [hplaced, hnone]
    rfl
  · intro pid howned
    rw [hnone] at howned
    exact nomatch howned

/-- A returned ID is not the next one. -/
theorem ne_next (h : s.PlacementsOf c places e) (hfresh : e.FreshPlacement) {call : Nat}
    {pid : UInt32} (hcall : places[call]? = some (.ok pid)) : pid ≠ e.nextPlacement + 1 := by
  intro heq
  have hbound := h.bound call pid hcall
  rw [heq, hfresh.2] at hbound
  omega

/-- Alone there are as many place requests as there were replies to. -/
theorem length_accepted (h : s.PlacementsOf c places e) : s.accepted.length = places.length := by
  rw [← h.accepted, List.length_map]

/-- A granted Place request gets a placement of its own, and others keep theirs. -/
theorem ownedBy_of_granted {params : PlaceParams} {id : UInt32}
    (hplacements : e'.placements =
      e.placements.insert (e.nextPlacement + 1) (e.placed env c params id)) (pid : UInt32) :
    e'.ownedBy c pid =
      if pid = e.nextPlacement + 1 then some (params, id) else e.ownedBy c pid := by
  rw [Engine.ownedBy, hplacements]
  split
  · rename_i heq
    have howner : (e.placed env c params id).clientID = c := rfl
    rw [heq, Std.ExtTreeMap.getElem?_insert_self, Option.bind_some, if_pos howner]
    rfl
  · rename_i hne
    rw [GoMap.getElem?_insert_ne _ _ hne, Engine.ownedBy]

/-- The calls once another one was refused: those granted are the earlier ones. -/
theorem call_of_refused {msg : String} {call : Nat} {pid : UInt32}
    (hcall : (places ++ [.error msg])[call]? = some (.ok pid)) :
    places[call]? = some (.ok pid) := by
  rcases List.getElem?_concat_eq_some.mp hcall with hcall | ⟨-, heq⟩
  · exact hcall
  · exact nomatch heq

/-- The calls once another one was granted: an earlier one, with an ID of its own, or the last
    one with the new ID. -/
theorem call_of_granted (h : s.PlacementsOf c places e) (hfresh : e.FreshPlacement) {call : Nat}
    {pid : UInt32}
    (hcall : (places ++ [.ok (e.nextPlacement + 1)])[call]? = some (.ok pid)) :
    (places[call]? = some (.ok pid) ∧ call ≠ places.length ∧ pid ≠ e.nextPlacement + 1) ∨
      (call = places.length ∧ pid = e.nextPlacement + 1) := by
  rcases List.getElem?_concat_eq_some.mp hcall with hcall | ⟨hlast, heq⟩
  · exact Or.inl ⟨hcall, List.ne_length_of_getElem? hcall, h.ne_next hfresh hcall⟩
  · exact Or.inr ⟨hlast, (Except.ok.inj heq).symm⟩

/-- A refused Place request only adds to the replies. -/
theorem of_refused (h : s.PlacementsOf c places e) (msg : String) :
    ({ s with accepted := s.accepted ++ [false] } : Solo).PlacementsOf c
      (places ++ [.error msg]) e := by
  constructor
  · rw [List.map_append, h.accepted]
    rfl
  · intro call pid hcall
    -- a refused call returned no ID, so all IDs are from before
    exact h.placed call pid (call_of_refused hcall)
  · intro pid howned
    obtain ⟨call, hcall⟩ := h.returned pid howned
    exact ⟨call, List.getElem?_concat_of_some _ hcall⟩
  · intro call call' pid hcall hcall'
    exact h.distinct call call' pid (call_of_refused hcall) (call_of_refused hcall')
  · intro call pid hcall
    exact h.bound call pid (call_of_refused hcall)

/-- A granted Place request returns a new ID, above every ID returned before. -/
theorem of_granted (h : s.PlacementsOf c places e) {params : PlaceParams} {id : UInt32} {k : Hash}
    (hfresh : e.FreshPlacement)
    (hplacements : e'.placements =
      e.placements.insert (e.nextPlacement + 1) (e.placed env c params id))
    (hmoved : e'.nextPlacement = e.nextPlacement + 1) :
    ({ s with
        accepted := s.accepted ++ [true]
        placed := Function.update s.placed s.accepted.length (some (params, k)) } :
      Solo).PlacementsOf c (places ++ [.ok (e.nextPlacement + 1)]) e' := by
  have howned := ownedBy_of_granted (c := c) hplacements
  constructor
  · rw [List.map_append, h.accepted]
    rfl
  · intro call pid hcall
    show (Function.update s.placed s.accepted.length (some (params, k)) call).map Prod.fst = _
    rw [howned, h.length_accepted]
    -- an earlier call, whose ID is another one, or this call
    rcases h.call_of_granted hfresh hcall with ⟨hcall, hearlier, hpid⟩ | ⟨rfl, hpid⟩
    · rw [Function.update_of_ne hearlier, if_neg hpid]
      exact h.placed call pid hcall
    · rw [Function.update_self, if_pos hpid]
      rfl
  · intro pid hsome
    rw [howned] at hsome
    split at hsome
    · -- the new ID was returned by the last call
      rename_i heq
      rw [heq]
      exact ⟨places.length, List.getElem?_concat_length⟩
    · obtain ⟨call, hcall⟩ := h.returned pid hsome
      exact ⟨call, List.getElem?_concat_of_some _ hcall⟩
  · intro call call' pid hcall hcall'
    rcases h.call_of_granted hfresh hcall with ⟨hcall, -, hpid⟩ | ⟨rfl, hpid⟩ <;>
      rcases h.call_of_granted hfresh hcall' with ⟨hcall', -, hpid'⟩ | ⟨rfl, hpid'⟩
    · exact h.distinct call call' pid hcall hcall'
    · exact absurd hpid' hpid
    · exact absurd hpid hpid'
    · rfl
  · intro call pid hcall
    rw [hmoved]
    rcases h.call_of_granted hfresh hcall with ⟨hcall, -, -⟩ | ⟨-, rfl⟩
    · have hbound := h.bound call pid hcall
      rw [hfresh.2]
      omega
    · exact Nat.le_refl _

/-- A place request is accepted, or refused with the same error, as it would be alone. -/
theorem of_place (h : s.PlacementsOf c places e) {uploads : List (Except String UInt32)}
    (hhandles : s.HandlesOf c uploads e) (hacc : e.Accounts) {params : PlaceParams}
    (hr : e.handlePlace env c params = (e', out))
    (hnext : e'.nextPlacement ≠ e.nextPlacement → e.FreshPlacement) :
    (s.step hash128 (.place params)).PlacementsOf c
      (places ++ out.filterMap Action.placeReply?) e' := by
  have hcases := Engine.handlePlace_cases env e c params
  rw [hr] at hcases
  rcases hcases with ⟨himage, rfl, msg, hreply⟩ | ⟨id, himage, hplacements, hmoved, hreply⟩
  · have hnone := hhandles.handles_of_none himage
    simp only at hreply
    simp only [Solo.step, hnone, hreply]
    exact h.of_refused msg
  · obtain ⟨k, hk, -⟩ := hhandles.handles_of_some hacc himage
    simp only at hplacements hmoved hreply
    -- the counter moved, so its value is new
    have hfresh := hnext (by rw [hmoved]; simp)
    simp only [Solo.step, hk, hreply]
    exact h.of_granted hfresh hplacements hmoved

end Solo.PlacementsOf

end Kgd
