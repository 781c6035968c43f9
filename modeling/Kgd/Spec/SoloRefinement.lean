import Kgd.Spec.SoloPlacements

/-!
# The engine follows each client's own operations

`Solo` is what a client's operations determine. One iteration of the engine keeps the relation
between `Solo` and the client's part of the engine, whoever's input it handles: handles and
replies (`Solo.HandlesOf`), placements (`Solo.PlacementsOf`) and, where no placed image of the
client is evicted, the images of the placements (`Solo.ContentsOf`).

## Key results

- `Solo.handlesOf_step`, `Solo.placementsOf_step`, `Solo.contentsOf_step`
-/

namespace Kgd

/-! ## Operations read off inputs -/

/-- The cases of `clientOp`. -/
inductive IsOp (c : ClientID) (places : List (Except String UInt32)) :
    Input → Option ClientOp → Prop
  | upload (params : UploadParams) :
      IsOp c places (.event (.uploadRequest c params)) (some (.upload params))
  | free (handle : UInt32) : IsOp c places (.event (.freeRequest c handle)) (some (.free handle))
  | place (params : PlaceParams) :
      IsOp c places (.event (.placeRequest c params)) (some (.place params))
  | unplace {pid : UInt32} {call : Nat} (hcall : places[call]? = some (.ok pid)) :
      IsOp c places (.event (.unplaceRequest c pid)) (some (.unplace call))
  | unplaceAll : IsOp c places (.event (.unplaceAllRequest c)) (some .unplaceAll)
  | disconnect : IsOp c places (.event (.clientDisconnect c)) (some .disconnect)
  | other {input : Input} (hupload : ∀ params, input ≠ .event (.uploadRequest c params))
      (hfree : ∀ handle, input ≠ .event (.freeRequest c handle))
      (hplace : ∀ params, input ≠ .event (.placeRequest c params))
      (hunplace : ∀ pid, input ≠ .event (.unplaceRequest c pid))
      (hall : input ≠ .event (.unplaceAllRequest c))
      (hdisc : input ≠ .event (.clientDisconnect c)) : IsOp c places input none

/-- The operation that an input is for a client. -/
theorem isOp_of_clientOp {c : ClientID} {places : List (Except String UInt32)} {input : Input}
    {op : Option ClientOp} (h : input.clientOp c places = some op) : IsOp c places input op := by
  cases input with
  | size | colors =>
    obtain rfl := Option.some.inj h
    exact .other nofun nofun nofun nofun nofun nofun
  | event ev =>
    cases ev with
    -- the client's own request is its operation, another client's is none
    | uploadRequest c' params =>
      obtain rfl := Option.some.inj h
      by_cases hc : c' = c
      · rw [if_pos hc, hc]; exact .upload params
      · rw [if_neg hc]; exact .other (by simp [hc]) nofun nofun nofun nofun nofun
    | freeRequest c' handle =>
      obtain rfl := Option.some.inj h
      by_cases hc : c' = c
      · rw [if_pos hc, hc]; exact .free handle
      · rw [if_neg hc]; exact .other nofun (by simp [hc]) nofun nofun nofun nofun
    | placeRequest c' params =>
      obtain rfl := Option.some.inj h
      by_cases hc : c' = c
      · rw [if_pos hc, hc]; exact .place params
      · rw [if_neg hc]; exact .other nofun nofun (by simp [hc]) nofun nofun nofun
    | unplaceRequest c' pid =>
      by_cases hc : c' = c
      · -- the one case that can fail: the ID must have been returned by a call
        simp only [Input.clientOp, hc, ↓reduceIte, Option.map_eq_some_iff] at h
        obtain ⟨call, hfind, rfl⟩ := h
        obtain ⟨hlt, heq, -⟩ := List.findIdx?_eq_some_iff_getElem.mp hfind
        subst hc
        exact .unplace (List.getElem?_eq_some_iff.mpr ⟨hlt, by simpa using heq⟩)
      · simp only [Input.clientOp, hc, ↓reduceIte, Option.some.injEq] at h
        subst h
        exact .other nofun nofun nofun (by simp [hc]) nofun nofun
    | unplaceAllRequest c' =>
      obtain rfl := Option.some.inj h
      by_cases hc : c' = c
      · rw [if_pos hc, hc]; exact .unplaceAll
      · rw [if_neg hc]; exact .other nofun nofun nofun nofun (by simp [hc]) nofun
    | clientDisconnect c' =>
      obtain rfl := Option.some.inj h
      by_cases hc : c' = c
      · rw [if_pos hc, hc]; exact .disconnect
      · rw [if_neg hc]; exact .other nofun nofun nofun nofun nofun (by simp [hc])
    | _ =>
      obtain rfl := Option.some.inj h
      exact .other nofun nofun nofun nofun nofun nofun

/-- What is no place request of the client has no reply to one. -/
theorem Label.placeReplies_of_ne {c : ClientID} {l : Label}
    (h : ∀ params, l.input ≠ .event (.placeRequest c params)) : l.placeReplies c = [] := by
  unfold Label.placeReplies
  split
  · rename_i c' params hin
    rw [if_neg]
    rintro rfl
    exact h params hin
  · rfl

/-- What is no upload of the client has no reply to one. -/
theorem Label.uploadReplies_of_ne {c : ClientID} {l : Label}
    (h : ∀ params, l.input ≠ .event (.uploadRequest c params)) : l.uploadReplies c = [] := by
  unfold Label.uploadReplies
  split
  · rename_i c' params hin
    rw [if_neg]
    rintro rfl
    exact h params hin
  · rfl

namespace Solo

section Iteration
variable {hash128 : Data → Hash} {s : Solo} {c : ClientID}
  {uploads places : List (Except String UInt32)} {op : Option ClientOp} {env : Env}
  {e e' : Engine} {input : Input} {out : List Action}

/-- The handles after an iteration are those after its operation. -/
theorem handlesOf_step (h : s.HandlesOf c uploads e) (hacc : e.Accounts)
    (hop : IsOp c places input op) (hstep : Engine.ImageStep hash128 env e input out e')
    (hfresh : e'.idAlloc ≠ e.idAlloc → e.FreshID) (hok : Engine.TransmitsOk out) :
    (op.elim s (s.step hash128)).HandlesOf c
      (uploads ++ Label.uploadReplies c ⟨input, out⟩) e' := by
  -- all operations but three leave the handles alone
  have hother (s' : Solo) (hsame : s'.handles = s.handles ∧ s'.uploads = s.uploads)
      (hupload : ∀ params, input ≠ .event (.uploadRequest c params))
      (hfree : ∀ handle, input ≠ .event (.freeRequest c handle))
      (hdisc : input ≠ .event (.clientDisconnect c)) :
      s'.HandlesOf c (uploads ++ Label.uploadReplies c ⟨input, out⟩) e' := by
    have hthen := h.of_other hacc hstep hfresh hupload hfree hdisc
    rw [Label.uploadReplies_of_ne hupload, List.append_nil]
    exact ⟨by rw [hsame.1]; exact hthen.handles, by rw [hsame.2]; exact hthen.uploads⟩
  cases hop with
  | upload params =>
    have hreplies : Label.uploadReplies c ⟨.event (.uploadRequest c params), out⟩ =
        out.filterMap Action.uploadReply? := if_pos rfl
    rw [hreplies]
    exact h.of_upload hacc hstep hfresh hok
  | free handle =>
    rw [Label.uploadReplies_of_ne (by simp), List.append_nil]
    exact h.of_free hacc hstep hfresh
  | place params =>
    refine hother _ ?_ (by simp) (by simp) (by simp)
    simp only [Option.elim_some, step]
    split <;> exact ⟨rfl, rfl⟩
  | unplace | unplaceAll =>
    exact hother _ ⟨rfl, rfl⟩ (by simp) (by simp) (by simp)
  | disconnect =>
    rw [Label.uploadReplies_of_ne (by simp), List.append_nil]
    exact h.of_disconnect hstep
  | other hupload hfree _ _ _ hdisc => exact hother _ ⟨rfl, rfl⟩ hupload hfree hdisc

/-- The placements after an iteration are those after its operation. -/
theorem placementsOf_step (h : s.PlacementsOf c places e) (hhandles : s.HandlesOf c uploads e)
    (hacc : e.Accounts) (hop : IsOp c places input op)
    (hr : e.receive hash128 env input = some (e', out))
    (hnext : e'.nextPlacement ≠ e.nextPlacement → e.FreshPlacement) :
    (op.elim s (s.step hash128)).PlacementsOf c
      (places ++ Label.placeReplies c ⟨input, out⟩) e' := by
  have hstep := Engine.placementStep_of_receive hr
  -- uploads and frees are other inputs as far as placements go
  have hother (s' : Solo) (hsame : s'.accepted = s.accepted ∧ s'.placed = s.placed)
      (hplace : ∀ params, input ≠ .event (.placeRequest c params))
      (hunplace : ∀ pid, input ≠ .event (.unplaceRequest c pid))
      (hall : input ≠ .event (.unplaceAllRequest c))
      (hdisc : input ≠ .event (.clientDisconnect c)) :
      s'.PlacementsOf c (places ++ Label.placeReplies c ⟨input, out⟩) e' := by
    have hthen := h.of_other hstep hnext hplace hunplace hall hdisc
    rw [Label.placeReplies_of_ne hplace, List.append_nil]
    exact ⟨by rw [hsame.1]; exact hthen.accepted, by rw [hsame.2]; exact hthen.placed,
      hthen.returned, hthen.distinct, hthen.bound⟩
  cases hop with
  | upload params =>
    refine hother _ ?_ (by simp) (by simp) (by simp) (by simp)
    simp only [Option.elim_some, step]
    split <;> exact ⟨rfl, rfl⟩
  | free handle =>
    exact hother _ ⟨rfl, rfl⟩ (by simp) (by simp) (by simp) (by simp)
  | place params =>
    have hreplies : Label.placeReplies c ⟨.event (.placeRequest c params), out⟩ =
        out.filterMap Action.placeReply? := if_pos rfl
    rw [hreplies, Option.elim_some]
    exact h.of_place hhandles hacc (Option.some.inj hr) hnext
  | unplace hcall =>
    rw [Label.placeReplies_of_ne (by simp), List.append_nil, Option.elim_some]
    exact h.of_unplace hcall hstep hnext
  | unplaceAll =>
    rw [Label.placeReplies_of_ne (by simp), List.append_nil]
    exact h.of_removal hstep hnext (Or.inl rfl) rfl fun _ => rfl
  | disconnect =>
    rw [Label.placeReplies_of_ne (by simp), List.append_nil]
    exact h.of_removal hstep hnext (Or.inr rfl) rfl fun _ => rfl
  | other _ _ hplace hunplace hall hdisc =>
    exact hother _ ⟨rfl, rfl⟩ hplace hunplace hall hdisc

/-- Every placement of `c` shows a cached image, the one its handle denoted. -/
def ContentsOf (s : Solo) (c : ClientID) (places : List (Except String UInt32)) (e : Engine) :
    Prop :=
  ∀ (call : Nat) (pid : UInt32) (params : PlaceParams) (id : UInt32),
    places[call]? = some (.ok pid) → e.ownedBy c pid = some (params, id) →
    ∃ k, s.placed call = some (params, k) ∧ e.imageHash id = some k

/-- The images after a Place request: a new placement shows the image of its handle. `hthere`
    says that the placements that were there show what they showed. -/
theorem contentsOf_place (hplacements : s.PlacementsOf c places e)
    (hhandles : s.HandlesOf c uploads e) (hacc : e.Accounts) {params : PlaceParams}
    (hr : e.handlePlace env c params = (e', out))
    (hnext : e'.nextPlacement ≠ e.nextPlacement → e.FreshPlacement)
    (hthere : s.ContentsOf c places e) :
    (s.step hash128 (.place params)).ContentsOf c (places ++ out.filterMap Action.placeReply?)
      e' := by
  have hcases := Engine.handlePlace_cases env e c params
  have hcache := (Engine.images_handlePlace env e c params).1
  rw [hr] at hcases hcache
  -- a Place request leaves the cache alone
  have hcontents : ∀ id, e'.imageHash id = e.imageHash id := by
    intro id
    rw [Engine.imageHash, hcache, Engine.imageHash]
  rcases hcases with ⟨hnone, rfl, msg, hreply⟩ | ⟨id, hid, hinsert, hmoved, hreply⟩
  · simp only at hreply
    simp only [step, hhandles.handles_of_none hnone, hreply]
    intro call pid params' id hcall howned
    exact hthere call pid params' id (PlacementsOf.call_of_refused hcall) howned
  · obtain ⟨k, hk, himage⟩ := hhandles.handles_of_some hacc hid
    simp only at hinsert hmoved hreply
    have hfresh := hnext (by rw [hmoved]; simp)
    simp only [step, hk, hreply]
    intro call pid params' id' hcall howned
    show ∃ k', Function.update s.placed s.accepted.length (some (params, k)) call =
      some (params', k') ∧ _
    rw [PlacementsOf.ownedBy_of_granted hinsert] at howned
    rw [hcontents, hplacements.length_accepted]
    rcases hplacements.call_of_granted hfresh hcall with ⟨hcall, hearlier, hpid⟩ | ⟨rfl, hpid⟩
    · rw [if_neg hpid] at howned
      rw [Function.update_of_ne hearlier]
      exact hthere call pid params' id' hcall howned
    · rw [if_pos hpid] at howned
      obtain ⟨rfl, rfl⟩ := Prod.mk.inj (Option.some.inj howned)
      exact ⟨k, Function.update_self .., himage⟩

/-- The images of the placements after an iteration, where it evicts none of them. -/
theorem contentsOf_step (h : s.ContentsOf c places e) (hplacements : s.PlacementsOf c places e)
    (hhandles : s.HandlesOf c uploads e) (hacc : e.Accounts) (hop : IsOp c places input op)
    (hr : e.receive hash128 env input = some (e', out))
    (hfresh : e'.idAlloc ≠ e.idAlloc → e.FreshID)
    (hnext : e'.nextPlacement ≠ e.nextPlacement → e.FreshPlacement)
    (hkept : ∀ pid params id, e.ownedBy c pid = some (params, id) → id ∈ e.cache.byID →
      id ∈ e'.cache.byID) :
    (op.elim s (s.step hash128)).ContentsOf c
      (places ++ Label.placeReplies c ⟨input, out⟩) e' := by
  have hstep := Engine.placementStep_of_receive hr
  have himage := Engine.imageStep_of_receive hr
  -- a placement that is still there shows what it showed
  have hthere : ∀ (call : Nat) (pid : UInt32) (params : PlaceParams) (id : UInt32),
      places[call]? = some (.ok pid) → e.ownedBy c pid = some (params, id) →
      ∃ k, s.placed call = some (params, k) ∧ e'.imageHash id = some k := by
    intro call pid params id hcall howned
    obtain ⟨k, hplaced, hk⟩ := h call pid params id hcall howned
    have hcached : id ∈ e.cache.byID := by
      rw [← Engine.isSome_imageHash hacc.wf, hk]
      rfl
    have hcached' := hkept pid params id howned hcached
    exact ⟨k, hplaced, (Engine.imageHash_step hacc himage hfresh hcached hcached').trans hk⟩
  have hother (s' : Solo) (hsame : s'.placed = s.placed)
      (hplace : ∀ params, input ≠ .event (.placeRequest c params))
      (hunplace : ∀ pid, input ≠ .event (.unplaceRequest c pid))
      (hall : input ≠ .event (.unplaceAllRequest c))
      (hdisc : input ≠ .event (.clientDisconnect c)) :
      s'.ContentsOf c (places ++ Label.placeReplies c ⟨input, out⟩) e' := by
    rw [Label.placeReplies_of_ne hplace, List.append_nil]
    intro call pid params id hcall howned
    rw [Engine.ownedBy_of_other hstep hnext hplace hunplace hall hdisc] at howned
    rw [hsame]
    exact hthere call pid params id hcall howned
  cases hop with
  | upload params =>
    refine hother _ ?_ (by simp) (by simp) (by simp) (by simp)
    simp only [Option.elim_some, step]
    split <;> rfl
  | free handle => exact hother _ rfl (by simp) (by simp) (by simp) (by simp)
  | place params =>
    have hreplies : Label.placeReplies c ⟨.event (.placeRequest c params), out⟩ =
        out.filterMap Action.placeReply? := if_pos rfl
    rw [hreplies, Option.elim_some]
    exact contentsOf_place hplacements hhandles hacc (Option.some.inj hr) hnext h
  | @unplace pid call hcall =>
    rw [Label.placeReplies_of_ne (by simp), List.append_nil, Option.elim_some]
    intro call' pid' params id hcall' howned
    rw [Engine.ownedBy_of_unplace hstep] at howned
    split at howned
    · cases howned
    · rename_i hne
      have hcalls : call' ≠ call := by
        rintro rfl
        exact hne (Except.ok.inj (Option.some.inj (hcall'.symm.trans hcall)))
      show ∃ k, Function.update s.placed call none call' = some (params, k) ∧ _
      rw [Function.update_of_ne hcalls]
      exact hthere call' pid' params id hcall' howned
  | unplaceAll =>
    intro call pid params id _ howned
    rw [Engine.ownedBy_of_removal hstep (Or.inl rfl)] at howned
    cases howned
  | disconnect =>
    intro call pid params id _ howned
    rw [Engine.ownedBy_of_removal hstep (Or.inr rfl)] at howned
    cases howned
  | other _ _ hplace hunplace hall hdisc => exact hother _ rfl hplace hunplace hall hdisc

end Iteration

end Solo

end Kgd
