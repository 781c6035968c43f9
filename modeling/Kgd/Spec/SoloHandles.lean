import Kgd.Spec.Solo
import Kgd.Spec.UploadedImage

/-!
# A client's handles follow its own operations

What `handleImage` says about one client, and the contents of the images it names, change
only by that client's uploads and frees and when it leaves. So they are what `Solo` says.

## Key results

- `Engine.imageHash_step`: an image keeps its contents while it is cached
- `Engine.handleImage_of_other`: inputs of others leave a client's handles alone
- `Solo.HandlesOf`, with one lemma for each kind of input
-/

namespace Kgd

namespace Engine

/-! ## Contents of images -/

/-- The hash of the cached image with a kitty ID. -/
def imageHash (e : Engine) (id : UInt32) : Option Hash :=
  (e.cache.view.find? fun en => en.kittyImgID == id).map CacheEntry.hash

/-- The hash of an image is that of its cache entry. -/
theorem imageHash_eq_some {e : Engine} (hwf : e.cache.WF) {id : UInt32} {k : Hash} :
    e.imageHash id = some k ↔ ∃ en ∈ e.cache.view, en.kittyImgID = id ∧ en.hash = k := by
  rw [imageHash, Option.map_eq_some_iff]
  constructor
  · intro h
    obtain ⟨en, hfind, hhash⟩ := h
    exact ⟨en, List.mem_of_find?_eq_some hfind, by simpa using List.find?_some hfind, hhash⟩
  · intro h
    obtain ⟨en, hen, hid, hhash⟩ := h
    cases hfind : e.cache.view.find? fun en => en.kittyImgID == id with
    | none =>
      have hnone := List.find?_eq_none.mp hfind en hen
      exact absurd (beq_iff_eq.mpr hid) hnone
    | some en' =>
      have hid' : en'.kittyImgID = id := by simpa using List.find?_some hfind
      -- one entry has the ID, so it is the one that is found
      have heq := hwf.eq_of_id_eq (List.mem_of_find?_eq_some hfind) hen (hid'.trans hid.symm)
      exact ⟨en', rfl, heq ▸ hhash⟩

/-- An image has a hash exactly if it is cached. -/
theorem isSome_imageHash {e : Engine} (hwf : e.cache.WF) (id : UInt32) :
    (e.imageHash id).isSome ↔ id ∈ e.cache.byID := by
  rw [hwf.mem_byID, Option.isSome_iff_exists]
  constructor
  · intro h
    obtain ⟨k, hk⟩ := h
    obtain ⟨en, hen, hid, -⟩ := (imageHash_eq_some hwf).mp hk
    exact ⟨en, hen, hid⟩
  · intro h
    obtain ⟨en, hen, hid⟩ := h
    exact ⟨en.hash, (imageHash_eq_some hwf).mpr ⟨en, hen, hid, rfl⟩⟩

/-- One image is cached once. -/
theorem imageHash_injective {e : Engine} (hwf : e.cache.WF) {id id' : UInt32} {k : Hash}
    (h : e.imageHash id = some k) (h' : e.imageHash id' = some k) : id = id' := by
  obtain ⟨en, hen, hid, hhash⟩ := (imageHash_eq_some hwf).mp h
  obtain ⟨en', hen', hid', hhash'⟩ := (imageHash_eq_some hwf).mp h'
  rw [← hid, ← hid', hwf.eq_of_hash_eq hen hen' (hhash.trans hhash'.symm)]

/-- An image keeps its contents while it is cached. -/
theorem imageHash_step {hash128 : Data → Hash} {env : Env} {e e' : Engine} {input : Input}
    {out : List Action} (h : e.Accounts) (hstep : ImageStep hash128 env e input out e')
    (hfresh : e'.idAlloc ≠ e.idAlloc → e.FreshID) {id : UInt32} (hid : id ∈ e.cache.byID)
    (hid' : id ∈ e'.cache.byID) : e'.imageHash id = e.imageHash id := by
  have hwf' := (accounts_step h hstep hfresh).wf
  obtain ⟨k, hk⟩ := Option.isSome_iff_exists.mp ((isSome_imageHash hwf' id).mpr hid')
  rw [hk, eq_comm, imageHash_eq_some h.wf]
  obtain ⟨en, hen, heq, hhash⟩ := (imageHash_eq_some hwf').mp hk
  -- an old entry keeps its hash
  rcases entry_of_imageStep h hstep .empty hen with
    ⟨en₀, hen₀, hhash₀, hid₀⟩ | ⟨c, params, -, -, -, ⟨hmoved, hnext⟩, -⟩
  · exact ⟨en₀, hen₀, hid₀.trans heq, hhash₀.trans hhash⟩
  · -- a new entry has an ID that was not cached
    rw [← heq, hnext] at hid
    exact absurd hid (hfresh hmoved)

/-! ## Handles -/

/-- Only a client's own inputs change what its handles denote. -/
theorem handleImage_of_other {hash128 : Data → Hash} {env : Env} {e e' : Engine} {input : Input}
    {out : List Action} (h : e.Accounts) (hstep : ImageStep hash128 env e input out e')
    {c : ClientID} (hupload : ∀ params, input ≠ .event (.uploadRequest c params))
    (hfree : ∀ handle, input ≠ .event (.freeRequest c handle))
    (hdisc : input ≠ .event (.clientDisconnect c)) (handle : UInt32) :
    e'.handleImage c handle = e.handleImage c handle := by
  -- every change of a handle table is the table of the client that asked
  cases hstep with
  | quiet _ _ _ _ himages => rw [handleImage, himages, handleImage]
  | @hit c' params =>
    have hne : c ≠ c' := fun heq => hupload params (heq ▸ rfl)
    refine (handleImage_of_setHandle (e := e) rfl c handle).trans ?_
    rw [if_neg fun hboth => hne hboth.1]
  | refused => rfl
  | @miss c' params _ _ _ hlookup _ hevict =>
    have hne : c ≠ c' := fun heq => hupload params (heq ▸ rfl)
    obtain ⟨-, -, hsame⟩ := h.of_evict hlookup hevict
    rw [handleImage_of_setHandle rfl, if_neg fun hboth => hne hboth.1, hsame]
  | @free c' handle' =>
    have hne : c ≠ c' := fun heq => hfree handle' (heq ▸ rfl)
    rw [handleImage_of_freeHandle (e := e) rfl, if_neg fun hboth => hne hboth.1]
  | @disconnect c' _ _ _ himages =>
    have hne : c ≠ c' := fun heq => hdisc (heq ▸ rfl)
    rw [handleImage_of_erase himages, if_neg hne]

/-- Which handle is free first depends on which are taken only. -/
theorem firstFree_congr {images images' : GoMap UInt32 UInt32}
    (h : ∀ handle, handle ∈ images ↔ handle ∈ images') (n : Nat) (handle : UInt32) :
    firstFree images n handle = firstFree images' n handle := by
  induction n generalizing handle with
  | zero => rfl
  | succ n ih => simp only [firstFree, h, ih]

/-- A handle is taken exactly if it stands for an image. -/
theorem mem_table_iff {e : Engine} {c : ClientID} {handle : UInt32} :
    handle ∈ e.table c ↔ (e.handleImage c handle).isSome := by
  rw [handleImage_eq, Std.ExtTreeMap.mem_iff_isSome_getElem?]

/-- An upload is answered with the first unused handle and changes no other. -/
theorem reply_of_upload {hash128 : Data → Hash} {env : Env} {e e' : Engine} {c : ClientID}
    {params : UploadParams} {out : List Action} (h : e.Accounts)
    (hstep : ImageStep hash128 env e (.event (.uploadRequest c params)) out e')
    (hok : TransmitsOk out) :
    ∃ handle, firstFree (e.table c) UInt32.size 1 = some handle ∧
      out.filterMap Action.uploadReply? = [.ok handle] ∧
      ∀ handle', handle' ≠ handle → e'.handleImage c handle' = e.handleImage c handle' := by
  generalize hin : Input.event (.uploadRequest c params) = input at hstep
  cases hstep with
  | quiet hupload => exact absurd hin.symm (hupload c params)
  | @hit _ _ _ handle _ hhandle =>
    obtain ⟨rfl, rfl⟩ := Event.uploadRequest.inj (Input.event.inj hin)
    refine ⟨handle, hhandle, rfl, fun handle' hne => ?_⟩
    refine (handleImage_of_setHandle (e := e) rfl c handle').trans ?_
    rw [if_neg fun hboth => hne hboth.2]
  -- every transmission succeeds, by assumption
  | refused => exact nomatch hok _ List.mem_cons_self
  | @miss _ _ e₁ out₁ handle hlookup _ hevict hhandle =>
    obtain ⟨rfl, rfl⟩ := Event.uploadRequest.inj (Input.event.inj hin)
    obtain ⟨-, -, hsame⟩ := h.of_evict hlookup hevict
    have hout := congrArg Prod.snd hevict
    simp only at hout
    refine ⟨handle, ?_, ?_, fun handle' hne => ?_⟩
    · -- the search runs after the evictions, which take no handle
      rw [← hhandle]
      refine firstFree_congr (fun handle' => ?_) _ _
      rw [mem_table_iff, mem_table_iff, hsame]
    · -- neither the transmission nor the evictions answer a request
      have hquiet {l : List Action} (hl : ∀ r, Action.reply r ∉ l) :
          l.filterMap Action.uploadReply? = [] :=
        Action.filterMap_of_noReply (fun _ _ => Action.eq_of_uploadReply?) hl
      rw [List.filterMap_append, List.filterMap_append, hquiet (noReply_gfxCalls e _), ← hout,
        hquiet (noReply_freeEvicted env _ _)]
      rfl
    · rw [handleImage_of_setHandle rfl, if_neg fun hboth => hne hboth.2, hsame]
  | free => exact nomatch hin
  | disconnect => exact nomatch hin

end Engine

/-- The handles of `c` and the replies to its uploads are those of `s`. -/
structure Solo.HandlesOf (s : Solo) (c : ClientID) (uploads : List (Except String UInt32))
    (e : Engine) : Prop where
  handles : ∀ handle, s.handles handle = (e.handleImage c handle).bind e.imageHash
  uploads : uploads = s.uploads.map .ok

namespace Solo.HandlesOf

variable {hash128 : Data → Hash} {s : Solo} {c : ClientID}
  {uploads : List (Except String UInt32)} {env : Env} {e e' : Engine} {input : Input}
  {out : List Action}

/-- A handle that denotes nothing has no contents. -/
theorem handles_of_none (h : s.HandlesOf c uploads e) {handle : UInt32}
    (himage : e.handleImage c handle = none) : s.handles handle = none := by
  rw [h.handles, himage]
  rfl

/-- A handle that denotes an image has its contents. -/
theorem handles_of_some (h : s.HandlesOf c uploads e) (hacc : e.Accounts) {handle id : UInt32}
    (himage : e.handleImage c handle = some id) :
    ∃ k, s.handles handle = some k ∧ e.imageHash id = some k := by
  have hcached := (Engine.isSome_imageHash hacc.wf id).mpr (hacc.held c handle id himage)
  obtain ⟨k, hk⟩ := Option.isSome_iff_exists.mp hcached
  refine ⟨k, ?_, hk⟩
  rw [h.handles, himage]
  exact hk

/-- Alone and among others the same handles are taken. -/
theorem isSome_iff (h : s.HandlesOf c uploads e) (hacc : e.Accounts) (handle : UInt32) :
    (s.handles handle).isSome ↔ (e.handleImage c handle).isSome := by
  cases himage : e.handleImage c handle with
  | none =>
    rw [h.handles_of_none himage]
    exact Iff.rfl
  | some id =>
    obtain ⟨k, hk, -⟩ := h.handles_of_some hacc himage
    rw [hk]
    exact Iff.rfl

/-- Alone and among others the same handle is free first. -/
theorem unused_eq (h : s.HandlesOf c uploads e) (hacc : e.Accounts) (n : Nat) (handle : UInt32) :
    s.unused n handle = Engine.firstFree (e.table c) n handle := by
  induction n generalizing handle with
  | zero => rfl
  | succ n ih =>
    simp only [Solo.unused, Engine.firstFree, ih, h.isSome_iff hacc, Engine.mem_table_iff]

/-- A handle that denotes the same image before and after an input still has its contents. -/
theorem image_step (hacc : e.Accounts) (hstep : Engine.ImageStep hash128 env e input out e')
    (hfresh : e'.idAlloc ≠ e.idAlloc → e.FreshID) {handle : UInt32}
    (hsame : e'.handleImage c handle = e.handleImage c handle) :
    (e'.handleImage c handle).bind e'.imageHash = (e.handleImage c handle).bind e.imageHash := by
  have hacc' := Engine.accounts_step hacc hstep hfresh
  cases himage : e.handleImage c handle with
  | none => rw [hsame, himage]; rfl
  | some id =>
    -- held before and after, so cached before and after
    have hid' := hacc'.held c handle id (hsame.trans himage)
    rw [hsame, himage, Option.bind_some, Option.bind_some,
      Engine.imageHash_step hacc hstep hfresh (hacc.held c handle id himage) hid']

/-- What is no operation on the client's handles keeps them as they are alone. -/
theorem of_other (h : s.HandlesOf c uploads e) (hacc : e.Accounts)
    (hstep : Engine.ImageStep hash128 env e input out e')
    (hfresh : e'.idAlloc ≠ e.idAlloc → e.FreshID)
    (hupload : ∀ params, input ≠ .event (.uploadRequest c params))
    (hfree : ∀ handle, input ≠ .event (.freeRequest c handle))
    (hdisc : input ≠ .event (.clientDisconnect c)) : s.HandlesOf c uploads e' := by
  refine ⟨fun handle => ?_, h.uploads⟩
  have hsame := Engine.handleImage_of_other hacc hstep hupload hfree hdisc handle
  rw [image_step hacc hstep hfresh hsame]
  exact h.handles handle

/-- An upload gives the client the same handle as it would alone. -/
theorem of_upload (h : s.HandlesOf c uploads e) (hacc : e.Accounts) {params : UploadParams}
    (hstep : Engine.ImageStep hash128 env e (.event (.uploadRequest c params)) out e')
    (hfresh : e'.idAlloc ≠ e.idAlloc → e.FreshID) (hok : Engine.TransmitsOk out) :
    (s.step hash128 (.upload params)).HandlesOf c
      (uploads ++ out.filterMap Action.uploadReply?) e' := by
  obtain ⟨handle, hhandle, hreply, hothers⟩ := Engine.reply_of_upload hacc hstep hok
  -- the reply names the handle, and the handle's entry has the uploaded hash
  have hmem : Action.reply (.upload (.ok handle)) ∈ out := by
    have hin : (Except.ok handle : Except String UInt32) ∈ out.filterMap Action.uploadReply? := by
      rw [hreply]; exact List.mem_cons_self
    obtain ⟨a, ha, heq⟩ := List.mem_filterMap.mp hin
    exact Action.eq_of_uploadReply? heq ▸ ha
  obtain ⟨en, hen, hhash, himage⟩ := Engine.entry_of_reply hacc hstep hmem
  have hwf' := (Engine.accounts_step hacc hstep hfresh).wf
  simp only [Solo.step, h.unused_eq hacc, hhandle]
  refine ⟨fun handle' => ?_, ?_⟩
  · show Function.update s.handles handle (some (hash128 params.data)) handle' = _
    by_cases hne : handle' = handle
    · -- the new handle denotes the entry with the hash of the uploaded bytes
      subst hne
      rw [Function.update_self, himage, Option.bind_some, eq_comm,
        Engine.imageHash_eq_some hwf']
      exact ⟨en, hen, rfl, hhash⟩
    · rw [Function.update_of_ne hne, image_step hacc hstep hfresh (hothers handle' hne)]
      exact h.handles handle'
  · rw [hreply, h.uploads, List.map_append]
    rfl

/-- A free takes away the same handle as it would alone. -/
theorem of_free (h : s.HandlesOf c uploads e) (hacc : e.Accounts) {handle : UInt32}
    (hstep : Engine.ImageStep hash128 env e (.event (.freeRequest c handle)) out e')
    (hfresh : e'.idAlloc ≠ e.idAlloc → e.FreshID) :
    (s.step hash128 (.free handle)).HandlesOf c uploads e' := by
  -- the freed handle names nothing now, known before or not
  have hfreed : ∀ handle', e'.handleImage c handle' =
      if handle' = handle then none else e.handleImage c handle' := by
    intro handle'
    generalize hin : Input.event (.freeRequest c handle) = input at hstep
    cases hstep with
    | quiet _ hnone _ _ himages =>
      rw [Engine.handleImage, himages, ← Engine.handleImage]
      split
      · rename_i heq
        exact heq ▸ hnone c handle hin.symm
      · rfl
    | free =>
      obtain ⟨rfl, rfl⟩ := Event.freeRequest.inj (Input.event.inj hin)
      rw [Engine.handleImage_of_freeHandle (e := e) rfl]
      simp
    | hit | refused | miss | disconnect => cases hin
  refine ⟨fun handle' => ?_, h.uploads⟩
  simp only [Solo.step]
  by_cases hne : handle' = handle
  · rw [hne, Function.update_self, hfreed, if_pos rfl]
    rfl
  · have hsame := (hfreed handle').trans (if_neg hne)
    rw [Function.update_of_ne hne, image_step hacc hstep hfresh hsame]
    exact h.handles handle'

/-- A disconnect takes away all handles, as it would alone. -/
theorem of_disconnect (h : s.HandlesOf c uploads e)
    (hstep : Engine.ImageStep hash128 env e (.event (.clientDisconnect c)) out e') :
    (s.step hash128 .disconnect).HandlesOf c uploads e' := by
  refine ⟨fun handle => ?_, h.uploads⟩
  generalize hin : Input.event (.clientDisconnect c) = input at hstep
  cases hstep with
  | quiet _ _ hdisc => exact absurd hin.symm (hdisc c)
  | disconnect _ himages =>
    obtain rfl := Event.clientDisconnect.inj (Input.event.inj hin)
    rw [Engine.handleImage_of_erase himages, if_pos rfl]
    rfl
  | hit | refused | miss | free => exact nomatch hin

end Solo.HandlesOf

end Kgd
