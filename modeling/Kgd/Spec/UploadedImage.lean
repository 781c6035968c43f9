import Kgd.Daemon.Kitty
import Kgd.Spec.ImageAccounting

/-!
# What a handle denotes

The cache is addressed by the bytes of an image alone: an upload of known bytes is not
transmitted again, whatever format and size come with it. So a handle denotes an image with
the uploaded bytes, in the format and size of the upload that missed.

## Key results

- `World.transmitted_of_upload`: from the reply to an upload until the handle is freed
- `World.transmission_differs`: the size of a second upload of the same bytes is ignored
-/

namespace Kgd

/-- What a `Transmit` call for an upload carries. -/
def UploadParams.transmission (params : UploadParams) : Transmission :=
  ⟨params.data, params.format, params.width, params.height⟩

/-- The transmission has the data and the format code of the upload and, where the format is
    a raw one, its size. -/
def Transmission.Carries (tx : Transmission) (params : UploadParams) : Prop :=
  tx.data = params.data ∧ formatCode tx.format = formatCode params.format ∧
    (formatCode params.format ≠ 100 → tx.width = params.width ∧ tx.height = params.height)

instance (tx : Transmission) (params : UploadParams) : Decidable (tx.Carries params) := by
  unfold Transmission.Carries; infer_instance

namespace Engine

/-! ## One input -/

/-- A handle denotes its image until it is freed or its client leaves. -/
theorem handleImage_step {hash128 : Data → Hash} {env : Env} {e e' : Engine} {input : Input}
    {out : List Action} (h : e.Accounts) (hstep : ImageStep hash128 env e input out e')
    {c : ClientID} {handle id : UInt32} (himage : e.handleImage c handle = some id)
    (hfree : input ≠ .event (.freeRequest c handle))
    (hdisc : input ≠ .event (.clientDisconnect c)) : e'.handleImage c handle = some id := by
  -- a new handle is one that was not in use
  have hother {c' : ClientID} {handle' : UInt32} (hnone : e.handleImage c' handle' = none) :
      ¬ (c = c' ∧ handle = handle') := by
    intro hx
    obtain ⟨rfl, rfl⟩ := hx
    exact nomatch hnone.symm.trans himage
  cases hstep with
  | quiet _ _ _ _ himages => rw [handleImage, himages]; exact himage
  | hit _ hhandle =>
    refine (handleImage_of_setHandle (e := e) rfl c handle).trans ?_
    rw [if_neg (hother (handleImage_of_firstFree hhandle))]
    exact himage
  | refused => exact himage
  | miss hlookup _ hevict hhandle =>
    obtain ⟨-, -, hsame⟩ := h.of_evict hlookup hevict
    have hnone := handleImage_of_firstFree hhandle
    rw [hsame] at hnone
    rw [handleImage_of_setHandle rfl, if_neg (hother hnone), hsame]
    exact himage
  | free =>
    rw [handleImage_of_freeHandle (e := e) rfl, if_neg]
    · exact himage
    · intro hx
      obtain ⟨rfl, rfl⟩ := hx
      exact hfree rfl
  | disconnect _ himages =>
    rw [handleImage_of_erase himages, if_neg]
    · exact himage
    · rintro rfl; exact hdisc rfl

/-- The last transmission of a cached image does not change. -/
theorem lastTransmit_step {hash128 : Data → Hash} {env : Env} {e e' : Engine} {input : Input}
    {out : List Action} (h : e.Accounts) (hgfx : e.gfx = true)
    (hstep : ImageStep hash128 env e input out e') (hfresh : e'.idAlloc ≠ e.idAlloc → e.FreshID)
    {id : UInt32} (hid : id ∈ e.cache.byID) (t : Terminal) :
    (t.applyAll out).lastTransmit id = t.lastTransmit id := by
  cases hstep with
  | quiet _ _ _ _ _ _ hout => rw [(Terminal.applyAll_of_imageQuiet hout t).2]
  | hit => rfl
  | refused =>
    -- what is cached is not the ID that is used now
    have hne : id ≠ e.idAlloc.next := fun heq => hfresh (next_ne e.idAlloc) (heq ▸ hid)
    simp [Terminal.act, Terminal.apply, hne]
  | miss hlookup hok hevict =>
    obtain ⟨-, halloc, -⟩ := h.of_evict hlookup hevict
    have hne : id ≠ e.idAlloc.next := fun heq =>
      hfresh (fun hsame => next_ne e.idAlloc (halloc.symm.trans hsame)) (heq ▸ hid)
    rw [applyAll_miss hgfx (hok hgfx) hevict]
    exact if_neg hne
  | free => rfl
  | disconnect _ _ _ hout => rw [(Terminal.applyAll_of_imageQuiet hout t).2]

/-- Where a cached entry comes from: it was cached before, or the input is the upload that
    missed, and transmitted it under a newly allocated ID. -/
theorem entry_of_imageStep {hash128 : Data → Hash} {env : Env} {e e' : Engine} {input : Input}
    {out : List Action} (h : e.Accounts) (hstep : ImageStep hash128 env e input out e')
    (t : Terminal) {en : CacheEntry} (hen : en ∈ e'.cache.view) :
    (∃ en₀ ∈ e.cache.view, en₀.hash = en.hash ∧ en₀.kittyImgID = en.kittyImgID) ∨
      ∃ c params, input = .event (.uploadRequest c params) ∧
        e.cache.lookup hash128 params.data = none ∧ hash128 params.data = en.hash ∧
        (e'.idAlloc ≠ e.idAlloc ∧ en.kittyImgID = e.idAlloc.next) ∧
        (e.gfx = true →
          (t.applyAll out).lastTransmit en.kittyImgID = some params.transmission) := by
  cases hstep with
  | quiet _ _ _ hcache => exact Or.inl ⟨en, hcache ▸ hen, rfl, rfl⟩
  | hit hlookup =>
    rcases mem_view_store_hit h.wf hlookup hen with ⟨en₀, hen₀, -, rfl⟩ | ⟨hen, -⟩
    · exact Or.inl ⟨en₀, hen₀, rfl, rfl⟩
    · exact Or.inl ⟨en, hen, rfl, rfl⟩
  | refused => exact Or.inl ⟨en, hen, rfl, rfl⟩
  | @miss c params e₁ _ _ hlookup hok hevict =>
    obtain ⟨hcache, halloc, -⟩ := h.of_evict hlookup hevict
    have hview := hen
    rw [setHandle, hcache, view_store_miss h.wf hlookup, List.mem_cons] at hview
    rcases hview with rfl | hen
    · -- the entry that the miss has stored
      have hmoved : e₁.idAlloc ≠ e.idAlloc := fun heq => next_ne e.idAlloc (halloc.symm.trans heq)
      refine Or.inr ⟨c, params, rfl, hlookup, rfl, ⟨hmoved, rfl⟩, fun hgfx => ?_⟩
      rw [applyAll_miss hgfx (hok hgfx) hevict]
      exact if_pos rfl
    · exact Or.inl ⟨en, mem_keep_view hen, rfl, rfl⟩
  -- a release changes counts only
  | free =>
    rw [Cache.view_release h.wf, RecencyCache.release, List.mem_map] at hen
    obtain ⟨en₀, hen₀, rfl⟩ := hen
    refine Or.inl ⟨en₀, hen₀, ?_⟩
    split <;> exact ⟨rfl, rfl⟩
  | disconnect hcache =>
    rw [hcache, view_releaseAll h.wf, List.mem_map] at hen
    obtain ⟨en₀, hen₀, rfl⟩ := hen
    exact Or.inl ⟨en₀, hen₀, rfl, rfl⟩

/-- The reply to an upload names a handle of an entry with the uploaded bytes. -/
theorem entry_of_reply {hash128 : Data → Hash} {env : Env} {e e' : Engine} {c : ClientID}
    {params : UploadParams} {handle : UInt32} {out : List Action} (h : e.Accounts)
    (hstep : ImageStep hash128 env e (.event (.uploadRequest c params)) out e')
    (hreply : Action.reply (.upload (.ok handle)) ∈ out) :
    ∃ en ∈ e'.cache.view, en.hash = hash128 params.data ∧
      e'.handleImage c handle = some en.kittyImgID := by
  generalize hin : Input.event (.uploadRequest c params) = input at hstep
  cases hstep with
  | quiet hupload => exact absurd hin.symm (hupload c params)
  | @hit _ _ kittyID _ hlookup =>
    obtain ⟨rfl, rfl⟩ := Event.uploadRequest.inj (Input.event.inj hin)
    obtain rfl : handle = _ := by simpa using hreply
    obtain ⟨en, -, hhash, hid, hview⟩ := view_store_hit h.wf hlookup kittyID
    refine ⟨en.addRef 1, hview ▸ List.mem_cons_self, hhash, ?_⟩
    refine (handleImage_of_setHandle (e := e) rfl c handle).trans ?_
    rw [if_pos ⟨rfl, rfl⟩, CacheEntry.addRef_kittyImgID, hid]
  | refused => simp at hreply
  | @miss _ _ _ _ _ hlookup _ hevict =>
    obtain ⟨rfl, rfl⟩ := Event.uploadRequest.inj (Input.event.inj hin)
    have hout := congrArg Prod.snd hevict
    simp only at hout
    rw [List.mem_append, List.mem_append, ← hout] at hreply
    -- the reply is the last action, not one of the transmission or the evictions
    obtain rfl : handle = _ := by
      rcases hreply with (hreply | hreply) | hreply
      · exact absurd hreply (noReply_gfxCalls e _ _)
      · exact absurd hreply (noReply_freeEvicted env _ _ _)
      · simpa using hreply
    obtain ⟨hcache, -, -⟩ := h.of_evict hlookup hevict
    refine ⟨{ hash := hash128 params.data, kittyImgID := e.idAlloc.next, refCount := 1 }, ?_,
      rfl, ?_⟩
    · rw [setHandle, hcache, view_store_miss h.wf hlookup]
      exact List.mem_cons_self
    · rw [handleImage_of_setHandle rfl, if_pos ⟨rfl, rfl⟩]
  | free => cases hin
  | disconnect => cases hin

end Engine

namespace World

/-! ## Whole runs -/

/-- An upload that missed the cache. -/
def MissedUpload (hash128 : Data → Hash) (t : Transition World Label) (params : UploadParams) :
    Prop :=
  ∃ c, t.label.input = .event (.uploadRequest c params) ∧
    t.pre.engine.cache.lookup hash128 params.data = none

/-- The bytes an input uploads. -/
def uploadData : Input → Option Data
  | .event (.uploadRequest _ params) => some params.data
  | _ => none

/-- The bytes uploaded in a run. -/
def uploadedData (tr : List (Transition World Label)) : Set Data :=
  {data | ∃ t ∈ tr, uploadData t.label.input = some data}

section Runs
variable {hash128 : Data → Hash} {notifier stopFunc inTmux : Bool} {maxSize : Int}
  {tr : List (Transition World Label)} {w : World}

/-- Every cached image was last transmitted by the upload that missed it. -/
theorem transmitted_of_cached
    (h : Runs hash128 (Engine.new true notifier stopFunc inTmux maxSize) tr w)
    (hfresh : ∀ t ∈ tr, FreshStep t) {en : CacheEntry} (hen : en ∈ w.engine.cache.view) :
    ∃ t ∈ tr, ∃ params, MissedUpload hash128 t params ∧ hash128 params.data = en.hash ∧
      w.terminal.lastTransmit en.kittyImgID = some params.transmission := by
  -- generalised over the entry, which may be an older one before the step
  revert hfresh en
  refine Run.historyInvariant (I := fun tr w => (∀ t ∈ tr, FreshStep t) →
    ∀ en ∈ w.engine.cache.view, ∃ t ∈ tr, ∃ params, MissedUpload hash128 t params ∧
      hash128 params.data = en.hash ∧
      w.terminal.lastTransmit en.kittyImgID = some params.transmission) ?_ ?_ h
  · intro _ en hen
    exact nomatch hen
  · intro tr w l w' hrun ih hs hfresh en hen
    have hold : ∀ t ∈ tr, FreshStep t := fun t ht => hfresh t (List.mem_append_left _ ht)
    have hacc := accounts_of_fresh hrun hold
    obtain ⟨env, hr, ht⟩ := hs
    have hstep := Engine.imageStep_of_receive hr
    have hgfx := gfx_of_runs hrun
    rcases Engine.entry_of_imageStep hacc hstep w.terminal hen with
      ⟨en₀, hen₀, hhash, hid⟩ | ⟨c, params, hin, hmiss, hhash, -, hlast⟩
    · -- an old entry: its ID was cached, so this step transmitted nothing for it
      obtain ⟨t, hmem, params, hmissed, hdata, hlast⟩ := ih hold en₀ hen₀
      have hkey : en.kittyImgID ∈ w.engine.cache.byID :=
        (hacc.wf.mem_byID _).mpr ⟨en₀, hen₀, hid⟩
      refine ⟨t, List.mem_append_left _ hmem, params, hmissed, hdata.trans hhash, ?_⟩
      rw [ht, Engine.lastTransmit_step hacc hgfx hstep (hfresh ⟨w, l, w'⟩ (by simp)) hkey, ← hid,
        hlast]
    · exact ⟨⟨w, l, w'⟩, by simp, params, ⟨c, hin, hmiss⟩, hhash, ht ▸ hlast hgfx⟩

/-- From the reply to an upload until the handle is freed or its client leaves, the handle
    denotes an image that was last transmitted with the uploaded bytes, by the upload of these
    bytes that missed. So it carries format and size too, if all uploads of these bytes agree
    on them. -/
theorem transmitted_of_upload {tr' : List (Transition World Label)} {t : Transition World Label}
    (h : Runs hash128 (Engine.new true notifier stopFunc inTmux maxSize) (tr ++ t :: tr') w)
    (hfresh : ∀ t' ∈ tr ++ t :: tr', FreshStep t')
    (hinj : Set.InjOn hash128 (uploadedData (tr ++ t :: tr')))
    {c : ClientID} {params : UploadParams} {handle : UInt32}
    (hin : t.label.input = .event (.uploadRequest c params))
    (hreply : Action.reply (.upload (.ok handle)) ∈ t.label.out)
    (hkept : ∀ t' ∈ tr', t'.label.input ≠ .event (.freeRequest c handle) ∧
      t'.label.input ≠ .event (.clientDisconnect c)) :
    ∃ id params₀, w.engine.handleImage c handle = some id ∧
      w.terminal.lastTransmit id = some params₀.transmission ∧ params₀.data = params.data ∧
      (∃ t₀ ∈ tr ++ [t], MissedUpload hash128 t₀ params₀) ∧
      ((∀ t₀ ∈ tr ++ [t], ∀ c₀ params₁, t₀.label.input = .event (.uploadRequest c₀ params₁) →
        params₁.data = params.data → params₁.transmission.Carries params) →
        params₀.transmission.Carries params) := by
  obtain ⟨hrun₀, hs, htail⟩ := h.of_mid
  have hrun : Runs hash128 (Engine.new true notifier stopFunc inTmux maxSize) (tr ++ [t]) t.post :=
    hrun₀.snoc hs
  have hsplit : tr ++ t :: tr' = (tr ++ [t]) ++ tr' := by simp
  rw [hsplit] at hfresh hinj
  have hfresh₁ : ∀ t' ∈ tr ++ [t], FreshStep t' := fun t' ht' =>
    hfresh t' (List.mem_append_left _ ht')
  have hacc₁ := accounts_of_fresh hrun hfresh₁
  -- the reply names the handle of a cached entry, which some upload transmitted
  have hacc := accounts_of_fresh hrun₀ fun t' ht' => hfresh₁ t' (List.mem_append_left _ ht')
  obtain ⟨env, hr, -⟩ := hs
  have hstep := Engine.imageStep_of_receive hr
  rw [hin] at hstep
  obtain ⟨en, hen, hhash, himage⟩ := Engine.entry_of_reply hacc hstep hreply
  obtain ⟨t₀, ht₀, params₀, hmissed, hdata, hlast⟩ := transmitted_of_cached hrun hfresh₁ hen
  have hsame : params₀.data = params.data := by
    obtain ⟨c₀, hin₀, -⟩ := hmissed
    refine hinj ⟨t₀, List.mem_append_left _ ht₀, by rw [hin₀]; rfl⟩ ?_ (hdata.trans hhash)
    exact ⟨t, by simp, by rw [hin]; rfl⟩
  -- both facts last until the end of the run
  have hend : w.engine.Accounts ∧ w.engine.gfx = true ∧
      w.engine.handleImage c handle = some en.kittyImgID ∧
      w.terminal.lastTransmit en.kittyImgID = some params₀.transmission := by
    refine Run.invariant (I := fun w : World => w.engine.Accounts ∧ w.engine.gfx = true ∧
      w.engine.handleImage c handle = some en.kittyImgID ∧
      w.terminal.lastTransmit en.kittyImgID = some params₀.transmission)
      ⟨hacc₁, gfx_of_runs hrun, himage, hlast⟩ ?_
      (htail.restrict (C := fun t' => FreshStep t' ∧
        t'.label.input ≠ .event (.freeRequest c handle) ∧
        t'.label.input ≠ .event (.clientDisconnect c)) fun t' ht' =>
          ⟨hfresh t' (List.mem_append_right _ ht'), hkept t' ht'⟩)
    intro v l v' hinv hs
    obtain ⟨hacc, hgfx, himage, hlast⟩ := hinv
    obtain ⟨⟨env, hr, ht⟩, hf, hfree, hdisc⟩ := hs
    have hstep := Engine.imageStep_of_receive hr
    refine ⟨Engine.accounts_step hacc hstep hf, ?_,
      Engine.handleImage_step hacc hstep himage hfree hdisc, ?_⟩
    · rw [Engine.gfx_of_placementStep (Engine.placementStep_of_receive hr), hgfx]
    · rw [ht, Engine.lastTransmit_step hacc hgfx hstep hf (hacc.held c handle _ himage), hlast]
  refine ⟨en.kittyImgID, params₀, hend.2.2.1, hend.2.2.2, hsame, ⟨t₀, ht₀, hmissed⟩, ?_⟩
  intro hagree
  obtain ⟨c₀, hin₀, -⟩ := hmissed
  exact hagree t₀ ht₀ c₀ params₀ hin₀ hsame

end Runs

/-- An upload of six bytes as one row of two pixels. -/
def oneRowScript : List (Env × Input) :=
  [Script.event (.uploadRequest "a" ⟨[1, 2, 3, 4, 5, 6], "rgb", 2, 1⟩)]

/-- The upload of the same bytes as two rows of one pixel. -/
def twoRows : UploadParams := ⟨[1, 2, 3, 4, 5, 6], "rgb", 1, 2⟩

/-- The run of both uploads: one transmission, and the size is the first one. -/
theorem twoSizes_run :
    ∃ tr t w, Runs Script.firstByte (Engine.new true true true false 1) (tr ++ [t]) w ∧
      nextCalls (tr ++ [t]) = 1 ∧
      (∀ t' ∈ tr ++ [t], Engine.TransmitsOk t'.label.out) ∧
      (∀ t' ∈ tr ++ [t], uploadData t'.label.input = some twoRows.data) ∧
      t.label.input = .event (.uploadRequest "b" twoRows) ∧
      Action.reply (.upload (.ok 1)) ∈ t.label.out ∧
      w.engine.handleImage "b" 1 = some 1 ∧
      w.terminal.lastTransmit 1 = some ⟨twoRows.data, "rgb", 2, 1⟩ := by
  have hrun := runs_of_exec_concat Script.firstByte (Engine.new true true true false 1)
    oneRowScript (Script.event (.uploadRequest "b" twoRows)) (by decide) (by decide)
  exact ⟨_, _, _, hrun, by decide, by decide, by decide, rfl, by decide, by decide, by decide⟩

/-- Where one image is uploaded there are no hashes to collide. -/
theorem injOn_of_oneUpload {hash128 : Data → Hash} {tr : List (Transition World Label)}
    {data : Data} (h : ∀ t ∈ tr, uploadData t.label.input = some data) :
    Set.InjOn hash128 (uploadedData tr) := by
  intro d hd d' hd' _
  obtain ⟨t, ht, hdata⟩ := hd
  obtain ⟨t', ht', hdata'⟩ := hd'
  rw [h t ht, Option.some.injEq] at hdata
  rw [h t' ht', Option.some.injEq] at hdata'
  exact hdata.symm.trans hdata'

/-- In the run of both uploads, the first one determines what the handle denotes with which the
    second one is answered. -/
theorem transmitted_of_upload_twoRows :
    ∃ (tr : List (Transition World Label)) (t : Transition World Label) (w : World),
      Runs Script.firstByte (Engine.new true true true false 1) (tr ++ [t]) w ∧
      (∀ t' ∈ tr ++ [t], uploadData t'.label.input = some twoRows.data) ∧
      t.label.input = .event (.uploadRequest "b" twoRows) ∧
      Action.reply (.upload (.ok 1)) ∈ t.label.out ∧
      ∃ (id : UInt32) (params₀ : UploadParams), w.engine.handleImage "b" 1 = some id ∧
        w.terminal.lastTransmit id = some params₀.transmission ∧ params₀.data = twoRows.data ∧
        ∃ t₀ ∈ tr ++ [t], MissedUpload Script.firstByte t₀ params₀ := by
  obtain ⟨tr, t, w, hrun, hcalls, -, hdata, hin, hreply, -, -⟩ := twoSizes_run
  obtain ⟨id, params₀, himage, hlast, hsame, hmissed, -⟩ := transmitted_of_upload hrun
    (fresh_of_nextCalls hrun (by rw [hcalls]; decide)) (injOn_of_oneUpload hdata) hin hreply
    (by simp)
  exact ⟨tr, t, w, hrun, hdata, hin, hreply, id, params₀, himage, hlast, hsame, hmissed⟩

/-- The upload of "b" is answered with handle 1, which denotes an image of the other size. -/
theorem transmission_differs :
    ∃ tr t w, Runs Script.firstByte (Engine.new true true true false 1) (tr ++ [t]) w ∧
      Set.InjOn Script.firstByte (uploadedData (tr ++ [t])) ∧
      (∀ t' ∈ tr ++ [t], Engine.TransmitsOk t'.label.out) ∧
      t.label.input = .event (.uploadRequest "b" twoRows) ∧
      Action.reply (.upload (.ok 1)) ∈ t.label.out ∧
      ∃ id tx, w.engine.handleImage "b" 1 = some id ∧ w.terminal.lastTransmit id = some tx ∧
        ¬ tx.Carries twoRows := by
  obtain ⟨tr, t, w, hrun, -, hok, hdata, hin, hreply, himage, hlast⟩ := twoSizes_run
  exact ⟨tr, t, w, hrun, injOn_of_oneUpload hdata, hok, hin, hreply, 1, _, himage, hlast,
    by decide⟩

end World

end Kgd
