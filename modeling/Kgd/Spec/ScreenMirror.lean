import Kgd.Spec.GeometryHistory
import Kgd.Spec.LivePlacements
import Kgd.Spec.Screen
import Kgd.Spec.UploadedImage
import Kgd.Spec.Wraparound

/-!
# The engine on the screen

The engine's graphics calls are followed on a `Terminal`, which is told of calls, and on a
`Screen`, which reads the bytes of the calls. `Screen.Shows` relates the two, and the calls keep
it as long as they fit the terminal: an image is new, and what is placed is not on display. The
engine's calls fit.

## Key results

- `Screen.shows_apply`: one call
- `Engine.fits_of_receive`: the calls of one input
- `World.screen_of_runs`: after every run the screen shows the engine's placements
-/

namespace Kgd

/-- The image that a transmission stores. -/
def Transmission.picture (tx : Transmission) : Picture :=
  .of { imageID := 0, format := tx.format, width := tx.width, height := tx.height } tx.data

/-- The position of a placement as the screen counts, if it has one there. -/
def cursorPos (pos : Int64 × Int64) : Option (Int × Int) :=
  if pos.1 < 0 ∨ pos.2 < 0 then none else some ((pos.1 + 1).toInt, (pos.2 + 1).toInt)

/-! ## Calls that fit -/

namespace Terminal

/-- A call that succeeds and names what it is about; a transmission is of an image that is not
    on display, and a placement of a pair that is not. -/
def Fits (t : Terminal) (c : GfxCall) : Prop :=
  Screen.Names c ∧
    match c with
    | .transmit id _ _ _ _ ok => ok = true ∧ ∀ p, t.shown id p = none
    | .place imageID placementID _ _ _ ok => ok = true ∧ t.shown imageID placementID = none
    | .delete _ _ _ | .beginBatch | .flushBatch => True

/-- Actions whose calls fit, each after the ones before it. -/
def FitsAll : Terminal → List Action → Prop
  | _, [] => True
  | t, a :: out => (∀ call, a = .gfx call → t.Fits call) ∧ FitsAll (t.act a) out

/-- The calls of two lists fit if those of the first do, and those of the second after them. -/
theorem fitsAll_append {t : Terminal} {out out' : List Action} :
    t.FitsAll (out ++ out') ↔ t.FitsAll out ∧ (t.applyAll out).FitsAll out' := by
  induction out generalizing t with
  | nil => simp [FitsAll]
  | cons a out ih => rw [List.cons_append, FitsAll, FitsAll, ih, and_assoc, applyAll_cons]

/-- Deletions fit at any time. -/
theorem fitsAll_of_deletes {out : List Action}
    (h : ∀ call, Action.gfx call ∈ out → Screen.Names call ∧
      ((∃ imageID placementID free, call = .delete imageID placementID free) ∨
        call = .beginBatch ∨ call = .flushBatch)) (t : Terminal) : t.FitsAll out := by
  induction out generalizing t with
  | nil => trivial
  | cons a out ih =>
    refine ⟨?_, ih (fun call hc => h call (List.mem_cons_of_mem _ hc)) _⟩
    rintro call rfl
    obtain ⟨hnames, hcall⟩ := h call List.mem_cons_self
    refine ⟨hnames, ?_⟩
    -- none of these needs anything of the terminal
    rcases hcall with ⟨imageID, placementID, free, rfl⟩ | rfl | rfl
    · trivial
    · trivial
    · trivial

/-- Where there are no calls all of them fit. -/
theorem fitsAll_of_noCalls {out : List Action} (h : ∀ call, Action.gfx call ∉ out)
    (t : Terminal) : t.FitsAll out :=
  fitsAll_of_deletes (fun call hc => absurd hc (h call)) t

/-- In a loop over placements each round finds its own pairs as they were before the loop. -/
theorem fitsAll_flatMap {ks : List UInt32} (hks : ks.Nodup) {piece : UInt32 → List Action}
    (hpiece : ∀ k ∈ ks, ForPlacement k (piece k)) {t : Terminal}
    (hfits : ∀ k ∈ ks, ∀ t' : Terminal, (∀ i, t'.shown i k = t.shown i k) →
      t'.FitsAll (piece k)) : t.FitsAll (ks.flatMap piece) := by
  induction ks generalizing t with
  | nil => trivial
  | cons k ks ih =>
    have hk := hpiece k List.mem_cons_self
    rw [List.nodup_cons] at hks
    rw [List.flatMap_cons, fitsAll_append]
    refine ⟨hfits k List.mem_cons_self t fun _ => rfl, ?_⟩
    apply ih hks.2 fun k' hk' => hpiece k' (List.mem_cons_of_mem _ hk')
    intro k' hk' t' ht'
    apply hfits k' (List.mem_cons_of_mem _ hk')
    intro i
    -- the piece before was of another placement
    have hne : k' ≠ k := by
      rintro rfl
      exact hks.1 hk'
    rw [ht', applyAll_shown_of_forPlacement hk t hne]

end Terminal

/-! ## The screen follows the terminal -/

namespace Screen

/-- The screen has the images that the terminal stores, as they were transmitted, and shows what
    the terminal shows of these images inside of its borders. -/
structure Shows (s : Screen) (t : Terminal) : Prop where
  transmitted : ∀ id ∈ t.stored, (t.lastTransmit id).isSome
  images : ∀ id : UInt32, s.images id.toNat =
    if id ∈ t.stored then (t.lastTransmit id).map Transmission.picture else none
  shown : ∀ i p : UInt32, s.shown i.toNat p.toNat =
    if i ∈ t.stored then (t.shown i p).bind cursorPos else none

/-- A blank screen shows an empty terminal. -/
theorem shows_blank : blank.Shows .empty where
  transmitted := fun id hid => absurd hid (Finset.notMem_empty id)
  images := fun _ => rfl
  shown := fun _ _ => rfl

/-- IDs are known from their integers. -/
theorem natCast_inj {i j : UInt32} : (i.toNat : Int) = j.toNat ↔ i = j := by
  rw [Int.natCast_inj, UInt32.toNat_inj]

/-- The screen has an image exactly if the terminal stores it. -/
theorem Shows.isSome_images {s : Screen} {t : Terminal} (h : s.Shows t) (id : UInt32) :
    (s.images id.toNat).isSome ↔ id ∈ t.stored := by
  rw [h.images]
  by_cases hid : id ∈ t.stored
  · rw [if_pos hid, Option.isSome_map]
    exact iff_of_true (h.transmitted id hid) hid
  · rw [if_neg hid]
    exact iff_of_false Bool.false_ne_true hid

/-- A call that fits does the same to both. -/
theorem shows_apply {s : Screen} {t : Terminal} (h : s.Shows t) {c : GfxCall} (hfits : t.Fits c) :
    (s.call c).Shows (t.apply c) := by
  obtain ⟨hnames, hfits⟩ := hfits
  cases c with
  | transmit id data format width height ok =>
    obtain ⟨rfl, hnone⟩ := hfits
    refine ⟨?_, ?_, ?_⟩
    · intro j hj
      by_cases hji : j = id
      · simp [Terminal.apply, hji]
      · have hold : j ∈ t.stored := by simpa [Terminal.apply, hji] using hj
        simpa [Terminal.apply, hji] using h.transmitted j hold
    · intro j
      by_cases hji : j = id
      · simp [call, setImage, Terminal.apply, hji, Transmission.picture, Picture.of]
      · simp [call, setImage, Terminal.apply, UInt32.toNat_inj, hji, h.images]
    · intro j p
      by_cases hji : j = id
      · simp [call, setImage, Terminal.apply, hji, hnone]
      · simp [call, setImage, Terminal.apply, UInt32.toNat_inj, hji, h.shown]
  | place imageID placementID row col info ok =>
    obtain ⟨rfl, hnone⟩ := hfits
    -- a placement changes what is shown and nothing else
    have hkeep : (t.apply (.place imageID placementID row col info true)).stored = t.stored := rfl
    have hlast : (t.apply (.place imageID placementID row col info true)).lastTransmit =
        t.lastTransmit := rfl
    have himages : (s.call (.place imageID placementID row col info true)).images = s.images := by
      simp only [call]
      split
      · rfl
      · split <;> rfl
    refine ⟨fun id hid => h.transmitted id hid, ?_, ?_⟩
    · intro j
      rw [himages, hkeep, hlast]
      exact h.images j
    · intro j p
      rw [hkeep]
      by_cases hjp : j = imageID ∧ p = placementID
      · obtain ⟨rfl, rfl⟩ := hjp
        by_cases hneg : row < 0 ∨ col < 0
        · -- nothing was written, and nothing is there
          have hold := h.shown j p
          rw [hnone] at hold
          simpa [call, hneg, Terminal.apply, Terminal.setShown, cursorPos] using hold
        · by_cases hj : j ∈ t.stored
          · have hsome := (h.isSome_images j).mpr hj
            simp [call, hneg, hsome, setShown, Terminal.apply, Terminal.setShown, cursorPos, hj]
          · have hold := h.shown j p
            rw [if_neg hj] at hold
            have hnot := mt (h.isSome_images j).mp hj
            simp [call, hneg, hnot, hj, hold]
      · have hold : (t.apply (.place imageID placementID row col info true)).shown j p =
            t.shown j p := by
          simp only [Terminal.apply, ↓reduceIte, Terminal.setShown]
          rw [if_neg hjp]
        have hsame : (s.call (.place imageID placementID row col info true)).shown j.toNat p.toNat =
            s.shown j.toNat p.toNat := by
          simp only [call]
          split
          · rfl
          · split
            · simp only [setShown, natCast_inj]
              rw [if_neg hjp]
            · rfl
        rw [hsame, hold, h.shown]
  | delete imageID placementID free =>
    cases free with
    | true =>
      refine ⟨?_, ?_, ?_⟩
      · intro j hj
        have hold : j ∈ t.stored := Finset.mem_of_mem_erase hj
        exact h.transmitted j hold
      · intro j
        by_cases hji : j = imageID
        · simp [call, setImage, Terminal.apply, hji]
        · simp [call, setImage, Terminal.apply, UInt32.toNat_inj, hji, h.images]
      · intro j p
        by_cases hji : j = imageID
        · simp [call, setImage, Terminal.apply, hji]
        · simp [call, setImage, Terminal.apply, UInt32.toNat_inj, hji, h.shown]
    | false =>
      refine ⟨h.transmitted, h.images, ?_⟩
      intro j p
      by_cases hjp : j = imageID ∧ p = placementID
      · simp [call, setShown, Terminal.apply, Terminal.setShown, hjp]
      · simp only [call, setShown, Terminal.apply, Terminal.setShown, natCast_inj,
          Bool.false_eq_true, ↓reduceIte, if_neg hjp, h.shown]
  | beginBatch => exact h
  | flushBatch => exact h

/-- Calls that fit keep the screen showing what the terminal does. -/
theorem shows_applyAll {s : Screen} {t : Terminal} (h : s.Shows t) {out : List Action}
    (hfits : t.FitsAll out) :
    ((gfxCallsOf out).foldl call s).Shows (t.applyAll out) ∧
      ∀ c ∈ gfxCallsOf out, Names c := by
  induction out generalizing s t with
  | nil => exact ⟨h, fun c hc => absurd hc List.not_mem_nil⟩
  | cons a out ih =>
    obtain ⟨hfit, hrest⟩ := hfits
    cases a with
    | gfx c =>
      have hc := hfit c rfl
      obtain ⟨hshows, hnames⟩ := ih (shows_apply h hc) hrest
      refine ⟨hshows, ?_⟩
      intro c' hc'
      rcases List.mem_cons.mp hc' with rfl | hc'
      · exact hc.1
      · exact hnames c' hc'
    -- what goes to the clients writes nothing to the terminal
    | notifyClient => exact ih h hrest
    | notifyAll => exact ih h hrest
    | reply => exact ih h hrest
    | stop => exact ih h hrest

end Screen

/-! ## The calls of one input -/

namespace Engine

/-- An engine next to a terminal, before any of its counters comes round: what is on display is
    rendered, every ID is one, and the next ones are new. -/
structure Apart (e : Engine) (t : Terminal) : Prop where
  accounts : e.Accounts
  keyed : e.Keyed
  shown : ∀ i pid, t.shown i pid = none ∨ t.shown i pid = e.display i pid
  cached_ne_zero : ∀ id ∈ e.cache.byID, id ≠ 0
  placed_ne_zero : ∀ (pid : UInt32) (p : Placement), e.placements[pid]? = some p →
    p.kittyImgID ≠ 0 ∧ pid ≠ 0
  nextID : e.idAlloc.next ≠ 0 ∧ ∀ (pid : UInt32) (p : Placement), e.placements[pid]? = some p →
    p.kittyImgID ≠ e.idAlloc.next
  nextPlacement : e.nextPlacement + 1 ≠ 0 ∧ e.nextPlacement + 1 ∉ e.placements

section Calls
variable {hash128 : Data → Hash} {env : Env} {e e' : Engine} {t : Terminal}

/-- The deletion of a placement names it. -/
theorem fitsAll_deleteRendered {p : Placement} (hp : p.kittyImgID ≠ 0 ∧ p.id ≠ 0) (e : Engine)
    (t : Terminal) : t.FitsAll (e.deleteRendered p) := by
  apply Terminal.fitsAll_of_deletes
  intro call hcall
  obtain ⟨rfl, -, -⟩ := calls_of_deleteRendered hcall
  refine ⟨⟨hp.1, ?_⟩, Or.inl ⟨_, _, _, rfl⟩⟩
  exact iff_of_false Bool.false_ne_true hp.2

/-- The calls that remove a client's placements fit. -/
theorem Apart.fitsAll_removeOwned (h : e.Apart t) (env : Env) (c : ClientID) :
    t.FitsAll (e.removeOwned env c).2 := by
  apply Terminal.fitsAll_of_deletes
  intro call hcall
  -- a client's own placements are deleted one by one, never an image
  obtain ⟨k, p, hp, hmem⟩ := (GoMap.mem_rangeUpdate_snd _ _ _ _).mp hcall
  split at hmem
  · obtain ⟨rfl, -, -⟩ := calls_of_deleteRendered hmem
    obtain ⟨himage, hk⟩ := h.placed_ne_zero k p hp
    refine ⟨⟨himage, ?_⟩, Or.inl ⟨_, _, _, rfl⟩⟩
    rw [h.keyed k p hp]
    exact iff_of_false Bool.false_ne_true hk
  · cases hmem

/-- What is placed anew has been deleted before, or was not rendered. -/
theorem fitsAll_recomputeOne (hok : ∀ pid, env.placeOk pid = true) (e : Engine) {p : Placement}
    (hp : p.kittyImgID ≠ 0 ∧ p.id ≠ 0)
    (hshown : ∀ i, t.shown i p.id = none ∨ t.shown i p.id = p.display i) :
    t.FitsAll (e.recomputeOne env p).2 := by
  have hdelete : ∀ t : Terminal, t.Fits (.delete p.kittyImgID p.id false) := by
    intro t
    exact ⟨⟨hp.1, iff_of_false Bool.false_ne_true hp.2⟩, trivial⟩
  have hplace : ∀ t : Terminal, t.shown p.kittyImgID p.id = none →
      ∀ pos : ScreenPos, t.Fits (.place p.kittyImgID p.id pos.row pos.col p.info
        (env.placeOk p.id)) := by
    intro t hnone pos
    exact ⟨hp, hok p.id, hnone⟩
  have hnotes : ∀ (t : Terminal) (b : Bool), t.FitsAll
      (if b then [Action.notifyClient p.clientID
        (.visibilityChanged p.id (e.resolve p).visible)] else []) := by
    intro t b
    apply Terminal.fitsAll_of_noCalls
    intro call hcall
    cases b <;> simp at hcall
  have hone : ∀ (t : Terminal) (call : GfxCall), t.Fits call → t.FitsAll [.gfx call] := by
    intro t call hcall
    refine ⟨?_, trivial⟩
    intro call' heq
    rw [← Action.gfx.inj heq]
    exact hcall
  unfold recomputeOne
  split
  · trivial
  · dsimp only
    rw [Terminal.fitsAll_append]
    refine ⟨?_, hnotes _ _⟩
    unfold rerender
    dsimp only
    split
    · rename_i hcase
      -- it appears: nothing of it is on the screen
      have hr : p.rendered = false := by simpa using (Bool.and_eq_true_iff.mp hcase).2
      apply hone
      apply hplace
      rcases hshown p.kittyImgID with hnone | hsame
      · exact hnone
      · rw [hsame, Placement.display, hr]
        rfl
    · split
      · exact hone _ _ (hdelete t)
      · split
        · -- a move
          change t.FitsAll ([.gfx (.delete p.kittyImgID p.id false)] ++ [.gfx (.place _ _ _ _ _ _)])
          rw [Terminal.fitsAll_append]
          refine ⟨hone _ _ (hdelete t), ?_⟩
          apply hone
          apply hplace
          simp [Terminal.act, Terminal.apply, Terminal.setShown]
        · trivial

/-- The calls of a recomputation fit. -/
theorem Apart.fitsAll_recomputePlacements (h : e.Apart t) (hok : ∀ pid, env.placeOk pid = true) :
    t.FitsAll (e.recomputePlacements env).2 := by
  -- the brackets around the placements draw nothing
  have hbatch : ∀ (t : Terminal) (c : GfxCall), c = .beginBatch ∨ c = .flushBatch →
      t.FitsAll (e.gfxCalls [c]) := by
    intro t c hc
    apply Terminal.fitsAll_of_deletes
    intro call hcall
    obtain ⟨-, hcall⟩ := gfx_mem_gfxCalls.mp hcall
    rw [List.mem_singleton.mp hcall]
    refine ⟨?_, Or.inr hc⟩
    rcases hc with rfl | rfl <;> trivial
  have hbegin : t.applyAll (e.gfxCalls [.beginBatch]) = t := by
    unfold gfxCalls
    split <;> rfl
  simp only [recomputePlacements, Terminal.fitsAll_append, hbegin]
  refine ⟨⟨hbatch t _ (Or.inl rfl), ?_⟩, hbatch _ _ (Or.inr rfl)⟩
  rw [GoMap.rangeUpdate_snd]
  have hpiece (k : UInt32) : ∀ a ∈ (e.placements[k]?.map fun p =>
      (some (e.recomputeOne env p).1, (e.recomputeOne env p).2)).elim [] Prod.snd,
      ∃ p, e.placements[k]? = some p ∧ a ∈ (e.recomputeOne env p).2 := by
    intro a ha
    cases hk : e.placements[k]? with
    | none =>
      rw [hk] at ha
      cases ha
    | some p =>
      rw [hk] at ha
      exact ⟨p, rfl, ha⟩
  -- each placement is visited once and only touches itself, so its turn finds it as it was
  apply Terminal.fitsAll_flatMap (GoMap.nodup_visit _ _)
  · intro k _ call hcall
    obtain ⟨p, hp, hcall⟩ := hpiece k _ hcall
    rw [← h.keyed k p hp]
    exact isFor_of_recomputeOne env e p call hcall
  · intro k _ t' ht'
    cases hk : e.placements[k]? with
    | none => trivial
    | some p =>
      have hid := h.keyed k p hk
      obtain ⟨himage, hzero⟩ := h.placed_ne_zero k p hk
      apply fitsAll_recomputeOne hok e ⟨himage, hid ▸ hzero⟩
      intro i
      have hdisplay : e.display i k = p.display i := by
        rw [display, hk]
        rfl
      rw [hid, ht', ← hdisplay]
      exact h.shown i k

/-- The calls of a place request fit. -/
theorem Apart.fitsAll_placeCalls (h : e.Apart t) (hok : ∀ pid, env.placeOk pid = true)
    {c : ClientID} {params : PlaceParams} {kittyID : UInt32} (hid : kittyID ≠ 0) :
    t.FitsAll (e.placeCalls env (e.placed env c params kittyID)) := by
  unfold placeCalls gfxCalls
  split
  · split
    · refine ⟨?_, trivial⟩
      intro call heq
      rw [← Action.gfx.inj heq]
      refine ⟨⟨hid, h.nextPlacement.1⟩, hok _, ?_⟩
      -- the ID is new, so there is no such placement to be shown
      rcases h.shown kittyID (e.nextPlacement + 1) with hnone | hsame
      · exact hnone
      · refine hsame.trans ?_
        rw [display, Std.ExtTreeMap.getElem?_eq_none h.nextPlacement.2]
        rfl
    · trivial
  · trivial

/-- The calls for new data: it is transmitted under a new ID, and then images are freed. -/
theorem Apart.fitsAll_miss (h : e.Apart t) {params : UploadParams}
    (hlookup : e.cache.lookup hash128 params.data = none) {e₁ : Engine} {out₁ : List Action}
    (hevict : ({ e with
      idAlloc := ⟨e.idAlloc.next + 1⟩
      cache := (e.cache.store hash128 params.data e.idAlloc.next).1 } : Engine).freeEvicted env
        (e.cache.store hash128 params.data e.idAlloc.next).2 = (e₁, out₁)) (r : Reply) :
    t.FitsAll (e.gfxCalls [.transmit e.idAlloc.next params.data params.format params.width
      params.height true] ++ out₁ ++ [.reply r]) := by
  rw [Terminal.fitsAll_append, Terminal.fitsAll_append]
  refine ⟨⟨?_, ?_⟩, ?_⟩
  · unfold gfxCalls
    split
    · refine ⟨?_, trivial⟩
      intro call heq
      rw [← Action.gfx.inj heq]
      refine ⟨h.nextID.1, rfl, ?_⟩
      intro pid
      -- the ID is new, so nothing on the screen is a placement of it
      rcases h.shown e.idAlloc.next pid with hnone | hsame
      · exact hnone
      · rw [hsame, Option.eq_none_iff_forall_not_mem]
        intro pos hpos
        obtain ⟨p, hp, ⟨-, himage⟩, -⟩ := display_eq_some.mp hpos
        exact h.nextID.2 pid p hp himage
    · trivial
  · have hout := congrArg Prod.snd hevict
    dsimp only at hout
    subst hout
    apply Terminal.fitsAll_of_deletes
    intro call hcall
    -- the evicted images are cached ones, and no cached ID is zero
    obtain ⟨eid, heid, rfl⟩ := calls_of_freeEvicted hcall
    obtain ⟨en, hen, rfl⟩ := (h.accounts.mem_evicted_iff hlookup).mp heid
    have hview := (RecencyList.mem_iff_keep_or_victims _ _ _ en).mpr (Or.inr hen)
    have hzero := h.cached_ne_zero _ ((h.accounts.wf.mem_byID _).mpr ⟨en, hview, rfl⟩)
    exact ⟨⟨hzero, iff_of_true rfl rfl⟩, Or.inl ⟨_, _, _, rfl⟩⟩
  · apply Terminal.fitsAll_of_noCalls
    intro call hcall
    simp at hcall

/-- The calls of every input fit. -/
theorem Apart.fitsAll_of_receive (h : e.Apart t) (hgfx : e.gfx = true)
    (hok : ∀ pid, env.placeOk pid = true) {input : Input} {out : List Action}
    (hr : e.receive hash128 env input = some (e', out)) (htransmit : TransmitsOk out) :
    t.FitsAll out := by
  have himage := imageStep_of_receive hr
  have hstep := placementStep_of_receive hr
  cases hstep with
  | same _ _ _ _ hdisc _ _ _ _ _ _ hout =>
    have hquiet (hq : ImageQuiet out) : t.FitsAll out := by
      apply Terminal.fitsAll_of_noCalls
      intro call hcall
      have hyes := hout call hcall
      rw [hq call hcall] at hyes
      cases hyes
    cases himage with
    | quiet _ _ _ _ _ _ hq => exact hquiet hq
    | hit => exact Terminal.fitsAll_of_noCalls (by simp) t
    | refused =>
      have hfailed := htransmit _ List.mem_cons_self
      cases hfailed
    | miss hlookup hnone hevict =>
      rw [hnone hgfx]
      exact h.fitsAll_miss hlookup hevict _
    | free => trivial
    | disconnect => exact absurd rfl (hdisc _)
  | place hhandle =>
    rw [Terminal.fitsAll_append]
    refine ⟨h.fitsAll_placeCalls hok ?_, Terminal.fitsAll_of_noCalls (by simp) _⟩
    exact h.cached_ne_zero _ (h.accounts.held _ _ _ hhandle)
  | @unplace pid p hp =>
    obtain ⟨hid, hzero⟩ := h.placed_ne_zero pid p hp
    exact fitsAll_deleteRendered ⟨hid, h.keyed pid p hp ▸ hzero⟩ e t
  | unplaceAll => exact h.fitsAll_removeOwned env _
  | disconnect => exact h.fitsAll_removeOwned env _
  | @recompute _ g notes hgeometry hnotes =>
    rw [Terminal.fitsAll_append]
    refine ⟨?_, Terminal.fitsAll_of_noCalls hnotes _⟩
    -- the update before the recomputation is not about placements or images
    have hg := geometryUpdate_eq_some hgeometry
    apply Apart.fitsAll_recomputePlacements (e := g) _ hok
    rw [hg]
    exact ⟨⟨h.accounts.wf, h.accounts.refs, h.accounts.held⟩, h.keyed, h.shown, h.cached_ne_zero,
      h.placed_ne_zero, h.nextID, h.nextPlacement⟩

end Calls

end Engine

/-! ## Whole runs -/

namespace World

section Runs
variable {hash128 : Data → Hash} {gfx notifier stopFunc inTmux : Bool} {maxSize : Int}
  {tr : List (Transition World Label)} {w : World}

/-- While the counter has not come round, the IDs of images in the cache and of images placed
    have been handed out. -/
theorem images_of_runs (h : Runs hash128 (Engine.new gfx notifier stopFunc inTmux maxSize) tr w)
    (hcalls : nextCalls tr < 2 ^ 32 - 1) :
    (∀ id ∈ w.engine.cache.byID, id ≠ 0) ∧
      ∀ (pid : UInt32) (p : Placement), w.engine.placements[pid]? = some p →
        p.kittyImgID ≠ 0 ∧ p.kittyImgID.toNat ≤ nextCalls tr := by
  induction h with
  | nil =>
    constructor
    · intro id hid
      simp [start, Engine.new, Cache.new] at hid
    · intro pid p hp
      simp [start, Engine.new] at hp
  | @snoc tr w l w' hrun hs ih =>
    have hle := nextCalls_le tr [⟨w, l, w'⟩]
    obtain ⟨hcached, hplaced⟩ := ih (by omega)
    obtain ⟨hfresh, hnext, hids⟩ := alloc_of_nextCalls hrun (by omega)
    have hacc := accounts_of_fresh hrun hfresh
    -- the counter has not wrapped, so the next ID is above every one in use
    have hnew : w.engine.FreshID := by
      intro hmem
      have hle' := hids _ hmem
      omega
    obtain ⟨env, hr, -⟩ := hs
    constructor
    · intro id hid
      rcases Engine.byID_of_imageStep hacc hnew (Engine.imageStep_of_receive hr) with
        ⟨-, hkeys⟩ | ⟨-, hkeys⟩
      · rw [hkeys] at hid
        exact hcached id hid
      · rcases hkeys id hid with rfl | hid
        · intro hzero
          rw [hzero] at hnext
          exact absurd hnext (Nat.succ_ne_zero _).symm
        · exact hcached id hid
    · intro pid p hp
      rcases Engine.image_of_placementStep (Engine.placementStep_of_receive hr) hp with
        ⟨p₀, hp₀, himage⟩ | ⟨c, handle, himage⟩
      -- an old placement keeps its image; a new one takes the image its handle holds
      · obtain ⟨hzero, hbound⟩ := hplaced pid p₀ hp₀
        rw [← himage]
        exact ⟨hzero, Nat.le_trans hbound hle⟩
      · have hid := hacc.held c handle _ himage
        exact ⟨hcached _ hid, Nat.le_trans (hids _ hid) hle⟩

/-- As long as no counter comes round, engine and terminal are kept apart. -/
theorem apart_of_runs (h : Runs hash128 (Engine.new true notifier stopFunc inTmux maxSize) tr w)
    (hcalls : nextCalls tr < 2 ^ 32 - 1) (hcount : placementsCreated tr < 2 ^ 32 - 1) :
    w.engine.Apart w.terminal := by
  obtain ⟨hfresh, hnext, -⟩ := alloc_of_nextCalls h hcalls
  obtain ⟨hcached, hplaced⟩ := images_of_runs h hcalls
  have hzero := zero_not_mem_placements h (by omega)
  have hcounter := (nextPlacement_of_runs h (by omega)).1
  refine ⟨accounts_of_fresh h hfresh, keyed_of_runs h, shown_of_runs h (by omega), hcached, ?_,
    ⟨?_, ?_⟩, ⟨?_, nextPlacement_fresh h hcount⟩⟩
  · intro pid p hp
    refine ⟨(hplaced pid p hp).1, ?_⟩
    rintro rfl
    exact hzero (GoMap.mem_of_getElem? hp)
  · intro hnone
    rw [hnone] at hnext
    exact absurd hnext (Nat.succ_ne_zero _).symm
  · intro pid p hp heq
    -- a placement's image is at most the counter, the next ID is one above it
    have hbound := (hplaced pid p hp).2
    rw [heq] at hbound
    omega
  · intro hnone
    have htoNat := congrArg UInt32.toNat hnone
    have hone : (1 : UInt32).toNat = 1 := rfl
    have hnat : (0 : UInt32).toNat = 0 := rfl
    rw [UInt32.toNat_add, hone, hnat] at htoNat
    omega

/-- For a stored image a step leaves the terminal with what the engine holds. -/
theorem shown_step_of_stored {l : Label} {w' : World} (hapart : w.engine.Apart w.terminal)
    (hgfx : w.engine.gfx = true) (hacc : w.Accounting) (hfresh : w.engine.FreshID)
    (hold : ∀ i ∈ w.terminal.stored, ∀ pid, w.terminal.shown i pid = w.engine.display i pid)
    (hs : Step hash128 w l w') {i : UInt32} (hi : i ∈ w'.terminal.stored) (pid : UInt32) :
    w'.terminal.shown i pid = w'.engine.display i pid := by
  have hacc' := accounting_step hacc hgfx hs fun _ => hfresh
  obtain ⟨env, hr, ht⟩ := hs
  have himage := Engine.imageStep_of_receive hr
  have hstep := Engine.placementStep_of_receive hr
  have hbefore : w.terminal.shown i pid = w.engine.display i pid := by
    have hmem : i = w.engine.idAlloc.next ∨ i ∈ w.engine.cache.byID := by
      have hid := (hacc'.stored i).mp hi
      rcases Engine.byID_of_imageStep hacc.accounts hfresh himage with ⟨-, hkeys⟩ | ⟨-, hkeys⟩
      · exact Or.inr (hkeys ▸ hid)
      · exact hkeys i hid
    rcases hmem with rfl | hmem
    · -- a new image: nothing shows it yet
      have hnone : w.engine.display w.engine.idAlloc.next pid = none := by
        rw [Option.eq_none_iff_forall_not_mem]
        intro pos hpos
        obtain ⟨p, hp, ⟨-, heq⟩, -⟩ := Engine.display_eq_some.mp hpos
        exact hapart.nextID.2 pid p hp heq
      rcases hapart.shown w.engine.idAlloc.next pid with hshown | hshown
      · rw [hshown, hnone]
      · exact hshown
    · exact hold i ((hacc.stored i).mpr hmem) pid
  -- without an eviction the step draws what the table says, or leaves it
  have hfollows (hout : EvictsNothing l.out) :
      w'.terminal.shown i pid = w'.engine.display i pid := by
    rw [ht]
    rcases Engine.shown_step hgfx hapart.keyed (fun _ => hapart.nextPlacement.2) hstep w.terminal
      i pid with hnow | ⟨hsame, hnow | ⟨-, hnot⟩⟩
    · exact hnow
    · rw [hnow, hsame, hbefore]
    · exact absurd hout hnot
  have hquiet {out : List Action} (hq : ImageQuiet out) : EvictsNothing out := by
    intro a ha
    cases a with
    | gfx call =>
      have hno := hq call ha
      cases call with
      | delete => exact hno
      | _ => rfl
    | _ => rfl
  obtain ⟨input, out⟩ := l
  obtain ⟨e', t'⟩ := w'
  dsimp only at himage hstep ht hi hfollows ⊢
  cases himage with
  | quiet _ _ _ _ _ _ hq => exact hfollows (hquiet hq)
  | hit => exact hfollows (by simp [EvictsNothing, Action.freesImage])
  | refused => exact hfollows (by simp [EvictsNothing, Action.freesImage])
  | miss hlookup hok hevict =>
    rw [Engine.applyAll_miss hgfx (hok hgfx) hevict] at ht
    rw [ht, Finset.mem_sdiff, List.mem_toFinset] at hi
    have hdisplay := Engine.placements_of_upload hstep
    rw [ht, Engine.display, hdisplay]
    exact (if_neg hi.2).trans hbefore
  | free => exact hfollows (by simp [EvictsNothing])
  | disconnect _ _ _ hq => exact hfollows (hquiet hq)

/-- What the terminal shows of a stored image is what the engine holds. -/
theorem shown_of_stored
    (h : Runs hash128 (Engine.new true notifier stopFunc inTmux maxSize) tr w)
    (hcalls : nextCalls tr < 2 ^ 32 - 1) (hcount : placementsCreated tr < 2 ^ 32 - 1) :
    ∀ i ∈ w.terminal.stored, ∀ pid, w.terminal.shown i pid = w.engine.display i pid := by
  induction h with
  | nil =>
    intro i hi
    exact absurd hi (Finset.notMem_empty i)
  | @snoc tr w l w' hrun hs ih =>
    have hcalls' := nextCalls_le tr [⟨w, l, w'⟩]
    have hcount' := placementsCreated_le tr [⟨w, l, w'⟩]
    obtain ⟨hfresh, hnext, hids⟩ := alloc_of_nextCalls hrun (by omega)
    -- the counter has not wrapped
    have hnew : w.engine.FreshID := by
      intro hmem
      have hle := hids _ hmem
      omega
    intro i hi pid
    exact shown_step_of_stored (apart_of_runs hrun (by omega) (by omega)) (gfx_of_runs hrun)
      (accounting_of_fresh hrun hfresh) hnew (ih (by omega) (by omega)) hs hi pid

/-- After every run the screen that has read the calls shows what the terminal does. -/
theorem shows_of_runs
    (h : Run (CallsSucceed hash128) (start (Engine.new true notifier stopFunc inTmux maxSize)) tr w)
    (hok : ∀ t ∈ tr, Engine.TransmitsOk t.label.out) (hcalls : nextCalls tr < 2 ^ 32 - 1)
    (hcount : placementsCreated tr < 2 ^ 32 - 1) :
    ((tr.flatMap fun t => gfxCallsOf t.label.out).foldl Screen.call .blank).Shows w.terminal ∧
      ∀ c ∈ tr.flatMap fun t => gfxCallsOf t.label.out, Screen.Names c := by
  induction h with
  | nil => exact ⟨Screen.shows_blank, fun c hc => absurd hc List.not_mem_nil⟩
  | @snoc tr w l w' hrun hs ih =>
    have hcalls' := nextCalls_le tr [⟨w, l, w'⟩]
    have hcount' := placementsCreated_le tr [⟨w, l, w'⟩]
    obtain ⟨hshows, hnames⟩ := ih (fun t ht => hok t (List.mem_append_left _ ht)) (by omega)
      (by omega)
    have hruns := runs_of_callsSucceed hrun
    have hlast := hok ⟨w, l, w'⟩ (by simp)
    obtain ⟨env, hplace, hr, ht⟩ := hs
    -- the step starts in a reachable state, so its calls fit the terminal they meet
    have hfits := (apart_of_runs hruns (by omega) (by omega)).fitsAll_of_receive
      (gfx_of_runs hruns) hplace hr hlast
    obtain ⟨hshows', hnames'⟩ := Screen.shows_applyAll hshows hfits
    rw [List.flatMap_append, List.flatMap_singleton, List.foldl_append, ht]
    refine ⟨hshows', ?_⟩
    intro c hc
    rcases List.mem_append.mp hc with hc | hc
    · exact hnames c hc
    · exact hnames' c hc

/-- The bytes that a run of the engine sends through the TTY backend, through tmux or not, are
    read by the terminal to their end. It then has exactly the cached images, each with the data
    of its hash, and it shows exactly the visible placements of these images whose position is
    not above or to the left of the screen, each at its position. -/
theorem screen_of_runs
    (h : Run (CallsSucceed hash128) (start (Engine.new true notifier stopFunc inTmux maxSize)) tr w)
    (hok : ∀ t ∈ tr, Engine.TransmitsOk t.label.out) (hcalls : nextCalls tr < 2 ^ 32 - 1)
    (hcount : placementsCreated tr < 2 ^ 32 - 1) :
    ∃ (stream : Bytes) (s : Screen),
      TTYGraphics.received inTmux ((TTYGraphics.new inTmux).calls
        (tr.flatMap fun t => gfxCallsOf t.label.out)).2.flatten = some stream ∧
      Screen.blank.read stream = some s ∧ s.pending = none ∧
      (∀ id : UInt32, (s.images id.toNat).isSome ↔ id ∈ w.engine.cache.byID) ∧
      (∀ en ∈ w.engine.cache.view, ∃ picture,
        s.images en.kittyImgID.toNat = some picture ∧ hash128 picture.data = en.hash) ∧
      ∀ (i pid : UInt32) (pos : Int × Int), s.shown i.toNat pid.toNat = some pos ↔
        ∃ p, w.engine.placements[pid]? = some p ∧ p.visible = true ∧ p.kittyImgID = i ∧
          i ∈ w.engine.cache.byID ∧ cursorPos (p.termRow, p.termCol) = some pos := by
  have hruns := runs_of_callsSucceed h
  obtain ⟨hshows, hnames⟩ := shows_of_runs h hok hcalls hcount
  obtain ⟨hfresh, -, -⟩ := alloc_of_nextCalls hruns hcalls
  have hacc := accounting_of_fresh hruns hfresh
  -- each step's calls are bracketed, so nothing is left in the buffer
  have hbytes := (TTYGraphics.written_of_batched (batched_of_runs hruns)
    (g := TTYGraphics.new inTmux) rfl).1
  refine ⟨_, _, ?_, Screen.read_calls rfl hnames, ?_, ?_, ?_, ?_⟩
  · rw [hbytes]
    exact TTYGraphics.received_written (g := TTYGraphics.new inTmux) _
  · exact Screen.pending_calls rfl _
  · intro id
    rw [hshows.isSome_images, hacc.stored]
  · intro en hen
    obtain ⟨t, -, params, -, hhash, hlast⟩ := transmitted_of_cached hruns hfresh hen
    have hid : en.kittyImgID ∈ w.terminal.stored :=
      (hacc.stored _).mpr ((hacc.accounts.wf.mem_byID _).mpr ⟨en, hen, rfl⟩)
    refine ⟨params.transmission.picture, ?_, hhash⟩
    rw [hshows.images, if_pos hid, hlast]
    rfl
  · intro i pid pos
    rw [hshows.shown, ← hacc.stored]
    -- a placement is on the screen only while its image is stored
    by_cases hi : i ∈ w.terminal.stored
    · rw [if_pos hi, shown_of_stored hruns hcalls hcount i hi, Option.bind_eq_some_iff]
      constructor
      · intro hx
        obtain ⟨at', hdisplay, hpos⟩ := hx
        obtain ⟨p, hp, ⟨hr, himage⟩, rfl⟩ := Engine.display_eq_some.mp hdisplay
        exact ⟨p, hp, (rendered_of_runs h hp).symm.trans hr, himage, hi, hpos⟩
      · intro hx
        obtain ⟨p, hp, hvisible, himage, -, hpos⟩ := hx
        refine ⟨_, Engine.display_eq_some.mpr ⟨p, hp, ⟨?_, himage⟩, rfl⟩, hpos⟩
        exact (rendered_of_runs h hp).trans hvisible
    · rw [if_neg hi]
      refine iff_of_false (by simp) ?_
      intro hx
      obtain ⟨p, -, -, -, hmem, -⟩ := hx
      exact hi hmem

end Runs

theorem isSome_single :
    (singleRun.get isSome_singleRun).2.engine.placements[(1 : UInt32)]?.isSome = true := by decide

/-- The placement of `singleScript` is on the screen, in the third row. -/
theorem screen_of_runs_single :
    ∃ (stream : Bytes) (s : Screen),
      TTYGraphics.received false ((TTYGraphics.new false).calls
        ((singleRun.get isSome_singleRun).1.flatMap fun t => gfxCallsOf t.label.out)).2.flatten =
          some stream ∧
      Screen.blank.read stream = some s ∧ s.shown 1 1 = some (3, 1) := by
  obtain ⟨stream, s, hstream, hread, -, -, -, hshown⟩ :=
    screen_of_runs run_singleRun (by decide) (by decide) (by decide)
  have hp := (Option.some_get isSome_single).symm
  exact ⟨stream, s, hstream, hread, (hshown 1 1 (3, 1)).mpr
    ⟨_, hp, by decide, by decide, by decide, by decide⟩⟩

end World

end Kgd
