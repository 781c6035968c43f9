import Kgd.Daemon.Engine
import Kgd.ForStd.Run
import Mathlib.Data.Finset.Basic

/-!
# The terminal, and the engine driving it

The abstract side of the `Graphics` interface: what a kitty terminal holds after a sequence
of calls. `World` puts the engine next to the terminal it writes to; `World.Step` is one
iteration of the engine's loop with its graphics calls applied.
-/

namespace Kgd

/-- The arguments of a `Transmit` call for an image. -/
structure Transmission where
  data : Data
  format : String
  width : Int64
  height : Int64
  deriving DecidableEq, Repr

/-- What a terminal holds. -/
structure Terminal where
  /-- images transmitted and not freed since -/
  stored : Finset UInt32
  /-- screen position of each displayed (image, placement) pair -/
  shown : UInt32 → UInt32 → Option (Int64 × Int64)
  /-- the last `Transmit` issued for each image ID -/
  lastTransmit : UInt32 → Option Transmission

namespace Terminal

/-- A terminal that no image was sent to. -/
def empty : Terminal :=
  { stored := ∅, shown := fun _ _ => none, lastTransmit := fun _ => none }

/-- Display or remove one (image, placement) pair. -/
def setShown (t : Terminal) (imageID placementID : UInt32) (pos : Option (Int64 × Int64)) :
    Terminal :=
  { t with shown := fun i p =>
      if i = imageID ∧ p = placementID then pos else t.shown i p }

/-- The effect of one graphics call. A failed `Transmit` or `Place` changes nothing on
    display; deleting with `free` (the engine only does so for a whole image) removes the
    image with all its placements. -/
def apply (t : Terminal) : GfxCall → Terminal
  | .transmit id data format width height ok =>
    { t with
      stored := if ok then insert id t.stored else t.stored
      lastTransmit := fun i =>
        if i = id then some { data, format, width, height } else t.lastTransmit i }
  | .place imageID placementID row col _ ok =>
    if ok then t.setShown imageID placementID (some (row, col)) else t
  | .delete imageID placementID free =>
    if free then
      { t with
        stored := t.stored.erase imageID
        shown := fun i p => if i = imageID then none else t.shown i p }
    else t.setShown imageID placementID none
  | .beginBatch => t
  | .flushBatch => t

/-- The effect of one engine action: only graphics calls reach the terminal. -/
def act (t : Terminal) : Action → Terminal
  | .gfx call => t.apply call
  | _ => t

/-- The effect of the actions `out`, in order. -/
def applyAll (t : Terminal) (out : List Action) : Terminal := out.foldl act t

@[simp] theorem applyAll_nil (t : Terminal) : t.applyAll [] = t := rfl

@[simp] theorem applyAll_cons (t : Terminal) (a : Action) (out : List Action) :
    t.applyAll (a :: out) = (t.act a).applyAll out := rfl

@[simp] theorem applyAll_append (t : Terminal) (out out' : List Action) :
    t.applyAll (out ++ out') = (t.applyAll out).applyAll out' := List.foldl_append

end Terminal

/-! ## Calls by what they touch -/

namespace GfxCall

/-- A call that transmits or frees an image, as opposed to one that displays or removes a
    placement. -/
def touchesImages : GfxCall → Bool
  | .transmit .. => true
  | .place .. => false
  | .delete _ _ free => free
  | .beginBatch => false
  | .flushBatch => false

/-- A call that displays or removes the placement `placementID` only. -/
def isFor (placementID : UInt32) : GfxCall → Bool
  | .transmit .. => false
  | .place _ pid .. => pid == placementID
  | .delete _ pid free => pid == placementID && !free
  | .beginBatch => true
  | .flushBatch => true

end GfxCall

/-- Actions none of which transmits or frees an image. -/
def ImageQuiet (out : List Action) : Prop :=
  ∀ call, Action.gfx call ∈ out → call.touchesImages = false

/-- Actions all of whose graphics calls are about the placement `placementID`. -/
def ForPlacement (placementID : UInt32) (out : List Action) : Prop :=
  ∀ call, Action.gfx call ∈ out → call.isFor placementID = true

/-- A `Transmit` call that returned an error. -/
def Action.transmitFailed : Action → Bool
  | .gfx (.transmit _ _ _ _ _ ok) => !ok
  | _ => false

/-- No `Transmit` among the actions failed. -/
def Engine.TransmitsOk (out : List Action) : Prop := ∀ a ∈ out, a.transmitFailed = false

instance (out : List Action) : Decidable (Engine.TransmitsOk out) :=
  inferInstanceAs (Decidable (∀ a ∈ out, a.transmitFailed = false))

/-- A graphics call that returned an error. -/
def Action.failed : Action → Bool
  | .gfx (.transmit _ _ _ _ _ ok) => !ok
  | .gfx (.place _ _ _ _ _ ok) => !ok
  | _ => false

namespace Terminal

/-- A call that is not about images leaves what is stored. -/
theorem apply_stored_of_quiet {call : GfxCall} (h : call.touchesImages = false) (t : Terminal) :
    (t.apply call).stored = t.stored := by
  cases call with
  | transmit => simp [GfxCall.touchesImages] at h
  | place => simp only [apply]; split <;> rfl
  | delete i p free =>
    simp only [GfxCall.touchesImages] at h
    simp [apply, h, setShown]
  | beginBatch => rfl
  | flushBatch => rfl

/-- A call that is not about images leaves what was transmitted. -/
theorem apply_lastTransmit_of_quiet {call : GfxCall} (h : call.touchesImages = false)
    (t : Terminal) : (t.apply call).lastTransmit = t.lastTransmit := by
  cases call with
  | transmit => simp [GfxCall.touchesImages] at h
  | place => simp only [apply]; split <;> rfl
  | delete i p free =>
    simp only [GfxCall.touchesImages] at h
    simp [apply, h, setShown]
  | beginBatch => rfl
  | flushBatch => rfl

/-- Actions without graphics calls do not reach the terminal. -/
theorem applyAll_of_noCalls {out : List Action} (h : ∀ call, Action.gfx call ∉ out)
    (t : Terminal) : t.applyAll out = t := by
  induction out generalizing t with
  | nil => rfl
  | cons a out ih =>
    rw [applyAll_cons, ih fun call hc => h call (List.mem_cons_of_mem _ hc)]
    cases a with
    | gfx call => exact absurd List.mem_cons_self (h call)
    | _ => rfl

/-- Actions that touch no image leave the stored images and their contents alone. -/
theorem applyAll_of_imageQuiet {out : List Action} (h : ImageQuiet out) (t : Terminal) :
    (t.applyAll out).stored = t.stored ∧
      (t.applyAll out).lastTransmit = t.lastTransmit := by
  induction out generalizing t with
  | nil => exact ⟨rfl, rfl⟩
  | cons a out ih =>
    have hout : ImageQuiet out := fun call hc => h call (List.mem_cons_of_mem _ hc)
    obtain ⟨hs, hl⟩ := ih hout (t.act a)
    rw [applyAll_cons, hs, hl]
    cases a with
    | gfx call =>
      -- what is not a call does not reach the terminal
      have hcall := h call List.mem_cons_self
      exact ⟨apply_stored_of_quiet hcall t, apply_lastTransmit_of_quiet hcall t⟩
    | _ => exact ⟨rfl, rfl⟩

/-- A call about one placement leaves the others on display. -/
theorem apply_shown_of_isFor {call : GfxCall} {pid : UInt32} (h : call.isFor pid = true)
    (t : Terminal) {i p : UInt32} (hp : p ≠ pid) :
    (t.apply call).shown i p = t.shown i p := by
  cases call with
  | transmit => simp [GfxCall.isFor] at h
  | place i' p' row col info ok =>
    simp only [GfxCall.isFor, beq_iff_eq] at h
    cases ok <;> simp [apply, setShown, h, hp]
  -- a deletion for one placement does not free the image
  | delete i' p' free =>
    simp only [GfxCall.isFor, Bool.and_eq_true, beq_iff_eq, Bool.not_eq_true'] at h
    simp [apply, setShown, h, hp]
  | beginBatch => rfl
  | flushBatch => rfl

/-- Actions about one placement leave every other pair on display alone. -/
theorem applyAll_shown_of_forPlacement {out : List Action} {pid : UInt32}
    (h : ForPlacement pid out) (t : Terminal) {i p : UInt32} (hp : p ≠ pid) :
    (t.applyAll out).shown i p = t.shown i p := by
  induction out generalizing t with
  | nil => rfl
  | cons a out ih =>
    have hout : ForPlacement pid out := fun call hc => h call (List.mem_cons_of_mem _ hc)
    rw [applyAll_cons, ih hout (t.act a)]
    cases a with
    | gfx call => exact apply_shown_of_isFor (h call List.mem_cons_self) t hp
    | _ => rfl

end Terminal

/-! ## The engine next to its terminal -/

/-- The engine and the terminal its graphics calls go to. -/
structure World where
  engine : Engine
  terminal : Terminal

/-- What one iteration of the engine's loop received and did. -/
structure Label where
  input : Input
  out : List Action
  deriving DecidableEq, Repr

namespace World

/-- An engine in front of an empty terminal. -/
def start (e : Engine) : World := ⟨e, .empty⟩

/-- One iteration of the engine's loop in some environment. -/
def Step (hash128 : Data → Hash) (w : World) (l : Label) (w' : World) : Prop :=
  ∃ env, w.engine.receive hash128 env l.input = some (w'.engine, l.out) ∧
    w'.terminal = w.terminal.applyAll l.out

/-- The runs of an engine that starts in `e`. -/
abbrev Runs (hash128 : Data → Hash) (e : Engine) (tr : List (Transition World Label))
    (w : World) : Prop :=
  Run (Step hash128) (start e) tr w

/-- `Step` as a function of the environment and the input. -/
def next (hash128 : Data → Hash) (w : World) (input : Env × Input) : Option (Label × World) :=
  (w.engine.receive hash128 input.1 input.2).map fun (e, out) =>
    (⟨input.2, out⟩, ⟨e, w.terminal.applyAll out⟩)

/-- What is computed as the next world is a step. -/
theorem step_of_next {hash128 : Data → Hash} {w : World} {input : Env × Input} {l : Label}
    {w' : World} (h : w.next hash128 input = some (l, w')) : Step hash128 w l w' := by
  simp only [next, Option.map_eq_some_iff, Prod.mk.injEq, Prod.exists] at h
  obtain ⟨e, out, hr, rfl, rfl⟩ := h
  exact ⟨input.1, hr, rfl⟩

/-- The step to the next world, if there is one. -/
theorem step_of_isSome (hash128 : Data → Hash) (w : World) (input : Env × Input)
    (h : (w.next hash128 input).isSome) :
    Step hash128 w ((w.next hash128 input).get h).1 ((w.next hash128 input).get h).2 :=
  step_of_next (Option.some_get h).symm

/-- The transitions and the final state of the engine on concrete inputs. -/
def exec (hash128 : Data → Hash) (e : Engine) (inputs : List (Env × Input)) :
    Option (List (Transition World Label) × World) :=
  Run.exec (next hash128) (start e) inputs

/-- What is computed from a list of inputs is a run. -/
theorem runs_of_exec (hash128 : Data → Hash) (e : Engine) (inputs : List (Env × Input))
    (h : (exec hash128 e inputs).isSome) :
    Runs hash128 e ((exec hash128 e inputs).get h).1 ((exec hash128 e inputs).get h).2 :=
  Run.of_exec (fun _ _ _ _ => step_of_next) (Option.some_get h).symm

/-- A concrete run with its last transition set apart. -/
theorem runs_of_exec_concat (hash128 : Data → Hash) (e : Engine) (inputs : List (Env × Input))
    (input : Env × Input) (h : (exec hash128 e inputs).isSome)
    (h' : (((exec hash128 e inputs).get h).2.next hash128 input).isSome) :
    Runs hash128 e
      (((exec hash128 e inputs).get h).1 ++ [⟨((exec hash128 e inputs).get h).2,
        ((((exec hash128 e inputs).get h).2.next hash128 input).get h').1,
        ((((exec hash128 e inputs).get h).2.next hash128 input).get h').2⟩])
      ((((exec hash128 e inputs).get h).2.next hash128 input).get h').2 :=
  (runs_of_exec hash128 e inputs h).snoc (step_of_isSome hash128 _ input h')

end World

/-! ## Scripts

Concrete inputs, handled in an environment where every call succeeds. -/

namespace Script

/-- A hash for concrete runs: the first byte. -/
def firstByte (data : Data) : Hash := BitVec.ofNat 128 (data.headD 0).toNat

def event (ev : Event) : Env × Input := (default, .event ev)

/-- An upload of a 1×1 PNG. -/
def upload (c : ClientID) (data : Data) : Env × Input :=
  event (.uploadRequest c ⟨data, "png", 1, 1⟩)

def free (c : ClientID) (handle : UInt32) : Env × Input := event (.freeRequest c handle)

/-- An anchor to row 1, column 1 of the terminal. -/
def absolute : Anchor := ⟨"absolute", "", 0, 0, 1, 1⟩

/-- An anchor to the first buffer line of a window. -/
def inWindow (winID : Int64) : Anchor := ⟨"nvim_win", "", winID, 0, 0, 0⟩

/-- A 1×1 placement. -/
def place (c : ClientID) (handle : UInt32) (anchor : Anchor) : Env × Input :=
  event (.placeRequest c ⟨handle, anchor, 1, 1, 0, 0, 0, 0, 0⟩)

def disconnect (c : ClientID) : Env × Input := event (.clientDisconnect c)

/-- A 10×10 window at the given row, outside any pane. -/
def registerWin (c : ClientID) (winID top : Int64) : Env × Input :=
  event (.registerWin c ⟨winID, "", top, 0, 10, 10, 0⟩)

end Script

/-- How often `IDAllocator.Next` was called: a handler calls it at most once, and every call
    moves the counter. -/
def nextCalls (tr : List (Transition World Label)) : Nat :=
  tr.countP fun t => t.pre.engine.idAlloc != t.post.engine.idAlloc

/-- How many placements were created: each moves `nextPlacement`. -/
def placementsCreated (tr : List (Transition World Label)) : Nat :=
  tr.countP fun t => t.pre.engine.nextPlacement != t.post.engine.nextPlacement

end Kgd
