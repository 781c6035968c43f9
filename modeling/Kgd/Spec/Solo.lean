import Kgd.Spec.Terminal
import Mathlib.Logic.Function.Basic

/-!
# A client on its own

The abstract side of isolation: `Solo` is what one client can observe of its handles and
placements, as a function of its own operations alone. Images are known by the hash of their
bytes and placements by the Place call that made them, so nothing in a `Solo` depends on how
IDs are allocated or on what other clients do.

`clientOps` reads the operations of one client off a run of the engine.
-/

namespace Kgd

/-! ## Operations -/

/-- An operation of a client on its images and placements. A placement is named by the Place
    call that created it, counted from 0. -/
inductive ClientOp
  | upload (params : UploadParams)
  | free (handle : UInt32)
  | place (params : PlaceParams)
  | unplace (call : Nat)
  | unplaceAll
  | disconnect
  deriving DecidableEq, Repr

/-- The operation of client `c` that an input is, if any; `places` are the replies to the
    Place calls of `c` so far. The result is `none` for an Unplace of an ID that is not among
    them. -/
def Input.clientOp (c : ClientID) (places : List (Except String UInt32)) :
    Input → Option (Option ClientOp)
  | .size _ => some none
  | .colors _ => some none
  | .event ev =>
    match ev with
    | .uploadRequest c' params => some (if c' = c then some (.upload params) else none)
    | .freeRequest c' handle => some (if c' = c then some (.free handle) else none)
    | .placeRequest c' params => some (if c' = c then some (.place params) else none)
    | .unplaceRequest c' pid =>
      if c' = c then (places.findIdx? (· == .ok pid)).map fun call => some (.unplace call)
      else some none
    | .unplaceAllRequest c' => some (if c' = c then some .unplaceAll else none)
    | .clientDisconnect c' => some (if c' = c then some .disconnect else none)
    | .helloRequest .. | .scrollUpdate .. | .registerWin .. | .unregisterWin ..
    | .updatePanes .. | .listRequest .. | .statusRequest | .stopRequest => some none

/-- The answer to a Place request, if the action is one. -/
def Action.placeReply? : Action → Option (Except String UInt32)
  | .reply (.place r) => some r
  | _ => none

/-- The answer to an upload, if the action is one. -/
def Action.uploadReply? : Action → Option (Except String UInt32)
  | .reply (.upload r) => some r
  | _ => none

/-- A reply to a place request is nothing else. -/
theorem Action.eq_of_placeReply? {a : Action} {r : Except String UInt32}
    (h : a.placeReply? = some r) : a = .reply (.place r) := by
  unfold placeReply? at h
  split at h
  · rw [Option.some.inj h]
  · exact nomatch h

/-- A reply to an upload is nothing else. -/
theorem Action.eq_of_uploadReply? {a : Action} {r : Except String UInt32}
    (h : a.uploadReply? = some r) : a = .reply (.upload r) := by
  unfold uploadReply? at h
  split at h
  · rw [Option.some.inj h]
  · exact nomatch h

/-- Actions that answer no request contain no answer of a particular kind. -/
theorem Action.filterMap_of_noReply {f : Action → Option (Except String UInt32)}
    {wrap : Except String UInt32 → Reply} (hf : ∀ a r, f a = some r → a = .reply (wrap r))
    {out : List Action} (h : ∀ r, Action.reply r ∉ out) : out.filterMap f = [] := by
  refine List.filterMap_eq_nil_iff.mpr fun a ha => ?_
  cases hfa : f a with
  | none => rfl
  | some r =>
    have hmem : Action.reply (wrap r) ∈ out := hf a r hfa ▸ ha
    exact absurd hmem (h (wrap r))

/-- The answers to the Place requests of `c` in one iteration. -/
def Label.placeReplies (c : ClientID) (l : Label) : List (Except String UInt32) :=
  match l.input with
  | .event (.placeRequest c' _) => if c' = c then l.out.filterMap Action.placeReply? else []
  | _ => []

/-- The answers to the uploads of `c` in one iteration. -/
def Label.uploadReplies (c : ClientID) (l : Label) : List (Except String UInt32) :=
  match l.input with
  | .event (.uploadRequest c' _) => if c' = c then l.out.filterMap Action.uploadReply? else []
  | _ => []

/-- The PlaceReplies of `c` in a run, in order. -/
def placeReplies (c : ClientID) (tr : List (Transition World Label)) :
    List (Except String UInt32) :=
  tr.flatMap fun t => t.label.placeReplies c

/-- The UploadReplies of `c` in a run, in order. -/
def uploadReplies (c : ClientID) (tr : List (Transition World Label)) :
    List (Except String UInt32) :=
  tr.flatMap fun t => t.label.uploadReplies c

/-- The operations of `c` in `tr`, after Place replies `places`. -/
def opsAfter (c : ClientID) (places : List (Except String UInt32)) :
    List (Transition World Label) → Option (List ClientOp)
  | [] => some []
  | t :: tr =>
    (t.label.input.clientOp c places).bind fun op =>
      (opsAfter c (places ++ t.label.placeReplies c) tr).map fun ops => op.toList ++ ops

/-- The operations of `c` in a run, in order; `none` where `c` names a placement that was never
    returned to it. -/
def clientOps (c : ClientID) (tr : List (Transition World Label)) : Option (List ClientOp) :=
  opsAfter c [] tr

/-- The operations of a longer trace have at most one more, that of its last step. -/
theorem opsAfter_concat (c : ClientID) (places : List (Except String UInt32))
    (tr : List (Transition World Label)) (t : Transition World Label) :
    opsAfter c places (tr ++ [t]) = (opsAfter c places tr).bind fun ops =>
      (t.label.input.clientOp c (places ++ placeReplies c tr)).map fun op => ops ++ op.toList := by
  induction tr generalizing places with
  | nil => simp [opsAfter, placeReplies, Option.map_eq_bind]
  | cons t' tr ih =>
    have hreplies : placeReplies c (t' :: tr) = t'.label.placeReplies c ++ placeReplies c tr := rfl
    -- both sides bind the first operation, then those of the rest, then the last one
    simp only [List.cons_append, opsAfter, ih, hreplies, List.append_assoc]
    cases t'.label.input.clientOp c places with
    | none => rfl
    | some op =>
      cases opsAfter c (places ++ t'.label.placeReplies c) tr with
      | none => rfl
      | some ops =>
        simp only [Option.bind_some, Option.map_some, Option.map_map, Function.comp_def,
          List.append_assoc]

/-- The last iteration of a run adds its operation, if it is one of `c`. -/
theorem clientOps_concat {c : ClientID} {tr : List (Transition World Label)}
    {t : Transition World Label} {ops : List ClientOp} (h : clientOps c (tr ++ [t]) = some ops) :
    ∃ ops' op, clientOps c tr = some ops' ∧
      t.label.input.clientOp c (placeReplies c tr) = some op ∧ ops = ops' ++ op.toList := by
  simp only [clientOps, opsAfter_concat, List.nil_append, Option.bind_eq_some_iff,
    Option.map_eq_some_iff] at h
  obtain ⟨ops', hops, op, hop, rfl⟩ := h
  exact ⟨ops', op, hops, hop, rfl⟩

/-! ## The client's own state -/

/-- What a client's operations determine of its handles and placements. -/
structure Solo where
  /-- the hash of the image that a handle denotes -/
  handles : UInt32 → Option Hash
  /-- the handles its uploads were answered with -/
  uploads : List UInt32
  /-- which of its Place calls were granted -/
  accepted : List Bool
  /-- what a Place call asked for and the image it shows, while its placement is there -/
  placed : Nat → Option (PlaceParams × Hash)

namespace Solo

/-- A client that has done nothing. -/
def start : Solo :=
  { handles := fun _ => none, uploads := [], accepted := [], placed := fun _ => none }

/-- The search for an unused handle, `n` steps from `handle`. -/
def unused (s : Solo) : Nat → UInt32 → Option UInt32
  | 0, _ => none
  | n + 1, handle => if (s.handles handle).isSome then s.unused n (handle + 1) else some handle

/-- One operation of the client. -/
def step (hash128 : Data → Hash) (s : Solo) : ClientOp → Solo
  | .upload params =>
    match s.unused UInt32.size 1 with
    | none => s
    | some handle =>
      { s with
        handles := Function.update s.handles handle (some (hash128 params.data))
        uploads := s.uploads ++ [handle] }
  | .free handle => { s with handles := Function.update s.handles handle none }
  | .place params =>
    match s.handles params.handle with
    | none => { s with accepted := s.accepted ++ [false] }
    | some image =>
      { s with
        accepted := s.accepted ++ [true]
        placed := Function.update s.placed s.accepted.length (some (params, image)) }
  | .unplace call => { s with placed := Function.update s.placed call none }
  | .unplaceAll => { s with placed := fun _ => none }
  | .disconnect => { s with handles := fun _ => none, placed := fun _ => none }

/-- The state after a list of operations. -/
def run (hash128 : Data → Hash) (ops : List ClientOp) : Solo := ops.foldl (step hash128) start

/-- Alone, one more operation is one more step. -/
theorem run_append (hash128 : Data → Hash) (ops : List ClientOp) (op : Option ClientOp) :
    run hash128 (ops ++ op.toList) =
      op.elim (run hash128 ops) (step hash128 (run hash128 ops)) := by
  cases op with
  | none => simp
  | some op => simp [run]

end Solo

end Kgd
