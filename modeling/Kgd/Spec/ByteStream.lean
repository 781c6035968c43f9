import Kgd.Daemon.TTYGraphics
import Kgd.ForStd.Framing
import Kgd.Spec.EngineSteps

/-!
# The bytes on the terminal

The TTY backend turns graphics calls into buffers: a sequence of its own for each chunk of a
transmission, one buffer for a batch, and inside tmux a passthrough block around every
sequence. Read back through tmux's rule, the buffers are the sequences of the calls, in order.

tmux's passthrough is an instance of `Framing`, so that arbitrary contents come through, also
those that end in an escape character.

## Key results

- `TTYGraphics.stream`: the bytes sent are the sequences of the calls
- `TTYGraphics.passthrough_wrapTmux`: `WrapTmux` is inverted for every string
- `Engine.batched_of_receive`: what the engine calls has the shape assumed
-/

namespace Kgd

/-! ## tmux -/

/-- tmux's passthrough: blocks that start with `ESC P tmux ;`. -/
def tmux : Framing UInt8 where
  opening := bytes "\x1bPtmux;"
  esc := ESC
  close := 0x5c
  opening_ne_nil := by decide
  close_ne_esc := by decide

/-- Wrapping for tmux stuffs escapes in the passthrough's frame. -/
theorem wrapTmux_eq (escape : Bytes) : wrapTmux escape = tmux.wrap escape := by
  have hclosing : bytes "\x1b\\" = [tmux.esc, tmux.close] := by decide
  simp only [wrapTmux, hclosing]
  rfl

/-- What tmux hands to the terminal, if the bytes are a sequence of closed blocks. -/
def passthrough (stream : Bytes) : Option Bytes := tmux.scan (.opening 0) stream

namespace TTYGraphics

/-- `WrapTmux` is inverted, whatever the string is and whatever follows. -/
theorem passthrough_wrapTmux (escape rest : Bytes) :
    passthrough (wrapTmux escape ++ rest) = (passthrough rest).map (escape ++ ·) := by
  rw [wrapTmux_eq]
  exact tmux.scan_wrap escape rest

/-! ## The sequences of the calls -/

/-- The sequences a call stands for: its own arguments, as the command with these fields is
    written. -/
def sequences : GfxCall → List Bytes
  | .transmit id data format width height _ =>
    TransmitCommand.serializeChunks { imageID := id, format, width, height } data
  | .place imageID placementID row col p _ =>
    [PlaceCommand.serialize
      { imageID, placementID, row, col, width := p.width, height := p.height, srcX := p.srcX,
        srcY := p.srcY, srcW := p.srcW, srcH := p.srcH, zIndex := p.zIndex }]
  | .delete imageID placementID free =>
    [DeleteCommand.serialize { imageID, placementID, free }]
  | .beginBatch | .flushBatch => []

/-- A call that `send`s. -/
def Sends : GfxCall → Prop
  | .place .. | .delete .. => True
  | .transmit .. | .beginBatch | .flushBatch => False

/-- Calls of the shape the engine makes: batches are closed, and contain only placements and
    deletions. -/
inductive Batched : List GfxCall → Prop
  | nil : Batched []
  | transmit {id data format width height ok cs} (h : Batched cs) :
      Batched (.transmit id data format width height ok :: cs)
  | send {c cs} (hc : Sends c) (h : Batched cs) : Batched (c :: cs)
  | batch {batch cs} (hbatch : ∀ c ∈ batch, Sends c) (h : Batched cs) :
      Batched (.beginBatch :: (batch ++ .flushBatch :: cs))

variable {g : TTYGraphics} {c : GfxCall} {cs cs' : List GfxCall}

theorem calls_cons (g : TTYGraphics) (c : GfxCall) (cs : List GfxCall) :
    g.calls (c :: cs) = (((g.call c).1.calls cs).1, (g.call c).2 ++ ((g.call c).1.calls cs).2) :=
  rfl

/-- Calls write one after the other. -/
theorem calls_append (g : TTYGraphics) (cs cs' : List GfxCall) :
    g.calls (cs ++ cs') =
      (((g.calls cs).1.calls cs').1, (g.calls cs).2 ++ ((g.calls cs).1.calls cs').2) := by
  induction cs generalizing g with
  | nil => rfl
  | cons c cs ih =>
    rw [List.cons_append, calls_cons, ih, calls_cons, List.append_assoc]

/-- The bytes written for the sequences of some calls. -/
def written (g : TTYGraphics) (cs : List GfxCall) : Bytes :=
  (cs.flatMap sequences).flatMap g.wrapped

/-- Only whether it is inside tmux decides what the backend writes. -/
theorem written_congr {g g' : TTYGraphics} (h : g.inTmux = g'.inTmux) (cs : List GfxCall) :
    g.written cs = g'.written cs := by
  have hwrapped : g.wrapped = g'.wrapped := by
    funext seq
    simp only [wrapped, h]
  rw [written, hwrapped, written]

/-- What is written without a batch is the sequences of each call. -/
theorem written_cons (g : TTYGraphics) (c : GfxCall) (cs : List GfxCall) :
    g.written (c :: cs) = (sequences c).flatMap g.wrapped ++ g.written cs := by
  rw [written, List.flatMap_cons, List.flatMap_append, written]

/-- A placement or deletion is one sequence, passed to `send`. -/
theorem call_of_sends (hc : Sends c) : ∃ seq, sequences c = [seq] ∧ g.call c = g.send seq := by
  cases c with
  | transmit => exact hc.elim
  | place => exact ⟨_, rfl, rfl⟩
  | delete => exact ⟨_, rfl, rfl⟩
  | beginBatch => exact hc.elim
  | flushBatch => exact hc.elim

/-- In a batch nothing is sent, and the sequences are collected. -/
theorem calls_batching (hbatching : g.batching = true) (hcs : ∀ c ∈ cs, Sends c) :
    g.calls cs = ({ g with batch := g.batch ++ g.written cs }, []) := by
  induction cs generalizing g with
  | nil => simp [calls, written]
  | cons c cs ih =>
    rw [List.forall_mem_cons] at hcs
    obtain ⟨seq, hseq, hcall⟩ := call_of_sends (g := g) hcs.1
    have hsend : g.call c = ({ g with batch := g.batch ++ g.wrapped seq }, []) := by
      rw [hcall, send, if_pos hbatching]
    have hrest := ih (g := { g with batch := g.batch ++ g.wrapped seq }) hbatching hcs.2
    rw [calls_cons, hsend]
    show (({ g with batch := g.batch ++ g.wrapped seq } : TTYGraphics).calls cs |>.1,
      ({ g with batch := g.batch ++ g.wrapped seq } : TTYGraphics).calls cs |>.2) = _
    -- the batch does not matter for what is written next
    have hsame : ({ g with batch := g.batch ++ g.wrapped seq } : TTYGraphics).written cs =
        g.written cs := written_congr rfl cs
    rw [hrest, written_cons, hseq, List.flatMap_singleton, ← List.append_assoc]
    simp only [hsame]

/-- A whole batch is sent as one buffer, or as none when it is empty. -/
theorem calls_batch (hcs : ∀ c ∈ cs, Sends c) :
    g.calls (.beginBatch :: (cs ++ [.flushBatch])) =
      ({ g with batching := false, batch := [] },
        if 0 < (g.written cs).length then [g.written cs] else []) := by
  have hinside := calls_batching (g := { g with batching := true, batch := [] }) rfl hcs
  rw [List.nil_append] at hinside
  rw [calls_cons, calls_append]
  simp only [call, beginBatch, hinside, calls, flushBatch, List.nil_append, List.append_nil]
  rfl

/-! ## The stream -/

/-- A backend between batches. -/
def Idle (g : TTYGraphics) : Prop := g.batching = false

/-- Between batches, calls of the engine's shape send the bytes of their sequences, and leave
    the backend between batches. -/
theorem written_of_batched (h : Batched cs) (hidle : g.Idle) :
    (g.calls cs).2.flatten = g.written cs ∧ (g.calls cs).1.inTmux = g.inTmux ∧
      (g.calls cs).1.Idle := by
  induction h generalizing g with
  | nil => exact ⟨rfl, rfl, hidle⟩
  | @transmit id data format width height ok cs _ ih =>
    obtain ⟨hbytes, htmux, hidle'⟩ := ih hidle
    refine ⟨?_, htmux, hidle'⟩
    rw [calls_cons, written_cons]
    show (List.map g.wrapped _ ++ (g.calls cs).2).flatten = _
    rw [List.flatten_append, hbytes, ← List.flatMap_def]
    rfl
  | @send c cs hc _ ih =>
    -- outside a batch a sequence goes to the writer as it is
    obtain ⟨hbytes, htmux, hidle'⟩ := ih hidle
    obtain ⟨seq, hseq, hcall⟩ := call_of_sends (g := g) hc
    have hsend : g.call c = (g, [g.wrapped seq]) := by
      rw [hcall, send, hidle]
      rfl
    rw [calls_cons, hsend, written_cons, hseq]
    refine ⟨?_, htmux, hidle'⟩
    show ([g.wrapped seq] ++ (g.calls cs).2).flatten = _
    rw [List.flatten_append, hbytes, List.flatten_singleton, List.flatMap_singleton]
  | @batch batch cs hbatch _ ih =>
    -- the flush leaves the backend as it was before the batch, which the calls after it need
    obtain ⟨hbytes, htmux, hidle'⟩ := ih (g := { g with batching := false, batch := [] }) rfl
    have hsplit : GfxCall.beginBatch :: (batch ++ .flushBatch :: cs) =
        (.beginBatch :: (batch ++ [.flushBatch])) ++ cs := by simp
    rw [hsplit, calls_append, calls_batch hbatch]
    refine ⟨?_, htmux, hidle'⟩
    show ((if 0 < (g.written batch).length then [g.written batch] else []) ++ _).flatten = _
    rw [List.flatten_append, hbytes]
    have hbuffer : (if 0 < (g.written batch).length then [g.written batch] else []).flatten =
        g.written batch := by
      split
      · exact List.flatten_singleton
      · rename_i hempty
        exact (List.length_eq_zero_iff.mp (by omega)).symm
    have hsame : ({ g with batching := false, batch := [] } : TTYGraphics).written cs =
        g.written cs := written_congr rfl cs
    rw [hbuffer, hsame]
    simp [written, sequences]

/-- What the terminal receives of the bytes: inside tmux, what the passthrough blocks hold. -/
def received (inTmux : Bool) (stream : Bytes) : Option Bytes :=
  if inTmux then passthrough stream else some stream

/-- What passes through tmux, or does not have to, comes out as the sequences. -/
theorem received_written (cs : List GfxCall) :
    received g.inTmux (g.written cs) = some (cs.flatMap sequences).flatten := by
  unfold received written
  cases htmux : g.inTmux with
  | false =>
    -- outside tmux nothing is wrapped
    have hwrapped : g.wrapped = id := funext fun seq => by simp [wrapped, htmux]
    rw [hwrapped, List.flatMap_id]
    rfl
  | true =>
    have hwrapped : g.wrapped = tmux.wrap :=
      funext fun seq => by simp [wrapped, htmux, wrapTmux_eq]
    rw [hwrapped]
    exact tmux.scan_flatMap_wrap _

/-- The buffers sent for calls of the engine's shape, concatenated and, inside tmux, read
    through the passthrough rule, are the sequences of the calls in order; a batch is sent as at
    most one buffer; and `WrapTmux` is inverted for every string. -/
theorem stream (inTmux : Bool) (h : Batched cs) :
    received inTmux ((new inTmux).calls cs).2.flatten = some (cs.flatMap sequences).flatten ∧
      (∀ before batch after, cs = before ++ .beginBatch :: (batch ++ .flushBatch :: after) →
        (∀ c ∈ batch, Sends c) →
        (((new inTmux).calls before).1.calls
          (.beginBatch :: (batch ++ [.flushBatch]))).2.length ≤ 1) ∧
      ∀ escape, passthrough (wrapTmux escape) = some escape := by
  refine ⟨?_, ?_, ?_⟩
  · obtain ⟨hbytes, -⟩ := written_of_batched h (g := new inTmux) rfl
    rw [hbytes]
    exact received_written (g := new inTmux) cs
  · intro before batch after _ hbatch
    rw [calls_batch hbatch]
    split <;> simp
  · intro escape
    -- one wrapped escape with nothing behind it
    have hone := passthrough_wrapTmux escape []
    rw [List.append_nil] at hone
    rw [hone]
    simp [passthrough, Framing.scan]

/-- A transmission, and a batch of a deletion and a placement outside the screen. -/
theorem stream_batch :
    let cs : List GfxCall := [.transmit 1 [27] "png" 1 1 true, .beginBatch, .delete 1 2 false,
      .place 1 2 (-1) 0 ⟨1, 1, 0, 0, 0, 0, 0⟩ true, .flushBatch]
    received true ((new true).calls cs).2.flatten = some (cs.flatMap sequences).flatten ∧
      (∀ before batch after, cs = before ++ .beginBatch :: (batch ++ .flushBatch :: after) →
        (∀ c ∈ batch, Sends c) →
        (((new true).calls before).1.calls
          (.beginBatch :: (batch ++ [.flushBatch]))).2.length ≤ 1) ∧
      ∀ escape, passthrough (wrapTmux escape) = some escape := by
  intro cs
  have hbatch : ∀ c ∈ [GfxCall.delete 1 2 false,
      GfxCall.place 1 2 (-1) 0 ⟨1, 1, 0, 0, 0, 0, 0⟩ true], Sends c := by
    intro c hc
    cases List.mem_cons.mp hc with
    | inl h => exact h ▸ trivial
    | inr h => exact List.mem_singleton.mp h ▸ trivial
  exact stream true (.transmit (.batch hbatch .nil))

/-! ## The engine's calls -/

/-- Balanced batches one after the other are balanced. -/
theorem Batched.append (h : Batched cs) (h' : Batched cs') : Batched (cs ++ cs') := by
  induction h with
  | nil => exact h'
  | transmit _ ih => exact .transmit ih
  | send hc _ ih => exact .send hc ih
  | @batch batch cs hbatch _ ih =>
    rw [List.cons_append, List.append_assoc, List.cons_append]
    exact .batch hbatch ih

/-- Calls outside batches. -/
theorem batched_of_plain (h : ∀ c ∈ cs, c ≠ .beginBatch ∧ c ≠ .flushBatch) : Batched cs := by
  induction cs with
  | nil => exact .nil
  | cons c cs ih =>
    rw [List.forall_mem_cons] at h
    have hrest := ih h.2
    cases c with
    | transmit => exact .transmit hrest
    | place => exact .send trivial hrest
    | delete => exact .send trivial hrest
    | beginBatch => exact absurd rfl h.1.1
    | flushBatch => exact absurd rfl h.1.2

end TTYGraphics

/-- The graphics call that an action is. -/
def Action.gfx? : Action → Option GfxCall
  | .gfx call => some call
  | .notifyClient .. | .notifyAll .. | .reply .. | .stop => none

/-- The graphics calls among the actions. -/
def gfxCallsOf (out : List Action) : List GfxCall := out.filterMap Action.gfx?

/-- The graphics calls among the actions. -/
theorem mem_gfxCallsOf {out : List Action} {call : GfxCall} :
    call ∈ gfxCallsOf out ↔ Action.gfx call ∈ out := by
  rw [gfxCallsOf, List.mem_filterMap]
  constructor
  · intro h
    obtain ⟨a, ha, hcall⟩ := h
    cases a with
    | gfx call' =>
      obtain rfl := Option.some.inj hcall
      exact ha
    | notifyClient => exact nomatch hcall
    | notifyAll => exact nomatch hcall
    | reply => exact nomatch hcall
    | stop => exact nomatch hcall
  · exact fun h => ⟨_, h, rfl⟩

theorem gfxCallsOf_append (out out' : List Action) :
    gfxCallsOf (out ++ out') = gfxCallsOf out ++ gfxCallsOf out' := List.filterMap_append

namespace Engine

open TTYGraphics

/-- Calls are made where there is a backend. -/
theorem gfxCallsOf_gfxCalls (e : Engine) (calls : List GfxCall) :
    gfxCallsOf (e.gfxCalls calls) = if e.gfx then calls else [] := by
  unfold gfxCalls gfxCallsOf
  split
  · rw [List.filterMap_map]
    exact List.filterMap_some
  · rfl

/-- Recomputing the positions is one batch. -/
theorem batched_recomputePlacements (env : Env) (e : Engine) :
    Batched (gfxCallsOf (e.recomputePlacements env).2) := by
  simp only [recomputePlacements, gfxCallsOf_append, gfxCallsOf_gfxCalls]
  -- inside the batch there are only deletions and placements
  have hsends : ∀ c ∈ gfxCallsOf (GoMap.rangeUpdate env.placementOrder
      (fun _ p => (some (e.recomputeOne env p).1, (e.recomputeOne env p).2)) e.placements).2,
      Sends c := by
    intro c hc
    obtain ⟨k, p, -, hp⟩ := (GoMap.mem_rangeUpdate_snd _ _ _ _).mp (mem_gfxCallsOf.mp hc)
    rcases calls_of_rerender (calls_of_recomputeOne hp) with rfl | rfl <;> trivial
  split
  · rw [List.append_assoc]
    exact .batch hsends .nil
  · -- without a backend there is no batch to open
    rw [List.nil_append, List.append_nil]
    refine batched_of_plain fun c hc => ?_
    have hc' := hsends c hc
    cases c <;> simp [Sends] at hc' ⊢

/-- Whatever the engine receives, its batches are balanced. -/
theorem batched_of_receive {hash128 : Data → Hash} {env : Env} {e e' : Engine} {input : Input}
    {out : List Action} (h : e.receive hash128 env input = some (e', out)) :
    Batched (gfxCallsOf out) := by
  -- deletions of rendered placements stand alone
  have hremove : ∀ c, Batched (gfxCallsOf (e.removeOwned env c).2) := by
    intro c
    refine batched_of_plain fun call hcall => ?_
    obtain ⟨k, p, -, hp⟩ := (GoMap.mem_rangeUpdate_snd _ _ _ _).mp (mem_gfxCallsOf.mp hcall)
    split at hp
    · rw [(calls_of_deleteRendered hp).1]
      simp
    · cases hp
  cases placementStep_of_receive h with
  | same _ _ _ _ _ _ _ _ _ _ _ hout =>
    refine batched_of_plain fun call hcall => ?_
    have htouches := hout call (mem_gfxCallsOf.mp hcall)
    cases call <;> simp [GfxCall.touchesImages] at htouches ⊢
  | place =>
    refine batched_of_plain fun call hcall => ?_
    rcases List.mem_append.mp (mem_gfxCallsOf.mp hcall) with hcall | hcall
    · unfold placeCalls at hcall
      split at hcall
      · obtain ⟨-, hcall⟩ := gfx_mem_gfxCalls.mp hcall
        obtain rfl := List.mem_singleton.mp hcall
        simp
      · cases hcall
    · simp at hcall
  | unplace =>
    refine batched_of_plain fun call hcall => ?_
    rw [(calls_of_deleteRendered (mem_gfxCallsOf.mp hcall)).1]
    simp
  | unplaceAll => exact hremove _
  | disconnect => exact hremove _
  | @recompute _ g notes _ hnotes =>
    rw [gfxCallsOf_append]
    refine (batched_recomputePlacements env g).append (batched_of_plain fun call hcall => ?_)
    exact absurd (mem_gfxCallsOf.mp hcall) (hnotes call)

end Engine

/-- All calls of a running engine, one after the other, have the shape of `stream`. -/
theorem World.batched_of_runs {hash128 : Data → Hash} {gfx notifier stopFunc inTmux : Bool}
    {maxSize : Int} {tr : List (Transition World Label)} {w : World}
    (h : Runs hash128 (Engine.new gfx notifier stopFunc inTmux maxSize) tr w) :
    TTYGraphics.Batched (tr.flatMap fun t => gfxCallsOf t.label.out) := by
  refine Run.historyInvariant (I := fun tr _ =>
    TTYGraphics.Batched (tr.flatMap fun t => gfxCallsOf t.label.out)) .nil ?_ h
  intro tr w l w' _ ih hs
  obtain ⟨env, hr, -⟩ := hs
  rw [List.flatMap_append, List.flatMap_singleton]
  exact ih.append (Engine.batched_of_receive hr)

end Kgd
