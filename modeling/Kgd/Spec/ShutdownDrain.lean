import Kgd.ForStd.Run
import Kgd.Daemon.Shutdown

/-!
# Which cleanup commands reach the terminal

The writer outlives the engine: its context is cancelled only after the engine has exited.
It does not drain: once its context is cancelled, its `select` may take `ctx.Done` with
buffers still queued. `Goroutines.drained_iff` says that this choice is the only way a buffer
is lost.

## Key results

- `Goroutines.Ordered`: the shutdown order, kept by every step (`Goroutines.ordered_of_run`)
- `Goroutines.drained_iff`
- `Goroutines.drained_fails`: a queued cleanup buffer that is never written
-/

namespace Kgd

namespace Goroutines

variable {B : Type} {s s' : Goroutines B} {a : Action B} {buf : B}

/-! ## What a step does -/

/-- What a step does to the `Writes` channel, the writer and its context. -/
inductive Effect (s s' : Goroutines B) : Action B → Prop
  | sends {a : Action B} (buf : B) (ha : a ≠ .writerDone) (hrunning : s.engine ≠ .exited)
      (hwrites : s'.writes = s.writes ++ [buf]) (hsent : s'.sent = s.sent ++ [buf])
      (hwritten : s'.written = s.written) (hwriter : s'.writer = s.writer)
      (hctx : s'.writerCtxDone = s.writerCtxDone) : Effect s s' a
  | writes {a : Action B} (buf : B) (ha : a ≠ .writerDone) (hloop : s.writer = .loop)
      (hwrites : s.writes = buf :: s'.writes) (hsent : s'.sent = s.sent)
      (hwritten : s'.written = s.written ++ [buf]) (hwriter : s'.writer = s.writer)
      (hengine : s'.engine = s.engine) (hctx : s'.writerCtxDone = s.writerCtxDone) :
      Effect s s' a
  | returns (hloop : s.writer = .loop) (hdone : s.writerCtxDone = true)
      (heq : s' = { s with writer := .returned }) : Effect s s' .writerDone
  | keeps {a : Action B} (ha : a ≠ .writerDone) (hwrites : s'.writes = s.writes)
      (hsent : s'.sent = s.sent) (hwritten : s'.written = s.written)
      (hwriter : s'.writer = .returned → s.writer = .returned)
      (hengine : s.engine = .exited → s'.engine = .exited)
      (hctx : s.writerCtxDone = true → s'.writerCtxDone = true)
      (hwaited : s'.writerCtxDone = true → s.writerCtxDone = true ∨ s.engine = .exited) :
      Effect s s' a

/-- A send enters the channel and is remembered as sent. -/
theorem send_eq_some (h : s.send buf = some s') :
    s' = { s with writes := s.writes ++ [buf], sent := s.sent ++ [buf] } := by
  simp only [send, Option.ite_none_right_eq_some, Option.some.injEq] at h
  exact h.2.symm

/-- Every step sends one buffer, writes one, or leaves the channel alone. -/
theorem effect_of_step (h : Step s a s') : Effect s s' a := by
  cases a with
  | cancel | sigwinch =>
    simp only [Step, next, Option.some.injEq] at h
    subst h
    exact .keeps nofun rfl rfl rfl id id id Or.inl
  | engineSend buf =>
    simp only [Step, next, Option.ite_none_right_eq_some] at h
    obtain ⟨hloop, h⟩ := h
    obtain rfl := send_eq_some h
    have hrunning : s.engine ≠ .exited := by rw [hloop]; exact nofun
    exact .sends buf nofun hrunning rfl rfl rfl rfl rfl
  | cleanupSend =>
    simp only [Step, next] at h
    split at h
    · rename_i buf bufs hcleanup _
      obtain rfl := send_eq_some h
      have hrunning : s.engine ≠ .exited := by rw [hcleanup]; exact nofun
      exact .sends buf nofun hrunning rfl rfl rfl rfl rfl
    · exact nomatch h
  | engineDone bufs =>
    simp only [Step, next, Option.ite_none_right_eq_some, Option.some.injEq] at h
    obtain ⟨⟨hloop, -⟩, rfl⟩ := h
    have hrunning : s.engine ≠ .exited := by rw [hloop]; exact nofun
    exact .keeps nofun rfl rfl rfl id (fun hexit => absurd hexit hrunning) id Or.inl
  | engineExit =>
    simp only [Step, next, Option.ite_none_right_eq_some, Option.some.injEq] at h
    obtain ⟨-, rfl⟩ := h
    exact .keeps nofun rfl rfl rfl id (fun _ => rfl) id Or.inl
  | watcherExit | serverReturn | mainReturn | writerResize =>
    simp only [Step, next, Option.ite_none_right_eq_some, Option.some.injEq] at h
    obtain ⟨-, rfl⟩ := h
    exact .keeps nofun rfl rfl rfl id id id Or.inl
  | writerCancel =>
    -- `engineWg.Wait` has returned, so the engine is gone
    simp only [Step, next, Option.ite_none_right_eq_some, Option.some.injEq] at h
    obtain ⟨⟨-, hexit, -⟩, rfl⟩ := h
    exact .keeps nofun rfl rfl rfl id id (fun _ => rfl) fun _ => Or.inr hexit
  | writerStart =>
    simp only [Step, next, Option.ite_none_right_eq_some, Option.some.injEq] at h
    obtain ⟨-, rfl⟩ := h
    exact .keeps nofun rfl rfl rfl nofun id id Or.inl
  | writerDone =>
    simp only [Step, next, Option.ite_none_right_eq_some, Option.some.injEq] at h
    obtain ⟨⟨hloop, hdone⟩, rfl⟩ := h
    exact .returns hloop hdone rfl
  | writerWrite =>
    simp only [Step, next] at h
    split at h
    · rename_i buf bufs hloop hwrites
      simp only [Option.some.injEq] at h
      subst h
      exact .writes buf nofun hloop hwrites rfl rfl rfl rfl rfl
    · exact nomatch h

/-! ## The shutdown order -/

/-- What the waits of `Daemon.Run` guarantee, and the contents of the channel. -/
structure Ordered (s : Goroutines B) : Prop where
  /-- a sent buffer is written or queued, in the order of the sends -/
  sent_eq : s.sent = s.written ++ s.writes
  /-- the writer's context is cancelled after the engine's exit -/
  exited : s.writerCtxDone = true → s.engine = .exited
  /-- the writer returns on its context only -/
  cancelled : s.writer = .returned → s.writerCtxDone = true

theorem ordered_init (inTmux : Bool) : Ordered (init B inTmux) := by
  constructor <;> simp [init]

/-- Every step keeps the order of the shutdown. -/
theorem ordered_step (hs : Ordered s) (h : Step s a s') : Ordered s' := by
  cases effect_of_step h with
  | sends buf ha hrunning hwrites hsent hwritten hwriter hctx =>
    -- a running engine means that the writer is not cancelled yet
    have hnot : s'.writerCtxDone ≠ true := fun hdone => hrunning (hs.exited (hctx ▸ hdone))
    constructor
    · rw [hsent, hwritten, hwrites, hs.sent_eq, List.append_assoc]
    · exact fun hdone => absurd hdone hnot
    · intro hreturned
      rw [hctx]
      exact hs.cancelled (hwriter ▸ hreturned)
  | writes buf ha hloop hwrites hsent hwritten hwriter hengine hctx =>
    constructor
    · rw [hsent, hwritten, hs.sent_eq, hwrites]; simp
    · rw [hctx, hengine]; exact hs.exited
    · rw [hwriter, hctx]; exact hs.cancelled
  | returns hloop hdone heq =>
    subst heq
    exact ⟨hs.sent_eq, hs.exited, fun _ => hdone⟩
  | keeps ha hwrites hsent hwritten hwriter hengine hctx hwaited =>
    constructor
    · rw [hsent, hwritten, hwrites, hs.sent_eq]
    · exact fun hdone => hengine ((hwaited hdone).elim hs.exited id)
    · exact fun hreturned => hctx (hs.cancelled (hwriter hreturned))

theorem ordered_of_run {inTmux : Bool} {tr : List (Transition (Goroutines B) (Action B))}
    (h : Run Step (init B inTmux) tr s) : Ordered s :=
  h.invariant (ordered_init inTmux) fun _ _ _ => ordered_step

/-- The TTY writer outlives the engine. -/
theorem Ordered.exited_of_returned (hs : Ordered s) (h : s.writer = .returned) :
    s.engine = .exited :=
  hs.exited (hs.cancelled h)

/-! ## Lost buffers -/

/-- When the writer has returned, everything the engine sent is written. -/
def Drained (s : Goroutines B) : Prop := s.writer = .returned → s.written = s.sent

/-- The writer does not return with a buffer queued. -/
def ReturnsDrained (s : Goroutines B) (a : Action B) : Prop := a = .writerDone → s.writes = []

theorem drained_init (inTmux : Bool) : Drained (init B inTmux) := by
  intro hreturned
  exact nomatch (hreturned : WriterPoint.starting = .returned)

/-- A step keeps every sent buffer written exactly if the writer does not return with one queued. -/
theorem drained_step (hs : Ordered s) (hdrained : Drained s) (h : Step s a s') :
    Drained s' ↔ ReturnsDrained s a := by
  cases effect_of_step h with
  | sends buf ha hrunning hwrites hsent hwritten hwriter hctx =>
    -- the engine still runs, so the writer has not returned
    have hnot : s'.writer ≠ .returned := by
      intro hreturned
      exact hrunning (hs.exited_of_returned (hwriter ▸ hreturned))
    exact iff_of_true (fun hreturned => absurd hreturned hnot) fun hdone => absurd hdone ha
  | writes buf ha hloop hwrites hsent hwritten hwriter hengine hctx =>
    have hnot : s'.writer ≠ .returned := by rw [hwriter, hloop]; exact nofun
    exact iff_of_true (fun hreturned => absurd hreturned hnot) fun hdone => absurd hdone ha
  | returns hloop hdone heq =>
    -- the writer returns here: what is queued is what is lost
    subst heq
    have hsent := hs.sent_eq
    constructor
    · intro hall _
      have heq : s.written = s.sent := hall rfl
      rw [heq] at hsent
      exact List.self_eq_append_right.mp hsent
    · intro hempty _
      show s.written = s.sent
      rw [hsent, hempty rfl, List.append_nil]
  | keeps ha hwrites hsent hwritten hwriter =>
    refine iff_of_true (fun hreturned => ?_) fun hdone => absurd hdone ha
    rw [hsent, hwritten]
    exact hdrained (hwriter hreturned)

/-- In every interleaving, every sent buffer is written before the writer returns exactly when
    the writer's `select` does not take `ctx.Done` while a buffer is queued. -/
theorem drained_iff {inTmux : Bool} {tr : List (Transition (Goroutines B) (Action B))}
    (h : Run Step (init B inTmux) tr s) :
    (∀ t ∈ tr, Drained t.post) ↔ ∀ t ∈ tr, ReturnsDrained t.pre t.label :=
  h.forall_post_iff (drained_init inTmux) fun _ _ _ _ hrun hdrained hs =>
    drained_step (ordered_of_run hrun) hdrained hs

/-- A shutdown up to the cancellation of the writer, with one cleanup buffer. -/
def shutdownActions : List (Action String) :=
  [.writerStart, .cancel, .engineDone ["delete"], .cleanupSend, .engineExit, .serverReturn,
    .writerCancel]

/-- A shutdown in which the cleanup buffer is written. -/
theorem drained_iff_written :
    ∃ tr s, Run Step (init String false) tr s ∧
      ((∀ t ∈ tr, Drained t.post) ↔ ∀ t ∈ tr, ReturnsDrained t.pre t.label) := by
  have hrun := Run.of_follow next (init String false)
    (List.append shutdownActions [.writerWrite, .writerDone]) (by decide)
  exact ⟨_, _, hrun, drained_iff hrun⟩

/-- The writer's `select` takes `ctx.Done` although the cleanup buffer is queued. -/
theorem drained_fails :
    ∃ tr s, Run Step (init String false) tr s ∧ ∃ t ∈ tr, ¬ Drained t.post := by
  have hrun := Run.of_follow next (init String false) (List.append shutdownActions [.writerDone])
    (by decide)
  refine ⟨_, _, hrun, ?_⟩
  unfold Drained
  decide

end Goroutines

end Kgd
