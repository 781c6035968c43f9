import Kgd.ForStd.Run
import Kgd.Spec.Replies

/-!
# Calls are answered, also at shutdown

The event of a request is in one place at a time: in the channel, with a handler, or with
`drain`. Its reply is made there, and sent on the reply channel, which has room for it. Counted
together as the tokens of the call, these places hold nothing before the event is sent and one
thing from then on.

## Key results

- `Calls.tokens_step`: only the step that sends the event adds a token, and for a request none is
  lost
- `Calls.nobody_waits`: what follows for runs of callers and engine
-/

namespace Kgd

/-- The replies sent on the channel of a call: what the call has received, what it has not. -/
def Call.replies (k : Call) : List Answer :=
  match k.point with
  | .returned (.answered a) => a :: k.reply.toList
  | _ => k.reply.toList

/-- A reply that is delivered is one more reply of the call. -/
theorem Call.replies_deliver {k : Call} {a : Answer} (hk : k.reply = none) :
    { k with reply := some a }.replies = k.replies ++ [a] := by
  simp only [Call.replies, hk]
  split <;> rfl

namespace Calls

/-! ## What a step does -/

/-- The steps, with what each finds and changes. -/
inductive Moves (hash128 : Data → Hash) (s : Calls) : Action → Calls → Prop
  | call (ev) : Moves hash128 s (.call ev) { s with calls := s.calls ++ [⟨ev, .sending, none⟩] }
  | send {c ev reply} (hc : s.calls[c]? = some ⟨ev, .sending, reply⟩)
      (hroom : s.events.length < eventsCap) :
      Moves hash128 s (.send c) ({ s with events := s.events ++ [c] }.modify c
        ({ · with point := if ev.replyKind?.isSome then .waiting else .returned .sent }))
  | sendStopped {c ev reply} (hclosed : s.point = .closed)
      (hc : s.calls[c]? = some ⟨ev, .sending, reply⟩) :
      Moves hash128 s (.sendStopped c) (s.modify c ({ · with point := .returned .stopped }))
  | receive {c ev a} (hc : s.calls[c]? = some ⟨ev, .waiting, some a⟩) :
      Moves hash128 s (.receive c)
        (s.modify c ({ · with point := .returned (.answered a), reply := none }))
  | receiveStopped {c ev reply} (hclosed : s.point = .closed)
      (hc : s.calls[c]? = some ⟨ev, .waiting, reply⟩) :
      Moves hash128 s (.receiveStopped c) (s.modify c ({ · with point := .returned .stopped }))
  | cancel : Moves hash128 s .cancel { s with ctxDone := true }
  | size {env sz engine} (hp : s.point = .select) :
      Moves hash128 s (.size env sz) { s with engine }
  | colors {colors engine} (hp : s.point = .select) :
      Moves hash128 s (.colors colors) { s with engine }
  | take {env c events k engine out ctxDone} (hp : s.point = .select) (he : s.events = c :: events)
      (hc : s.calls[c]? = some k)
      (hhandle : s.engine.handle hash128 env k.event = some (engine, out)) :
      Moves hash128 s (.take env)
        { s with engine, events, point := .handling c (answers out), ctxDone }
  | loop {env c events k} (hp : s.point = .select) (he : s.events = c :: events)
      (hc : s.calls[c]? = some k) (hhandle : s.engine.handle hash128 env k.event = none) :
      Moves hash128 s (.take env) { s with events, point := .looping c }
  | reply {c k a pending} (hp : s.point = .handling c (a :: pending))
      (hc : s.calls[c]? = some k) (hk : k.reply = none) :
      Moves hash128 s .reply
        ({ s with point := .handling c pending }.modify c ({ · with reply := some a }))
  | drainReply {c k a} (hp : s.point = .draining c a) (hc : s.calls[c]? = some k)
      (hk : k.reply = none) :
      Moves hash128 s .reply ({ s with point := .drain }.modify c ({ · with reply := some a }))
  | handled {c} (hp : s.point = .handling c []) :
      Moves hash128 s .handled { s with point := .select }
  | stop (hp : s.point = .select) (hctx : s.ctxDone = true) :
      Moves hash128 s .stop { s with point := .cleanup }
  | cleaned (hp : s.point = .cleanup) : Moves hash128 s .cleaned { s with point := .drain }
  | drainTake {c events k a} (hp : s.point = .drain) (he : s.events = c :: events)
      (hc : s.calls[c]? = some k) (ha : k.event.drainAnswer = some a) :
      Moves hash128 s .drainTake { s with events, point := .draining c a }
  | drainDrop {c events k} (hp : s.point = .drain) (he : s.events = c :: events)
      (hc : s.calls[c]? = some k) (ha : k.event.drainAnswer = none) :
      Moves hash128 s .drainTake { s with events }
  | drainDefault (hp : s.point = .drain) (he : s.events = []) :
      Moves hash128 s .drainDefault { s with point := .drained }
  | close (hp : s.point = .drained) : Moves hash128 s .close { s with point := .closed }

variable {hash128 : Data → Hash} {s s' : Calls} {a : Action} {c : CallRef}

/-- A reply is delivered to a call that has no reply in its channel. -/
theorem deliver_eq_some {a : Answer} (h : s.deliver c a = some s') :
    ∃ k, s.calls[c]? = some k ∧ k.reply = none ∧
      s' = s.modify c ({ · with reply := some a }) := by
  unfold deliver at h
  split at h
  · rename_i k hc
    split at h
    · rename_i hk
      exact ⟨k, hc, Option.isNone_iff_eq_none.mp hk, (Option.some.inj h).symm⟩
    · exact nomatch h
  · exact nomatch h

/-- Every step is one of the moves, with its guard. -/
theorem moves_of_step (h : Step hash128 s a s') : Moves hash128 s a s' := by
  unfold Step at h
  cases a with
  | call ev => cases h; exact .call ev
  | send c =>
    simp only [next] at h
    split at h
    · rename_i hc
      split at h
      · rename_i hroom
        cases h
        exact .send hc hroom
      · exact nomatch h
    · exact nomatch h
  | sendStopped c =>
    simp only [next] at h
    split at h
    · cases h
      exact .sendStopped ‹_› ‹_›
    · exact nomatch h
  | receive c =>
    simp only [next] at h
    split at h
    · cases h
      exact .receive ‹_›
    · exact nomatch h
  | receiveStopped c =>
    simp only [next] at h
    split at h
    · cases h
      exact .receiveStopped ‹_› ‹_›
    · exact nomatch h
  | cancel => cases h; exact .cancel
  | size env sz =>
    simp only [next] at h
    split at h
    · cases h
      exact .size ‹_›
    · exact nomatch h
  | colors colors =>
    simp only [next] at h
    split at h
    · cases h
      exact .colors ‹_›
    · exact nomatch h
  | take env =>
    simp only [next] at h
    split at h
    · rename_i c events hp he
      obtain ⟨k, hc, hk⟩ := Option.map_eq_some_iff.mp h
      split at hk
      -- the handler returns, or the search for a free handle goes on for ever
      · rename_i engine out hhandle
        subst hk
        exact .take hp he hc hhandle
      · rename_i hhandle
        subst hk
        exact .loop hp he hc hhandle
    · exact nomatch h
  | reply =>
    simp only [next] at h
    split at h
    · rename_i c a pending hp
      obtain ⟨k, hc, hk, rfl⟩ := deliver_eq_some h
      exact .reply hp hc hk
    · rename_i c a hp
      obtain ⟨k, hc, hk, rfl⟩ := deliver_eq_some h
      exact .drainReply hp hc hk
    · exact nomatch h
  | handled =>
    simp only [next] at h
    split at h
    · cases h
      exact .handled ‹_›
    · exact nomatch h
  | stop =>
    simp only [next] at h
    split at h
    · split at h
      · cases h
        exact .stop ‹_› ‹_›
      · exact nomatch h
    · exact nomatch h
  | cleaned =>
    simp only [next] at h
    split at h
    · cases h
      exact .cleaned ‹_›
    · exact nomatch h
  | drainTake =>
    simp only [next] at h
    split at h
    · rename_i c events hp he
      obtain ⟨k, hc, hk⟩ := Option.map_eq_some_iff.mp h
      split at hk
      · rename_i a ha
        subst hk
        exact .drainTake hp he hc ha
      · rename_i ha
        subst hk
        exact .drainDrop hp he hc ha
    · exact nomatch h
  | drainDefault =>
    simp only [next] at h
    split at h
    · cases h
      exact .drainDefault ‹_› ‹_›
    · exact nomatch h
  | close =>
    simp only [next] at h
    split at h
    · cases h
      exact .close ‹_›
    · exact nomatch h

@[simp] theorem calls_modify (s : Calls) (c : CallRef) (f : Call → Call) :
    (s.modify c f).calls = s.calls.modify c f := rfl

/-- Modifying a call leaves the others. -/
theorem getElem?_modify {calls : List Call} {k : Call} (hc : calls[c]? = some k) (f : Call → Call)
    (c' : CallRef) : (calls.modify c f)[c']? = if c = c' then some (f k) else calls[c']? := by
  simp only [List.getElem?_modify]
  split
  · rename_i heq
    subst heq
    rw [hc]
    rfl
  · simp

/-- A call keeps its event, and it does not go back to sending. -/
theorem call_step {k : Call} (h : Step hash128 s a s') (hc : s.calls[c]? = some k) :
    ∃ k', s'.calls[c]? = some k' ∧ k'.event = k.event ∧
      (k'.point = .sending → k.point = .sending) := by
  -- one call changes, and only in its point or its channel
  have hmodify {c' k'} (f : Call → Call) (hc' : s.calls[c']? = some k')
      (hf : (f k').event = k'.event) (hpoint : (f k').point = .sending → k'.point = .sending) :
      ∃ k'', (s.calls.modify c' f)[c]? = some k'' ∧ k''.event = k.event ∧
        (k''.point = .sending → k.point = .sending) := by
    rw [getElem?_modify hc' f c]
    split
    · rename_i heq
      obtain rfl : k' = k := Option.some.inj (hc'.symm.trans (heq ▸ hc))
      exact ⟨f k', rfl, hf, hpoint⟩
    · exact ⟨k, hc, rfl, id⟩
  cases moves_of_step h with
  | call ev =>
    obtain ⟨hlt, -⟩ := List.getElem?_eq_some_iff.mp hc
    exact ⟨k, by rw [List.getElem?_append_left hlt]; exact hc, rfl, id⟩
  | send hc' _ => exact hmodify _ hc' rfl (fun _ => rfl)
  | sendStopped _ hc' | receiveStopped _ hc' => exact hmodify _ hc' rfl nofun
  | receive hc' => exact hmodify _ hc' rfl nofun
  | reply _ hc' _ | drainReply _ hc' _ => exact hmodify _ hc' rfl id
  | cancel | size | colors | take | loop | handled | stop | cleaned | drainTake | drainDrop
  | drainDefault | close => exact ⟨k, hc, rfl, id⟩

/-- The call has sent nothing: there is no such call yet, or it is in its first select. -/
def Unsent (s : Calls) (c : CallRef) : Prop :=
  ∀ k, s.calls[c]? = some k → k.point = .sending

/-- What is unsent after a step was unsent before it. -/
theorem unsent_of_step (h : Step hash128 s a s') (hs' : s'.Unsent c) : s.Unsent c := by
  intro k hk
  obtain ⟨k', hk', -, hpoint⟩ := call_step h hk
  exact hpoint (hs' k' hk')

/-- A send is of a call that was in its first select, and is not any more. -/
theorem unsent_of_send (h : Step hash128 s (.send c) s') : s.Unsent c ∧ ¬ s'.Unsent c := by
  cases moves_of_step h with
  | send hc _ =>
    constructor
    · intro k hk
      obtain rfl := Option.some.inj (hc.symm.trans hk)
      rfl
    · intro hs'
      -- it waits for its reply, or has returned
      have hpoint := hs' _ (by rw [calls_modify, getElem?_modify hc, if_pos rfl])
      simp only at hpoint
      split at hpoint <;> exact nomatch hpoint

/-! ## Replies of a call -/

/-- The replies that have been sent on the channel of a call. -/
def received (calls : List Call) (c : CallRef) : List Answer :=
  match calls[c]? with
  | some k => k.replies
  | none => []

/-- The replies to a call that the engine's goroutine has yet to send. -/
def owed (s : Calls) (c : CallRef) : List Answer :=
  match s.point with
  | .handling c' pending => if c' = c then pending else []
  | .draining c' a => if c' = c then [a] else []
  | _ => []

/-- What a step sends on the channel of a call. -/
def delivered (c : CallRef) (t : Transition Calls Action) : List Answer :=
  match t.label, t.pre.point with
  | .reply, .handling c' (a :: _) => if c' = c then [a] else []
  | .reply, .draining c' a => if c' = c then [a] else []
  | _, _ => []

/-- The replies that `handle` or `drain` makes for the event of a call, in a step that takes it. -/
def produced (hash128 : Data → Hash) (c : CallRef) (t : Transition Calls Action) : List Answer :=
  if t.pre.events.head? = some c then
    match t.label, t.pre.calls[c]? with
    | .take env, some k =>
      match t.pre.engine.handle hash128 env k.event with
      | some (_, out) => answers out
      | none => []
    | .drainTake, some k => k.event.drainAnswer.toList
    | _, _ => []
  else []

/-- One call gets some more replies. -/
theorem received_modify {calls : List Call} {k : Call} {more : List Answer} (f : Call → Call)
    (hc : calls[c]? = some k) (hf : (f k).replies = k.replies ++ more) (c' : CallRef) :
    received (calls.modify c f) c' = received calls c' ++ if c = c' then more else [] := by
  simp only [received, getElem?_modify hc]
  by_cases heq : c = c'
  · subst heq
    simp only [if_true, hc]
    exact hf
  · rw [if_neg heq, if_neg heq, List.append_nil]

/-- A step adds to the replies of a call what it delivers to it. -/
theorem received_step (h : Step hash128 s a s') (c : CallRef) :
    received s'.calls c = received s.calls c ++ delivered c ⟨s, a, s'⟩ := by
  cases moves_of_step h with
  | call ev =>
    -- an old call, the new one, or none
    simp only [received, delivered, List.append_nil]
    rcases Nat.lt_trichotomy c s.calls.length with hlt | heq | hgt
    · rw [List.getElem?_append_left hlt]
    · subst heq
      simp [Call.replies]
    · rw [List.getElem?_eq_none (by simp; omega), List.getElem?_eq_none (by omega)]
  | @send _ ev reply hc' _ =>
    have hf : Call.replies ⟨ev, if ev.replyKind?.isSome then .waiting else .returned .sent, reply⟩ =
        Call.replies ⟨ev, .sending, reply⟩ ++ [] := by
      split <;> simp [Call.replies]
    rw [calls_modify, received_modify _ hc' hf]
    simp only [delivered, ite_self]
  | sendStopped _ hc' | receiveStopped _ hc' =>
    rw [calls_modify, received_modify _ hc' (List.append_nil _).symm]
    simp only [delivered, ite_self]
  | receive hc' =>
    -- the reply moves from the channel to the caller
    rw [calls_modify, received_modify _ hc' (List.append_nil _).symm]
    simp only [delivered, ite_self]
  | reply hp hc' hk | drainReply hp hc' hk =>
    rw [calls_modify, received_modify _ hc' (Call.replies_deliver hk)]
    simp only [delivered, hp]
  | cancel | size | colors | take | loop | handled | stop | cleaned | drainTake | drainDrop
  | drainDefault | close => simp only [delivered, List.append_nil]

/-- What is made for a call is owed to it until it is sent. -/
theorem owed_step (h : Step hash128 s a s') (c : CallRef) :
    delivered c ⟨s, a, s'⟩ ++ s'.owed c = s.owed c ++ produced hash128 c ⟨s, a, s'⟩ := by
  cases moves_of_step h with
  | @take env c' events k engine out ctxDone hp he hc' hhandle =>
    by_cases heq : c' = c
    · subst heq
      simp [delivered, produced, owed, hp, he, hc', hhandle]
    · simp [delivered, produced, owed, hp, he, heq]
  | @loop env c' events k hp he hc' hhandle =>
    -- a handler that does not return makes no reply
    by_cases heq : c' = c
    · subst heq
      simp [delivered, produced, owed, hp, he, hc', hhandle]
    · simp [delivered, produced, owed, hp, he, heq]
  | @reply c' k a pending hp hc' hk =>
    by_cases heq : c' = c <;> simp [delivered, produced, owed, modify, hp, heq]
  | @drainReply c' k a hp hc' hk =>
    by_cases heq : c' = c <;> simp [delivered, produced, owed, modify, hp, heq]
  | @drainTake c' events k a hp he hc' ha | @drainDrop c' events k hp he hc' ha =>
    by_cases heq : c' = c
    · subst heq
      simp [delivered, produced, owed, hp, he, hc', ha]
    · simp [delivered, produced, owed, hp, he, heq]
  | call | send | sendStopped | receive | receiveStopped | cancel =>
    simp [delivered, produced, owed, modify]
  | size hp | colors hp | handled hp | stop hp | cleaned hp | drainDefault hp | close hp =>
    simp [delivered, produced, owed, hp]

/-! ## What a call waits for -/

/-- The event of a call in the channel, or in the hands of a handler that does not return. -/
def queued (s : Calls) (c : CallRef) : Nat :=
  s.events.count c +
    match s.point with
    | .looping c' => if c' = c then 1 else 0
    | _ => 0

/-- 1 for the step in which the call sends its event. -/
def sends (c : CallRef) : Action → Nat
  | .send c' => if c' = c then 1 else 0
  | _ => 0

/-- The call is one of `sendAndWait`. -/
def Request (s : Calls) (c : CallRef) : Prop :=
  ∃ k, s.calls[c]? = some k ∧ k.event.replyKind?.isSome = true

/-- An event stays in the channel until a reply to it is made. Without a reply channel it goes
    without one. -/
theorem queued_step (h : Step hash128 s a s') (c : CallRef) :
    s'.queued c + (produced hash128 c ⟨s, a, s'⟩).length ≤ s.queued c + sends c a ∧
      (s.Request c →
        s'.queued c + (produced hash128 c ⟨s, a, s'⟩).length = s.queued c + sends c a) := by
  have hrequest {k} (hc : s.calls[c]? = some k) (hreq : s.Request c) :
      k.event.replyKind?.isSome = true := by
    obtain ⟨k', hk', hkind⟩ := hreq
    obtain rfl := Option.some.inj (hc.symm.trans hk')
    exact hkind
  cases moves_of_step h with
  | @send c' ev reply hc' _ =>
    simp only [queued, produced, sends, modify, List.count_append, List.count_singleton, beq_iff_eq]
    split <;> simp
    omega
  | @take env c' events k engine out ctxDone hp he hc' hhandle =>
    -- a reply for each request that is taken, and none for other events
    have hlen := congrArg List.length (Engine.answers_handle hhandle)
    rw [List.length_map] at hlen
    simp only [queued, produced, sends, hp, he, List.head?_cons, Option.some.injEq,
      List.count_cons, beq_iff_eq]
    by_cases heq : c' = c
    · subst heq
      simp only [if_true, hc', hhandle, hlen]
      have hle : k.event.replyKind?.toList.length ≤ 1 := Option.length_toList_le
      refine ⟨by omega, fun hreq => ?_⟩
      have hone := Option.length_toList_eq_one_iff.mpr (hrequest hc' hreq)
      omega
    · simp [heq]
  | @loop env c' events k hp he hc' hhandle =>
    simp only [queued, produced, sends, hp, he, List.head?_cons, Option.some.injEq,
      List.count_cons, beq_iff_eq]
    by_cases heq : c' = c
    · subst heq
      simp [hc', hhandle]
    · simp [heq]
  | @drainTake c' events k a hp he hc' ha =>
    simp only [queued, produced, sends, hp, he, List.head?_cons, Option.some.injEq,
      List.count_cons, beq_iff_eq]
    by_cases heq : c' = c
    · subst heq
      simp [hc', ha]
    · simp [heq]
  | @drainDrop c' events k hp he hc' ha =>
    simp only [queued, produced, sends, hp, he, List.head?_cons, Option.some.injEq,
      List.count_cons, beq_iff_eq]
    by_cases heq : c' = c
    · subst heq
      -- only an event without a reply channel is dropped
      have hkind : k.event.replyKind? = none := by
        rw [← Engine.drainAnswer_kind, ha]
        rfl
      simp only [if_true, hc', ha]
      refine ⟨by simp, fun hreq => ?_⟩
      have hsome := hrequest hc' hreq
      rw [hkind] at hsome
      exact nomatch hsome
    · simp [heq]
  | call | sendStopped | receive | receiveStopped | cancel =>
    simp [queued, produced, sends, modify]
  | size hp | colors hp | handled hp | stop hp | cleaned hp | drainDefault hp | close hp
  | reply hp | drainReply hp =>
    simp [queued, produced, sends, modify, hp]

/-! ## Invariants -/

/-- What the call has sent and not yet got a reply for, and the replies. -/
def tokens (s : Calls) (c : CallRef) : Nat :=
  s.queued c + (s.owed c).length + (received s.calls c).length

/-- A step makes no tokens but by sending, and loses none of a request. -/
theorem tokens_step (h : Step hash128 s a s') (c : CallRef) :
    s'.tokens c ≤ s.tokens c + sends c a ∧
      (s.Request c → s'.tokens c = s.tokens c + sends c a) := by
  obtain ⟨hle, heq⟩ := queued_step h c
  have howed := congrArg List.length (owed_step h c)
  have hreceived := congrArg List.length (received_step h c)
  simp only [List.length_append] at howed hreceived
  unfold tokens
  exact ⟨by omega, fun hreq => by have := heq hreq; omega⟩

/-- A call that has sent its event does not send again. -/
theorem sends_of_not_unsent (h : Step hash128 s a s') (hs : ¬ s.Unsent c) : sends c a = 0 := by
  unfold sends
  split
  · rw [if_neg]
    rintro rfl
    exact hs (unsent_of_send h).1
  · rfl

/-- A call has one event underway or one reply, and none before it sends. -/
theorem tokens_le {engine : Engine} {tr : List (Transition Calls Action)}
    (h : Run (Step hash128) (new engine) tr s) (c : CallRef) :
    s.tokens c ≤ 1 ∧ (s.Unsent c → s.tokens c = 0) := by
  refine Run.invariant (I := fun s => s.tokens c ≤ 1 ∧ (s.Unsent c → s.tokens c = 0)) ?_ ?_ h
  · have hnew : (new engine).tokens c = 0 := by
      simp [tokens, queued, owed, received, new]
    exact ⟨by omega, fun _ => hnew⟩
  · intro s a s' hinv hstep
    obtain ⟨hle, hzero⟩ := hinv
    obtain ⟨hstepLe, -⟩ := tokens_step hstep c
    by_cases hs : s.Unsent c
    · -- the call may send in this step, and is no longer unsent then
      have := hzero hs
      by_cases hsend : a = .send c
      · subst hsend
        have hone : sends c (.send c) = 1 := if_pos rfl
        exact ⟨by omega, fun hs' => absurd hs' (unsent_of_send hstep).2⟩
      · have hnone : sends c a = 0 := by
          unfold sends
          split
          · exact if_neg fun heq => hsend (by rw [heq])
          · rfl
        exact ⟨by omega, fun _ => by omega⟩
    · have := sends_of_not_unsent hstep hs
      exact ⟨by omega, fun hs' => absurd (unsent_of_step hstep hs') hs⟩

/-- The values sent on the channel of a call in a run. -/
theorem flatMap_delivered {engine : Engine} {tr : List (Transition Calls Action)}
    (h : Run (Step hash128) (new engine) tr s) (c : CallRef) :
    tr.flatMap (delivered c) = received s.calls c := by
  induction h with
  | nil => simp [received, new]
  | snoc _ hstep ih => rw [List.flatMap_append, ih, List.flatMap_singleton, received_step hstep]

/-- The replies made to a call in a run have been sent or are yet to be. -/
theorem flatMap_produced {engine : Engine} {tr : List (Transition Calls Action)}
    (h : Run (Step hash128) (new engine) tr s) (c : CallRef) :
    tr.flatMap (produced hash128 c) = received s.calls c ++ s.owed c := by
  induction h with
  | nil => simp [received, owed, new]
  | snoc _ hstep ih =>
    rw [List.flatMap_append, ih, List.flatMap_singleton, received_step hstep, List.append_assoc,
      List.append_assoc, owed_step hstep]

/-- `drain` has found the channel empty. -/
def Drained (s : Calls) : Prop :=
  s.point = .drained ∨ s.point = .closed

/-- A request whose event was sent before `drain` found the channel empty. -/
structure Accepted (s : Calls) (c : CallRef) : Prop where
  request : s.Request c
  sent : ¬ s.Unsent c
  token : s.tokens c = 1
  drained : s.Drained → c ∉ s.events

/-- A request stays one. -/
theorem request_step (h : Step hash128 s a s') (hs : s.Request c) : s'.Request c := by
  obtain ⟨k, hk, hkind⟩ := hs
  obtain ⟨k', hk', hevent, -⟩ := call_step h hk
  exact ⟨k', hk', by rw [hevent]; exact hkind⟩

/-- A send before `drain` has found the channel empty is accepted. -/
theorem accepted_of_send {engine : Engine} {tr : List (Transition Calls Action)}
    (hrun : Run (Step hash128) (new engine) tr s) (h : Step hash128 s (.send c) s')
    (hreq : s.Request c) (hs : ¬ s.Drained) : s'.Accepted c := by
  obtain ⟨hunsent, hsent⟩ := unsent_of_send h
  -- no token before, and this step makes one
  have hzero := (tokens_le hrun c).2 hunsent
  have htoken := (tokens_step h c).2 hreq
  have hone : sends c (.send c) = 1 := if_pos rfl
  have hpoint : s'.point = s.point := by
    cases moves_of_step h
    rfl
  refine ⟨request_step h hreq, hsent, by omega, fun hs' => absurd hs' ?_⟩
  unfold Drained at hs ⊢
  rwa [hpoint]

/-- What is accepted stays so. -/
theorem accepted_step (h : Step hash128 s a s') (hs : s.Accepted c) : s'.Accepted c := by
  obtain ⟨hreq, hsent, htoken, hdrained⟩ := hs
  refine ⟨request_step h hreq, fun hs' => hsent (unsent_of_step h hs'), ?_, fun hs' => ?_⟩
  · rw [(tokens_step h c).2 hreq, htoken, sends_of_not_unsent h hsent]
  cases moves_of_step h with
  | @send c' =>
    simp only [modify, List.mem_append, List.mem_singleton, not_or]
    refine ⟨hdrained hs', fun heq => hsent ?_⟩
    exact heq ▸ (unsent_of_send h).1
  -- the drain ends on an empty channel
  | drainDefault hp he => simp [he]
  | call | sendStopped | receive | receiveStopped | cancel => exact hdrained hs'
  | close hp => exact hdrained (.inl hp)
  | size hp | colors hp => exact hdrained hs'
  | take | loop | reply | drainReply | handled | stop | cleaned | drainTake =>
    simp [Drained, modify] at hs'
  | drainDrop hp =>
    simp [Drained, hp] at hs'

/-! ## Nobody is left waiting -/

/-- A reply that is made can be delivered, for the channel of its call is empty. -/
theorem reply_enabled {engine : Engine} {tr : List (Transition Calls Action)} {r : Answer}
    (h : Run (Step hash128) (new engine) tr s)
    (hp : (∃ pending, s.point = .handling c (r :: pending)) ∨ s.point = .draining c r) :
    ∃ s', Step hash128 s .reply s' := by
  -- the reply that is owed is the only one, so the channel is empty
  obtain ⟨hle, hunsent⟩ := tokens_le h c
  have howed : 0 < (s.owed c).length := by
    obtain ⟨pending, hp⟩ | hp := hp <;> simp [owed, hp]
  have hempty : received s.calls c = [] := by
    unfold tokens at hle
    exact List.length_eq_zero_iff.mp (by omega)
  have hcall : ∃ k, s.calls[c]? = some k ∧ k.reply = none := by
    rcases hc : s.calls[c]? with _ | k
    · have hzero := hunsent fun k hk => by rw [hc] at hk; exact nomatch hk
      unfold tokens at hzero
      omega
    · refine ⟨k, rfl, ?_⟩
      simp only [received, hc, Call.replies] at hempty
      split at hempty
      · exact nomatch hempty
      · exact Option.toList_eq_nil_iff.mp hempty
  obtain ⟨k, hc, hk⟩ := hcall
  obtain ⟨pending, hp⟩ | hp := hp <;> simp [Step, next, deliver, hp, hc, hk]

/-- Once `done` is closed, a call that has not returned can. -/
theorem returns_enabled {k : Call} (hclosed : s.point = .closed) (hc : s.calls[c]? = some k)
    (hk : ∀ o, k.point ≠ .returned o) :
    ∃ a s' k' o, Step hash128 s a s' ∧ s'.calls[c]? = some k' ∧ k'.point = .returned o := by
  have hreturn : (s.modify c ({ · with point := .returned .stopped })).calls[c]? =
      some { k with point := .returned .stopped } := by
    rw [calls_modify, getElem?_modify hc, if_pos rfl]
  obtain ⟨ev, point, reply⟩ := k
  cases point with
  | sending =>
    exact ⟨.sendStopped c, _, _, .stopped, by simp only [Step, next, hclosed, hc], hreturn, rfl⟩
  | waiting =>
    exact ⟨.receiveStopped c, _, _, .stopped, by simp only [Step, next, hclosed, hc], hreturn, rfl⟩
  | returned o => exact absurd rfl (hk o)

/-- A reply that a call returns is the only one made for its event. -/
theorem produced_of_answered {engine : Engine} {tr : List (Transition Calls Action)}
    (h : Run (Step hash128) (new engine) tr s) {k : Call} {r : Answer}
    (hc : s.calls[c]? = some k) (hk : k.point = .returned (.answered r)) :
    tr.flatMap (produced hash128 c) = [r] := by
  have hle := (tokens_le h c).1
  -- the caller has the one answer, so none is left on the way
  have hreceived : received s.calls c = r :: k.reply.toList := by
    simp only [received, hc, Call.replies, hk]
  unfold tokens at hle
  rw [hreceived] at hle
  simp only [List.length_cons] at hle
  have hreply : k.reply.toList = [] := List.length_eq_zero_iff.mp (by omega)
  have howed : s.owed c = [] := List.length_eq_zero_iff.mp (by omega)
  rw [flatMap_produced h, hreceived, hreply, howed]
  rfl

/-- When `drain` has found the channel empty, what was sent before has its reply. -/
theorem Accepted.received (hacc : s.Accepted c) (hs : s.Drained) :
    (Calls.received s.calls c).length = 1 := by
  -- the event is in no channel and no handler any more
  have hqueued : s.queued c = 0 ∧ s.owed c = [] := by
    have hcount := List.count_eq_zero_of_not_mem (hacc.drained hs)
    unfold queued owed
    obtain hs | hs := hs <;> simp [hs, hcount]
  obtain ⟨hzero, hnil⟩ := hqueued
  have htoken := hacc.token
  unfold tokens at htoken
  rw [hzero, hnil, List.length_nil] at htoken
  omega

/-- A request that was sent in time has one reply when the channel is found empty. -/
theorem delivered_of_send {engine : Engine} {tr : List (Transition Calls Action)}
    {t : Transition Calls Action} (h : Run (Step hash128) (new engine) tr s) (hs : s.Drained)
    (ht : t ∈ tr) (hlabel : t.label = .send c) (hreq : t.pre.Request c) (hpre : ¬ t.pre.Drained) :
    ∃ r, tr.flatMap (delivered c) = [r] := by
  obtain ⟨tr₁, tr₂, rfl⟩ := List.append_of_mem ht
  obtain ⟨hrun, hstep, hrest⟩ := h.of_mid
  rw [hlabel] at hstep
  have hacc : s.Accepted c :=
    Run.invariant (I := fun s => s.Accepted c) (accepted_of_send hrun hstep hreq hpre)
      (fun _ _ _ hi hs => accepted_step hs hi) hrest
  rw [flatMap_delivered h]
  exact List.length_eq_one_iff.mp (hacc.received hs)

/-- In every run of callers and engine: (a) a reply channel gets at most one value, and a
    reply that a handler or `drain` has to send can be sent; (b) once `done` is closed every
    call that has not returned has a step that makes it return; (c) a call that returns a
    reply returns the one made for its event, and a request sent before `drain` found the
    channel empty has got its reply when `drain` returns. -/
theorem nobody_waits {engine : Engine} {tr : List (Transition Calls Action)}
    (h : Run (Step hash128) (new engine) tr s) :
    (∀ c, (tr.flatMap (delivered c)).length ≤ 1) ∧
    (∀ c r, (∃ pending, s.point = .handling c (r :: pending)) ∨ s.point = .draining c r →
      ∃ s', Step hash128 s .reply s') ∧
    (s.point = .closed → ∀ (c : CallRef) (k : Call), s.calls[c]? = some k →
      (∀ o, k.point ≠ .returned o) →
      ∃ (a : Action) (s' : Calls) (k' : Call) (o : Outcome), Step hash128 s a s' ∧
        s'.calls[c]? = some k' ∧ k'.point = .returned o) ∧
    (∀ (c : CallRef) (k : Call) (r : Answer), s.calls[c]? = some k →
      k.point = .returned (.answered r) → tr.flatMap (produced hash128 c) = [r]) ∧
    (s.Drained → ∀ t ∈ tr, ∀ c, t.label = .send c → t.pre.Request c → ¬ t.pre.Drained →
      ∃ r, tr.flatMap (delivered c) = [r]) := by
  refine ⟨fun c => ?_, fun c r hp => reply_enabled h hp,
    fun hclosed c k hc hk => returns_enabled hclosed hc hk,
    fun c k r hc hk => produced_of_answered h hc hk,
    fun hs t ht c hlabel hreq hpre => delivered_of_send h hs ht hlabel hreq hpre⟩
  -- a call has one token at most, and a delivered reply is one
  have hle := (tokens_le h c).1
  rw [flatMap_delivered h]
  unfold tokens at hle
  omega

/-- One request is answered by its handler. Another is queued when the context is cancelled and
    answered by `drain`; a third is sent after `drain` and returns when `done` is closed. -/
def stopActions : List Action :=
  [.call .statusRequest, .call (.listRequest "a"), .call (.listRequest "a"), .send 0, .send 1,
    .cancel, .take default, .reply, .receive 0, .handled, .stop, .cleaned, .drainTake, .reply,
    .drainDefault, .send 2, .close, .receive 1, .receiveStopped 2]

/-- The engine has stopped, and the request that was queued then has its one reply. -/
theorem nobody_waits_stop :
    ∃ tr s, Run (Step fun _ => 0) (new (.new false false true false 1)) tr s ∧
      s.point = .closed ∧ (tr.flatMap (delivered 2)).length ≤ 1 ∧
      ∃ r, tr.flatMap (delivered 1) = [r] := by
  have hrun := Run.of_follow (next fun _ => 0) (new (.new false false true false 1)) stopActions
    (by decide)
  obtain ⟨hone, -, -, -, hreply⟩ := nobody_waits hrun
  refine ⟨_, _, hrun, rfl, hone 2, ?_⟩
  -- the transition in which the second call sends its event
  exact hreply (.inr rfl) _ (List.mem_of_getElem? (i := 4) rfl) 1 rfl ⟨_, rfl, rfl⟩ nofun

end Calls

end Kgd
