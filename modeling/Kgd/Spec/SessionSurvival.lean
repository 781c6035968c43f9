import Kgd.Spec.Reclaim
import Kgd.Spec.ClientIsolation

/-!
# What belongs to a session outlives its connections

A stateless client may close its connection and come back: its images and placements are filed
under the client ID of its session, which the next hello hands out again. In between, other
connections are torn down and reported, other sessions are reaped, and everybody else goes on
uploading and placing.

Only the reaper reports the client ID of a session. A connection that reports its own end has
never named a session, so its ID is the UUID of its accept, which no session has.

## Key results

- `System.engine_runs`: the engine of a run of the system has made a run of its own
- `Server.separate_of_run`: the IDs of connections without a session are nobody else's
- `System.session_survives`
-/

namespace Kgd

/-- The connection has named no session yet. -/
def Client.Unnamed (o : Client) : Prop := o.stateless = false ∧ o.point.session? = none

namespace Server

variable {newString : Nat → ClientID} {s s' : Server} {a : Action} {id : ClientID}

/-! ## Connections without a session -/

/-- The ID was given to a connection that has named a session since. -/
def Given (newString : Nat → ClientID) (s : Server) (id : ClientID) : Prop :=
  ∃ (k : ClientRef) (o : Client), s.heap[k]? = some o ∧ ¬ o.Unnamed ∧ id = newString k

/-- A connection that has named no session has the ID it was accepted with. All other IDs in
    use are those of connections that have named one. -/
structure Separate (newString : Nat → ClientID) (s : Server) : Prop where
  unnamed : ∀ (k : ClientRef) (o : Client), s.heap[k]? = some o → o.Unnamed → o.ID = newString k
  client : ∀ (k : ClientRef) (o : Client), s.heap[k]? = some o → ¬ o.Unnamed →
    Given newString s o.ID
  hello : ∀ (k : ClientRef) (o : Client) (sessionID : String) (clientID : ClientID),
    s.heap[k]? = some o → o.point = .registered sessionID clientID → Given newString s clientID
  session : ∀ (sessionID : String) (sess : Session), s.sessions[sessionID]? = some sess →
    Given newString s sess.clientID

theorem separate_new : Separate newString new := by
  constructor <;> simp [new]

/-- A step that takes no connection's named session from it keeps what has been given. -/
theorem Given.of_heap (h : Given newString s id)
    (hheap : ∀ (k : ClientRef) (o : Client), s.heap[k]? = some o → ¬ o.Unnamed →
      ∃ o', s'.heap[k]? = some o' ∧ ¬ o'.Unnamed) : Given newString s' id := by
  obtain ⟨k, o, ho, hnamed, rfl⟩ := h
  obtain ⟨o', ho', hnamed'⟩ := hheap k o ho hnamed
  exact ⟨k, o', ho', hnamed', rfl⟩

/-- The ID of a connection without a session is given to nobody else. -/
theorem Separate.not_given (h : Separate newString s) (hinj : Function.Injective newString)
    {k : ClientRef} {o : Client} (ho : s.heap[k]? = some o) (hunnamed : o.Unnamed) :
    ¬ Given newString s o.ID := by
  intro hgiven
  obtain ⟨j, o', ho', hnamed, heq⟩ := hgiven
  rw [h.unnamed k o ho hunnamed] at heq
  obtain rfl := hinj heq
  obtain rfl := Option.some.inj (ho.symm.trans ho')
  exact hnamed hunnamed

/-- A connection moves on in its goroutine, outside a hello. -/
theorem Separate.move (h : Separate newString s) {c : ClientRef} {o : Client}
    (ho : s.heap[c]? = some o) (hout : o.point.session? = none) (point : ConnPoint)
    (hpoint : point.session? = none) :
    Separate newString (s.modify c fun o => { o with point }) := by
  -- the connection has named a session after the step if and only if it had before
  have hsame : ∀ (k : ClientRef) (o' : Client),
      (s.modify c fun o => { o with point }).heap[k]? = some o' →
      ∃ o₁, s.heap[k]? = some o₁ ∧ o'.ID = o₁.ID ∧ (o'.Unnamed ↔ o₁.Unnamed) ∧
        (o'.point = o₁.point ∨ o'.point.session? = none) := by
    intro k o' ho'
    rw [getElem?_modify] at ho'
    split at ho'
    · rename_i hk
      subst hk
      rw [ho, Option.map_some] at ho'
      obtain rfl := Option.some.inj ho'
      refine ⟨o, ho, rfl, ?_, Or.inr hpoint⟩
      simp [Client.Unnamed, hout, hpoint]
    · exact ⟨o', ho', rfl, Iff.rfl, Or.inl rfl⟩
  have hgiven : ∀ id, Given newString s id →
      Given newString (s.modify c fun o => { o with point }) id := by
    intro id hid
    refine hid.of_heap fun k o₁ ho₁ hnamed => ?_
    rw [getElem?_modify, ho₁]
    split
    · rename_i hk
      subst hk
      obtain rfl := Option.some.inj (ho.symm.trans ho₁)
      exact ⟨_, rfl, by simpa [Client.Unnamed, hout, hpoint] using hnamed⟩
    · exact ⟨o₁, rfl, hnamed⟩
  constructor
  · intro k o' ho' hunnamed
    obtain ⟨o₁, ho₁, hid, hiff, -⟩ := hsame k o' ho'
    rw [hid]
    exact h.unnamed k o₁ ho₁ (hiff.mp hunnamed)
  · intro k o' ho' hnamed
    obtain ⟨o₁, ho₁, hid, hiff, -⟩ := hsame k o' ho'
    rw [hid]
    exact hgiven _ (h.client k o₁ ho₁ fun hunnamed => hnamed (hiff.mpr hunnamed))
  · intro k o' sid cid ho' hreg
    obtain ⟨o₁, ho₁, -, -, hsamePoint | hnone⟩ := hsame k o' ho'
    · exact hgiven _ (h.hello k o₁ sid cid ho₁ (hsamePoint ▸ hreg))
    · rw [session?_eq_some.mpr hreg] at hnone
      cases hnone
  · intro sid sess hsess
    exact hgiven _ (h.session sid sess hsess)

/-- The sessions change, under IDs that were given. -/
theorem Separate.of_sessions (h : Separate newString s) (hheap : s'.heap = s.heap)
    (hsessions : ∀ (sid : String) (sess : Session), s'.sessions[sid]? = some sess →
      Given newString s sess.clientID) : Separate newString s' := by
  -- which IDs are given out is seen on the heap
  have hgiven : ∀ id, Given newString s' id ↔ Given newString s id := by
    intro id
    rw [Given, hheap, Given]
  constructor
  · rw [hheap]
    exact h.unnamed
  · intro k o ho hnamed
    exact (hgiven _).mpr (h.client k o (hheap ▸ ho) hnamed)
  · intro k o sid cid ho hreg
    exact (hgiven _).mpr (h.hello k o sid cid (hheap ▸ ho) hreg)
  · intro sid sess hsess
    exact (hgiven _).mpr (hsessions sid sess hsess)

/-- A client that is accepted has an ID of its own. -/
theorem Separate.addClient (h : Separate newString s) :
    Separate newString (s.addClient (newString s.heap.length)) := by
  have hgiven : ∀ id, Given newString s id →
      Given newString (s.addClient (newString s.heap.length)) id := by
    intro id hid
    exact hid.of_heap fun k o ho hnamed => ⟨o, List.getElem?_concat_of_some _ ho, hnamed⟩
  constructor
  · intro k o ho hunnamed
    -- a new connection has its own ID until it says hello
    rcases getElem?_addClient ho with hold | ⟨rfl, rfl⟩
    · exact h.unnamed k o hold hunnamed
    · rfl
  · intro k o ho hnamed
    rcases getElem?_addClient ho with hold | ⟨-, rfl⟩
    · exact hgiven _ (h.client k o hold hnamed)
    · exact absurd ⟨rfl, rfl⟩ hnamed
  · intro k o sid cid ho hreg
    rcases getElem?_addClient ho with hold | ⟨-, rfl⟩
    · exact hgiven _ (h.hello k o sid cid hold hreg)
    · cases hreg
  · intro sid sess hsess
    exact hgiven _ (h.session sid sess hsess)

/-- A hello that names a session: from now on the connection's ID is given, and the session is
    filed under it or under one that was. -/
theorem Separate.register (h : Separate newString s) {c : ClientRef} {o : Client}
    (ho : s.heap[c]? = some o) (sessionID : String) :
    Separate newString ((s.registerSession sessionID o.ID).1.modify c fun o' =>
      { o' with point := .registered sessionID (s.registerSession sessionID o.ID).2 }) := by
  generalize hclientID : (s.registerSession sessionID o.ID).2 = clientID
  generalize hpost : ((s.registerSession sessionID o.ID).1.modify c fun o' =>
    { o' with point := .registered sessionID clientID }) = s'
  have hheap : ∀ k, s'.heap[k]? = if k = c then
      some { o with point := .registered sessionID clientID } else s.heap[k]? := by
    intro k
    rw [← hpost, getElem?_modify, heap_registerSession]
    split
    · rename_i hk
      rw [hk, ho, Option.map_some]
    · rfl
  have hnamed : ¬ Client.Unnamed { o with point := .registered sessionID clientID } := by
    intro hunnamed
    cases hunnamed.2
  have hgiven : ∀ id, Given newString s id → Given newString s' id := by
    intro id hid
    refine hid.of_heap fun k o₁ ho₁ hnamed₁ => ?_
    rw [hheap]
    split
    · exact ⟨_, rfl, hnamed⟩
    · exact ⟨o₁, ho₁, hnamed₁⟩
  -- the caller's own ID is that of its accept, or was given before
  have hcaller : Given newString s' o.ID := by
    by_cases hunnamed : o.Unnamed
    · exact ⟨c, _, (hheap c).trans (if_pos rfl), hnamed, h.unnamed c o ho hunnamed⟩
    · exact hgiven _ (h.client c o ho hunnamed)
  have hsessions : ∀ (sid : String) (sess : Session), s'.sessions[sid]? = some sess →
      Given newString s' sess.clientID := by
    intro sid sess hsess
    rw [← hpost, sessions_modify] at hsess
    unfold registerSession at hsess
    split at hsess
    · rename_i sess₀ hsess₀
      rcases GoMap.getElem?_insert_eq_some.mp hsess with ⟨rfl, rfl⟩ | ⟨-, hold⟩
      · exact hgiven _ (h.session sid sess₀ hsess₀)
      · exact hgiven _ (h.session sid sess hold)
    · rcases GoMap.getElem?_insert_eq_some.mp hsess with ⟨rfl, rfl⟩ | ⟨-, hold⟩
      · exact hcaller
      · exact hgiven _ (h.session sid sess hold)
  have hreturned : Given newString s' clientID := by
    rw [← hclientID]
    unfold registerSession
    split
    · rename_i sess hsess
      exact hgiven _ (h.session sessionID sess hsess)
    · exact hcaller
  constructor
  · intro k o' ho' hunnamed
    rw [hheap] at ho'
    split at ho'
    · obtain rfl := Option.some.inj ho'
      exact absurd hunnamed hnamed
    · exact h.unnamed k o' ho' hunnamed
  · intro k o' ho' hnamed'
    rw [hheap] at ho'
    split at ho'
    · obtain rfl := Option.some.inj ho'
      exact hcaller
    · exact hgiven _ (h.client k o' ho' hnamed')
  · intro k o' sid cid ho' hreg
    rw [hheap] at ho'
    split at ho'
    · obtain rfl := Option.some.inj ho'
      obtain ⟨-, rfl⟩ := ConnPoint.registered.inj hreg
      exact hreturned
    · exact hgiven _ (h.hello k o' sid cid ho' hreg)
  · exact hsessions

/-- `SetStateless` gives the caller an ID that was given before. -/
theorem Separate.setStateless (h : Separate newString s) {c : ClientRef} {o : Client}
    {sessionID : String} {clientID : ClientID} (ho : s.heap[c]? = some o)
    (hpoint : o.point = .registered sessionID clientID) :
    Separate newString ((s.setStateless c o.ID sessionID clientID).modify c fun o' =>
      { o' with point := .serve }) := by
  generalize hpost : ((s.setStateless c o.ID sessionID clientID).modify c fun o' =>
    { o' with point := .serve }) = s'
  -- one connection takes the session's ID, the others are as before
  have hheap : ∀ k o', s'.heap[k]? = some o' →
      (k = c ∧ o'.ID = clientID ∧ o'.stateless = true ∧ o'.point = .serve) ∨
      ∃ o₁, s.heap[k]? = some o₁ ∧ o'.ID = o₁.ID ∧ o'.stateless = o₁.stateless ∧
        o'.point = o₁.point := by
    intro k o' ho'
    rw [← hpost, getElem?_modify] at ho'
    split at ho'
    · rename_i hk
      subst hk
      rw [getElem?_setStateless, ho] at ho'
      simp only [Option.map_some, ↓reduceIte, Option.some.injEq] at ho'
      subst ho'
      exact Or.inl ⟨rfl, rfl, rfl, rfl⟩
    · rename_i hk
      rw [getElem?_setStateless] at ho'
      obtain ⟨o₁, ho₁, rfl⟩ := Option.map_eq_some_iff.mp ho'
      rw [if_neg hk]
      exact Or.inr ⟨o₁, ho₁, rfl, rfl, rfl⟩
  have hgiven : ∀ id, Given newString s id → Given newString s' id := by
    intro id hid
    refine hid.of_heap fun k o₁ ho₁ hnamed => ?_
    -- a connection given the ID before is still there under the same reference
    have hlength : s'.heap[k]?.isSome := by
      rw [← hpost, getElem?_modify, getElem?_setStateless, ho₁]
      split <;> rfl
    obtain ⟨o', ho'⟩ := Option.isSome_iff_exists.mp hlength
    refine ⟨o', ho', fun hunnamed => ?_⟩
    rcases hheap k o' ho' with ⟨-, -, hstateless, -⟩ | ⟨o₂, ho₂, -, hstateless, hsame⟩
    · rw [hunnamed.1] at hstateless
      cases hstateless
    · obtain rfl := Option.some.inj (ho₁.symm.trans ho₂)
      exact hnamed ⟨hstateless ▸ hunnamed.1, hsame ▸ hunnamed.2⟩
  constructor
  · intro k o' ho' hunnamed
    rcases hheap k o' ho' with ⟨-, -, hstateless, -⟩ | ⟨o₁, ho₁, hid, hstateless, hsame⟩
    · rw [hunnamed.1] at hstateless
      cases hstateless
    · rw [hid]
      exact h.unnamed k o₁ ho₁ ⟨hstateless ▸ hunnamed.1, hsame ▸ hunnamed.2⟩
  · intro k o' ho' hnamed
    rcases hheap k o' ho' with ⟨-, hid, -, -⟩ | ⟨o₁, ho₁, hid, hstateless, hsame⟩
    · rw [hid]
      exact hgiven _ (h.hello c o sessionID clientID ho hpoint)
    · rw [hid]
      refine hgiven _ (h.client k o₁ ho₁ fun hunnamed => hnamed ?_)
      exact ⟨hstateless.trans hunnamed.1, hsame ▸ hunnamed.2⟩
  · intro k o' sid cid ho' hreg
    rcases hheap k o' ho' with ⟨-, -, -, hserve⟩ | ⟨o₁, ho₁, -, -, hsame⟩
    · rw [hserve] at hreg
      cases hreg
    · exact hgiven _ (h.hello k o₁ sid cid ho₁ (hsame ▸ hreg))
  · intro sid sess hsess
    rw [← hpost, sessions_modify, sessions_setStateless] at hsess
    exact hgiven _ (h.session sid sess hsess)

/-- Every step keeps the IDs of unnamed connections to themselves. -/
theorem separate_step (h : Separate newString s) (hs : Step newString s a s') :
    Separate newString s' := by
  cases moves_of_step hs with
  | accept => exact h.addClient
  | hello => exact h
  | @register c o sessionID ho => exact h.register ho sessionID
  | setStateless ho hpoint => exact h.setStateless ho hpoint
  | serveEnd ho hpoint => exact h.move ho (hpoint ▸ rfl) .ended rfl
  | @removeClient c o ho hpoint =>
    -- removing the client from the table leaves the heap alone
    have hremoved : Separate newString (s.removeClient o.ID) :=
      h.of_sessions rfl fun sid sess hsess => h.session sid sess hsess
    exact hremoved.move ho (hpoint ▸ rfl) .removed rfl
  | @closeClient c o ho hpoint =>
    have hclosed : Separate newString (s.closeClient o) := by
      refine h.of_sessions (by simp) fun sid sess hsess => ?_
      unfold Server.closeClient at hsess
      split at hsess
      · split at hsess
        · rename_i sess₀ hsess₀
          -- the disconnect only renews the session's time
          rcases GoMap.getElem?_insert_eq_some.mp hsess with ⟨rfl, rfl⟩ | ⟨-, hold⟩
          · exact h.session o.sessionID sess₀ hsess₀
          · exact h.session sid sess hold
        · exact h.session sid sess hsess
      · exact h.session sid sess hsess
    have hout : o.point.session? = none := by rw [hpoint]; rfl
    exact hclosed.move (by simpa using ho) hout .closed rfl
  | elapse => exact h.of_sessions rfl fun sid sess hsess => h.session sid sess hsess
  | reapSessions order =>
    refine h.of_sessions rfl fun sid sess hsess => ?_
    exact h.session sid sess (getElem?_sessions_reapSessions.mp hsess).1
  | reapNotify => exact h.of_sessions rfl fun sid sess hsess => h.session sid sess hsess

/-! ## What is reported -/

/-- A client ID is reported by the reaper, or by the teardown of a connection that has named no
    session. -/
theorem reported_step (h : Step newString s a s')
    (hone : s'.disconnected = s.disconnected ++ [id]) :
    id ∈ s.expiredClientIDs ∨
      ∃ (k : ClientRef) (o : Client), s.heap[k]? = some o ∧ o.Unnamed ∧ o.ID = id := by
  -- a step that reports nothing cannot have added one
  have hsame : s'.disconnected = s.disconnected → False := by
    intro hnone
    rw [hnone] at hone
    exact absurd (congrArg List.length hone) (by simp)
  cases moves_of_step h with
  | accept => exact (hsame rfl).elim
  | hello => exact (hsame rfl).elim
  | @register c o sessionID =>
    refine (hsame ?_).elim
    show (s.registerSession sessionID o.ID).1.disconnected = s.disconnected
    unfold registerSession
    split <;> rfl
  | @setStateless c o sessionID clientID =>
    refine (hsame ?_).elim
    show (s.setStateless c o.ID sessionID clientID).disconnected = s.disconnected
    simp only [Server.setStateless, updateClientID]
    split
    · split <;> rfl
    · rfl
  | serveEnd => exact (hsame rfl).elim
  | removeClient => exact (hsame rfl).elim
  | @closeClient c o ho hpoint =>
    -- the ID of a stateless client is reported by the reaper only
    cases hstateless : o.stateless with
    | true =>
      refine (hsame ?_).elim
      show (s.closeClient o).disconnected = s.disconnected
      simp only [Server.closeClient, hstateless, ↓reduceIte]
      split <;> rfl
    | false =>
      have hreports : (s.closeClient o).disconnected = s.disconnected ++ [o.ID] := by
        simp [Server.closeClient, hstateless]
      have hid := List.append_cancel_left (hreports.symm.trans hone)
      have hunnamed : o.Unnamed := ⟨hstateless, by rw [hpoint]; rfl⟩
      exact Or.inr ⟨c, o, ho, hunnamed, List.singleton_inj.mp hid⟩
  | elapse => exact (hsame rfl).elim
  | reapSessions => exact (hsame rfl).elim
  | @reapNotify clientID rest hexpired =>
    have hid := List.append_cancel_left
      (show s.disconnected ++ [clientID] = s.disconnected ++ [id] from hone)
    rw [hexpired, List.singleton_inj.mp hid]
    exact Or.inl List.mem_cons_self

/-- No step reports the ID of a session. -/
theorem not_reported (hinj : Function.Injective newString) (hsep : Separate newString s)
    (hs : Isolated s) (h : Step newString s a s') {sid : String} {sess : Session}
    (hsess : s.sessions[sid]? = some sess) :
    s'.disconnected ≠ s.disconnected ++ [sess.clientID] := by
  intro hone
  rcases reported_step h hone with hexpired | ⟨k, o, ho, hunnamed, hid⟩
  · exact hs.reaped _ hexpired sid sess hsess rfl
  · exact hsep.not_given hinj ho hunnamed (hid ▸ hsep.session sid sess hsess)

/-- A session that is still there after a step has the client ID it had. -/
theorem clientID_step (h : Step newString s a s') {sid : String} {sess sess' : Session}
    (hsess : s.sessions[sid]? = some sess) (hsess' : s'.sessions[sid]? = some sess') :
    sess'.clientID = sess.clientID := by
  cases session_step h hsess' with
  | kept _ hold => rw [Option.some.inj (hold.symm.trans hsess)]
  | touched _ hold hid =>
    rw [hid]
    exact congrArg Session.clientID (Option.some.inj (hold.symm.trans hsess))
  | created _ hcreates =>
    rw [hcreates.2.1] at hsess
    cases hsess

end Server

/-- The client whose images or placements the event asks to change. -/
def Event.editor? : Event → Option ClientID
  | .placeRequest c _ | .unplaceRequest c _ | .unplaceAllRequest c | .uploadRequest c _
  | .freeRequest c _ => some c
  | .helloRequest .. | .scrollUpdate .. | .registerWin .. | .unregisterWin .. | .updatePanes ..
  | .clientDisconnect .. | .listRequest .. | .statusRequest | .stopRequest => none

/-- What neither comes from a client that changes its own nor reports its end leaves its
    handles and placements alone. -/
theorem Engine.kept_of_receive {hash128 : Data → Hash} {env : Env} {e e' : Engine}
    {input : Input} {out : List Action} {id : ClientID} (hacc : e.Accounts)
    (hnext : e'.nextPlacement ≠ e.nextPlacement → e.FreshPlacement)
    (hr : e.receive hash128 env input = some (e', out))
    (hquiet : ∀ ev, input = .event ev → ev.editor? ≠ some id ∧ ev ≠ .clientDisconnect id) :
    (∀ handle, e'.handleImage id handle = e.handleImage id handle) ∧
      ∀ pid, e'.ownedBy id pid = e.ownedBy id pid := by
  have hedit : ∀ ev, ev.editor? = some id → input ≠ .event ev :=
    fun ev hev heq => (hquiet ev heq).1 hev
  have hdisc : input ≠ .event (.clientDisconnect id) := fun heq => (hquiet _ heq).2 rfl
  constructor
  · exact handleImage_of_other hacc (imageStep_of_receive hr) (fun _ => hedit _ rfl)
      (fun _ => hedit _ rfl) hdisc
  · exact ownedBy_of_other (placementStep_of_receive hr) hnext (fun _ => hedit _ rfl)
      (fun _ => hedit _ rfl) (hedit _ rfl) hdisc

namespace System

variable {newString : Nat → ClientID} {hash128 : Data → Hash} {s s' : System} {a : Action}
  {id : ClientID}

/-! ## The engine's own run -/

/-- The event that a step has the engine handle. -/
def handled? (s : System) : Action → Option Event
  | .handle _ => s.events.head?
  | .server _ | .request .. | .updatePanes _ | .size .. | .colors .. => none

/-- A step leaves the engine or has it receive an input, which is the event that was queued first if
    it is one. -/
theorem engine_step (h : Step newString hash128 s a s') :
    s'.engine = s.engine ∨
      ∃ env input out, s.engine.receive hash128 env input = some (s'.engine, out) ∧
        ∀ ev, input = .event ev → s.handled? a = some ev := by
  cases a with
  | server b => exact Or.inl (server_step h).2.1
  -- the events a step queues are handled by a later one
  | request c ev =>
    obtain ⟨o, -, -, -, rfl⟩ := request_step h
    exact Or.inl rfl
  | updatePanes panes =>
    obtain rfl := send_eq_some h
    exact Or.inl rfl
  | size env sz =>
    obtain ⟨e', out, hr, rfl⟩ := receive_eq_some h
    exact Or.inr ⟨env, _, out, hr, fun ev heq => by cases heq⟩
  | colors env colors =>
    obtain ⟨e', out, hr, rfl⟩ := receive_eq_some h
    exact Or.inr ⟨env, _, out, hr, fun ev heq => by cases heq⟩
  | handle env =>
    simp only [Step, next] at h
    split at h
    · cases h
    · rename_i ev rest hevents
      obtain ⟨e', out, hr, rfl⟩ := receive_eq_some h
      refine Or.inr ⟨env, _, out, hr, fun ev' heq => ?_⟩
      rw [handled?, hevents, ← Input.event.inj heq]
      rfl

/-- How often `IDAllocator.Next` was called. -/
def idsTaken (tr : List (Transition System Action)) : Nat :=
  tr.countP fun t => t.pre.engine.idAlloc != t.post.engine.idAlloc

/-- How many placements were created. -/
def pidsTaken (tr : List (Transition System Action)) : Nat :=
  tr.countP fun t => t.pre.engine.nextPlacement != t.post.engine.nextPlacement

/-- The engine of a run of the system has made a run of its own, in front of some terminal,
    with as many IDs taken. -/
theorem engine_runs {e : Engine} {tr : List (Transition System Action)}
    (h : Run (Step newString hash128) (new e) tr s) :
    ∃ trw w, World.Runs hash128 e trw w ∧ w.engine = s.engine ∧
      nextCalls trw = idsTaken tr ∧ placementsCreated trw = pidsTaken tr := by
  induction h with
  | nil => exact ⟨[], _, Run.nil, rfl, rfl, rfl⟩
  | @snoc tr s a s' _ hs ih =>
    obtain ⟨trw, w, hrun, hengine, hids, hpids⟩ := ih
    -- a step that leaves the engine alone is no step of the smaller system
    rcases engine_step hs with hsame | ⟨env, input, out, hr, -⟩
    · refine ⟨trw, w, hrun, hengine.trans hsame.symm, ?_, ?_⟩
      · simp [idsTaken, List.countP_append, hsame, hids]
      · simp [pidsTaken, List.countP_append, hsame, hpids]
    · have hstep : World.Step hash128 w ⟨input, out⟩ ⟨s'.engine, w.terminal.applyAll out⟩ :=
        ⟨env, hengine ▸ hr, rfl⟩
      refine ⟨_, _, hrun.snoc hstep, rfl, ?_, ?_⟩
      · rw [nextCalls, List.countP_append, ← nextCalls, hids, idsTaken, idsTaken,
          List.countP_append]
        simp only [List.countP_singleton, hengine]
      · rw [placementsCreated, List.countP_append, ← placementsCreated, hpids, pidsTaken,
          pidsTaken, List.countP_append]
        simp only [List.countP_singleton, hengine]

/-- While few IDs have been taken, the engine's accounts are in order and its next placement ID
    is new. -/
theorem accounts_of_few {gfx notifier stopFunc inTmux : Bool} {maxSize : Int}
    {tr : List (Transition System Action)}
    (h : Run (Step newString hash128) (new (.new gfx notifier stopFunc inTmux maxSize)) tr s)
    (hs : Step newString hash128 s a s') (hids : idsTaken tr < 2 ^ 32 - 1)
    (hpids : pidsTaken (tr ++ [⟨s, a, s'⟩]) < 2 ^ 32) :
    s.engine.Accounts ∧
      (s'.engine.nextPlacement ≠ s.engine.nextPlacement → s.engine.FreshPlacement) := by
  -- the engine's part of the run, seen as a run of the smaller system
  obtain ⟨trw, w, hrun, hengine, hidsw, hpidsw⟩ := engine_runs h
  rw [← hidsw] at hids
  rw [← hengine]
  refine ⟨World.accounts_of_fresh hrun (World.fresh_of_nextCalls hrun hids), fun hmoved => ?_⟩
  rcases engine_step hs with hsame | ⟨env, input, out, hr, -⟩
  · exact absurd (congrArg Engine.nextPlacement (hsame.trans hengine.symm)) hmoved
  · have hcreated : placementsCreated
        (trw ++ [⟨w, ⟨input, out⟩, ⟨s'.engine, w.terminal.applyAll out⟩⟩]) < 2 ^ 32 := by
      rw [placementsCreated, List.countP_append, ← placementsCreated, hpidsw]
      rw [pidsTaken, List.countP_append] at hpids
      simpa only [pidsTaken, List.countP_singleton, hengine] using hpids
    exact World.freshPlacement_of_runs hrun hcreated hmoved

/-! ## Sessions -/

/-- Only the server queues a disconnect. -/
theorem not_disconnect_of_request {c : ClientRef} {ev : Event}
    (h : Step newString hash128 s (.request c ev) s') : ev ≠ .clientDisconnect id := by
  rintro rfl
  simp only [Step, next, Option.bind_eq_bind, Option.bind_eq_some_iff] at h
  obtain ⟨o, -, h⟩ := h
  simp [Event.isRequest] at h

/-- What is known of the server and the queue while a session is in use. -/
structure Keeping (newString : Nat → ClientID) (sid : String) (id : ClientID) (s : System) :
    Prop where
  separate : s.server.Separate newString
  isolated : s.server.Isolated
  filed : ∃ sess, s.server.sessions[sid]? = some sess ∧ sess.clientID = id
  unqueued : Event.clientDisconnect id ∉ s.events

/-- Every session is created under an ID that no session or unreported reap has. -/
def CreatesApart (t : Transition System Action) : Prop :=
  ∀ b, t.label = .server b → t.pre.server.CreatesUnderOwnID b

/-- A step keeps the session in use, if no other session is created under its ID and the reaper
    leaves it. -/
theorem keeping_step {sid : String} (hinj : Function.Injective newString)
    (h : s.Keeping newString sid id) (hs : Step newString hash128 s a s')
    (hapart : CreatesApart ⟨s, a, s'⟩) (hkept : sid ∈ s'.server.sessions) :
    s'.Keeping newString sid id := by
  -- a step that leaves the server alone and queues no disconnect
  have hquiet : s'.server = s.server → Event.clientDisconnect id ∉ s'.events →
      s'.Keeping newString sid id := by
    intro hserver hunqueued
    refine ⟨?_, ?_, ?_, hunqueued⟩
    · exact hserver ▸ h.separate
    · exact hserver ▸ h.isolated
    · exact hserver ▸ h.filed
  cases a with
  | server b =>
    obtain ⟨hserver, -, hsent⟩ := server_step hs
    obtain ⟨sess, hsess, rfl⟩ := h.filed
    obtain ⟨sess', hsess'⟩ := Option.isSome_iff_exists.mp
      (Std.ExtTreeMap.mem_iff_isSome_getElem?.mp hkept)
    refine ⟨Server.separate_step h.separate hserver,
      (Server.isolated_step h.isolated hserver).mpr (hapart b rfl),
      ⟨sess', hsess', Server.clientID_step hserver hsess hsess'⟩, ?_⟩
    rcases hsent with ⟨-, hevents⟩ | ⟨id', hone, hevents⟩
    · rw [hevents]
      exact h.unqueued
    · rw [hevents, List.mem_append, List.mem_singleton, not_or]
      refine ⟨h.unqueued, fun heq => ?_⟩
      obtain rfl := Event.clientDisconnect.inj heq
      exact Server.not_reported hinj h.separate h.isolated hserver hsess hone
  | request c ev =>
    obtain ⟨o, -, -, -, rfl⟩ := request_step hs
    refine hquiet rfl ?_
    rw [List.mem_append, List.mem_singleton, not_or]
    exact ⟨h.unqueued, Ne.symm (not_disconnect_of_request hs)⟩
  | updatePanes panes =>
    obtain rfl := send_eq_some hs
    refine hquiet rfl ?_
    rw [List.mem_append, List.mem_singleton, not_or]
    exact ⟨h.unqueued, by simp⟩
  | size env sz =>
    obtain ⟨e', out, hr, rfl⟩ := receive_eq_some hs
    exact hquiet rfl h.unqueued
  | colors env colors =>
    obtain ⟨e', out, hr, rfl⟩ := receive_eq_some hs
    exact hquiet rfl h.unqueued
  | handle env =>
    simp only [Step, next] at hs
    split at hs
    · cases hs
    · rename_i ev rest hevents
      obtain ⟨e', out, hr, rfl⟩ := receive_eq_some hs
      refine hquiet rfl fun hmem => h.unqueued ?_
      rw [hevents]
      exact List.mem_cons_of_mem _ hmem

/-- Where sessions are created apart, the server keeps them so, and the IDs of connections
    without a session to themselves. -/
theorem apart_of_run {e : Engine} {tr : List (Transition System Action)}
    (h : Run (Step newString hash128) (new e) tr s) (hapart : ∀ t ∈ tr, CreatesApart t) :
    s.server.Separate newString ∧ s.server.Isolated := by
  refine Run.invariant (I := fun s => s.server.Separate newString ∧ s.server.Isolated)
    ⟨Server.separate_new, Server.isolated_new⟩ ?_ (h.restrict hapart)
  intro s a s' hI hx
  obtain ⟨hs, hcreates⟩ := hx
  obtain ⟨hsep, hisolated⟩ := hI
  rcases server_cases hs with hsame | ⟨b, rfl, hserver⟩
  · exact hsame ▸ ⟨hsep, hisolated⟩
  · exact ⟨Server.separate_step hsep hserver,
      (Server.isolated_step hisolated hserver).mpr (hcreates b rfl)⟩

section Runs
variable {gfx notifier stopFunc inTmux : Bool} {maxSize : Int}
  {tr tr' : List (Transition System Action)} {sid : String} {sess : Session}

/-- From a state in which no disconnect of it is queued, and for as long as the reaper spares
    the session and none of its own requests change anything, the next hello that names the
    session is given its client ID, and the engine has its handles and placements as they
    were: whatever connections come and go, of this session or of others. -/
theorem session_survives (hinj : Function.Injective newString)
    (h : Run (Step newString hash128) (new (.new gfx notifier stopFunc inTmux maxSize)) tr s)
    (h' : Run (Step newString hash128) s tr' s') (hapart : ∀ t ∈ tr ++ tr', CreatesApart t)
    (hids : idsTaken (tr ++ tr') < 2 ^ 32 - 1) (hpids : pidsTaken (tr ++ tr') < 2 ^ 32)
    (hsess : s.server.sessions[sid]? = some sess)
    (hqueued : Event.clientDisconnect sess.clientID ∉ s.events)
    (hkept : ∀ t ∈ tr', sid ∈ t.post.server.sessions)
    (hquiet : ∀ t ∈ tr', (t.pre.handled? t.label).bind Event.editor? ≠ some sess.clientID) :
    (∀ clientID, (s'.server.registerSession sid clientID).2 = sess.clientID) ∧
      (∀ handle, s'.engine.handleImage sess.clientID handle =
        s.engine.handleImage sess.clientID handle) ∧
      ∀ pid, s'.engine.ownedBy sess.clientID pid = s.engine.ownedBy sess.clientID pid := by
  -- the induction needs more than the session's ID: that nothing is queued against it
  suffices hmain : s'.Keeping newString sid sess.clientID ∧
      (∀ handle, s'.engine.handleImage sess.clientID handle =
        s.engine.handleImage sess.clientID handle) ∧
      ∀ pid, s'.engine.ownedBy sess.clientID pid =
        s.engine.ownedBy sess.clientID pid by
    obtain ⟨hkeeping, hsame⟩ := hmain
    refine ⟨fun clientID => ?_, hsame⟩
    obtain ⟨sess', hsess', hid⟩ := hkeeping.filed
    simp only [Server.registerSession, hsess']
    exact hid
  obtain ⟨hsep, hisolated⟩ := apart_of_run h fun t ht => hapart t (List.mem_append_left _ ht)
  induction h' with
  | nil =>
    exact ⟨⟨hsep, hisolated, ⟨sess, hsess, rfl⟩, hqueued⟩, fun _ => rfl, fun _ => rfl⟩
  | @snoc tr' s₁ a s₂ hrun hs ih =>
    have hlast : (⟨s₁, a, s₂⟩ : Transition System Action) ∈ tr' ++ [⟨s₁, a, s₂⟩] := by simp
    have hids' : idsTaken (tr ++ tr') ≤ idsTaken (tr ++ (tr' ++ [⟨s₁, a, s₂⟩])) := by
      simp [idsTaken, List.countP_append]
    have hpids' : pidsTaken (tr ++ tr') ≤ pidsTaken (tr ++ (tr' ++ [⟨s₁, a, s₂⟩])) := by
      simp [pidsTaken, List.countP_append]
    have hsub : ∀ t ∈ tr', t ∈ tr' ++ [⟨s₁, a, s₂⟩] := fun t ht => List.mem_append_left _ ht
    obtain ⟨hkeeping, hhandles, howned⟩ := ih
      (fun t ht => hapart t (by
        rw [← List.append_assoc]
        exact List.mem_append_left _ ht))
      (by omega) (by omega) (fun t ht => hkept t (hsub t ht)) fun t ht => hquiet t (hsub t ht)
    refine ⟨keeping_step hinj hkeeping hs (hapart _ (List.mem_append_right _ hlast))
      (hkept _ hlast), ?_⟩
    rcases engine_step hs with hsame | ⟨env, input, out, hr, hhandled⟩
    · rw [hsame]
      exact ⟨hhandles, howned⟩
    · -- the event is no disconnect of the session's ID, for none has been queued
      have hevent : ∀ ev, input = .event ev →
          ev.editor? ≠ some sess.clientID ∧ ev ≠ .clientDisconnect sess.clientID := by
        intro ev heq
        have hhead := hhandled ev heq
        refine ⟨fun hedits => hquiet _ hlast ?_, ?_⟩
        · rw [hhead]
          exact hedits
        · rintro rfl
          refine hkeeping.unqueued ?_
          cases a with
          | handle env => exact List.mem_of_mem_head? hhead
          | _ => cases hhead
      rw [← List.append_assoc] at hpids
      obtain ⟨hacc, hnext⟩ := accounts_of_few (h.append hrun) hs (by omega) hpids
      obtain ⟨hhandles', howned'⟩ := Engine.kept_of_receive hacc hnext hr hevent
      exact ⟨fun handle => (hhandles' handle).trans (hhandles handle),
        fun pid => (howned' pid).trans (howned pid)⟩

end Runs

/-- A hello that finds its session, or creates the first one. -/
def findsOrFirst (t : Transition System Action) : Bool :=
  match t.label with
  | .server (.hello _ sid) =>
    t.pre.server.sessions.contains sid ||
      t.pre.server.sessions.isEmpty && t.pre.server.expiredClientIDs.isEmpty
  | _ => true

/-- A hello that finds its session, or the first one, creates none under an ID in use. -/
theorem createsApart_of_findsOrFirst {t : Transition System Action} (h : findsOrFirst t = true) :
    CreatesApart t := by
  intro b hb sid clientID hcreates
  obtain ⟨-, hnone, c, o, rfl, -, -⟩ := hcreates
  -- the session is new, so by the check there was none before
  have hnotMem : t.pre.server.sessions.contains sid = false := by
    rw [Std.ExtTreeMap.contains_eq_isSome_getElem?, hnone]
    rfl
  simp only [findsOrFirst, hb, hnotMem, Bool.false_or, Bool.and_eq_true,
    Std.ExtTreeMap.isEmpty_iff, List.isEmpty_iff] at h
  obtain ⟨hempty, hexpired⟩ := h
  constructor
  · intro sid' sess hsess
    simp [hempty] at hsess
  · rw [hexpired]
    exact List.not_mem_nil

/-- A connection says hello with a session and uploads an image. -/
def sessionActions : List Action :=
  [.server .accept, .server (.hello 0 "s"), .server (.setStateless 0),
    .request 0 (.uploadRequest (Server.unary 0) ⟨[1], "png", 1, 1⟩), .handle default]

/-- It leaves; another one comes, uploads and leaves, which is reported; then the session has
    a connection again. -/
def reconnectActions : List Action :=
  [.server (.serveEnd 0), .server (.removeClient 0), .server (.closeClient 0),
    .server .accept, .request 1 (.uploadRequest (Server.unary 1) ⟨[2], "png", 1, 1⟩),
    .handle default, .server (.serveEnd 1), .server (.removeClient 1), .server (.closeClient 1),
    .handle default, .server .accept, .server (.hello 2 "s"), .server (.setStateless 2)]

def sessionRun : Option (List (Transition System Action) × System) :=
  Run.follow (next Server.unary Script.firstByte) (new (.new true true true false 8))
    sessionActions

theorem isSome_sessionRun : sessionRun.isSome := by decide

def reconnectRun : Option (List (Transition System Action) × System) :=
  Run.follow (next Server.unary Script.firstByte) (sessionRun.get isSome_sessionRun).2
    reconnectActions

theorem isSome_reconnectRun : reconnectRun.isSome := by decide

/-- For a while nobody is connected under the session's ID; the connection that names it last has
    the ID, and the image of the first under its handle. -/
theorem session_survives_reconnect :
    ∃ tr s tr' s', Run (Step Server.unary Script.firstByte) (new (.new true true true false 8))
        tr s ∧ Run (Step Server.unary Script.firstByte) s tr' s' ∧
      (∃ t ∈ tr', t.post.server.notifyClient (Server.unary 0) = none) ∧
      s'.server.notifyClient (Server.unary 0) = some 2 ∧
      (∀ clientID, (s'.server.registerSession "s" clientID).2 = Server.unary 0) ∧
      s'.engine.handleImage (Server.unary 0) 1 = some 1 := by
  have hrun : Run (Step Server.unary Script.firstByte) _ _ _ :=
    Run.of_follow _ _ _ isSome_sessionRun
  have hrun' : Run (Step Server.unary Script.firstByte) _ _ _ :=
    Run.of_follow _ _ _ isSome_reconnectRun
  -- the second connection finds the session of the first
  have hfinds : ∀ t ∈ (sessionRun.get isSome_sessionRun).1 ++
      (reconnectRun.get isSome_reconnectRun).1, findsOrFirst t = true := by decide
  have hsess : (sessionRun.get isSome_sessionRun).2.server.sessions["s"]? =
      some ⟨Server.unary 0, 0⟩ := by decide
  obtain ⟨hsame, hhandles, -⟩ := session_survives Server.unary_injective hrun hrun'
    (fun t ht => createsApart_of_findsOrFirst (hfinds t ht)) (by decide) (by decide) hsess
    (by decide) (by decide) (by decide)
  exact ⟨_, _, _, _, hrun, hrun', by decide, by decide, hsame, (hhandles 1).trans (by decide)⟩

end System

end Kgd
