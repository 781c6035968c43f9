import Kgd.Daemon.System
import Kgd.Spec.Standing
import Kgd.Spec.StateOwners

/-!
# Engine state is reclaimed

The engine drops the state of a client when it is told that the client has disconnected. Who will
tell it is the server's business. A client ID that no connection and no session has, and that no
disconnect is on its way for, keeps its state forever.

## Key results

- `System.owned_step`: a step that abandons no client ID with state leaves all state with an owner
- `System.reclaimable`: the same of runs
- `System.reclaimable_fails`: state created before the hello
-/

namespace Kgd

namespace System

variable {newString : Nat → ClientID} {hash128 : Data → Hash} {s s' : System} {a : Action}
  {id : ClientID}

/-! ## Pending events -/

/-- The client has state once the queued events are handled, as far as their kind tells: it has
    some now, or an event creates some, and no disconnect comes later. -/
def Residual (s : System) (id : ClientID) : Prop :=
  (s.engine.Owns id ∧ Event.clientDisconnect id ∉ s.events) ∨
    ∃ before ev after, s.events = before ++ ev :: after ∧ ev.creator? = some id ∧
      Event.clientDisconnect id ∉ after

/-- Who has state now has it after the queued events, unless a disconnect is queued. -/
theorem residual_of_owns (h : s.engine.Owns id) :
    s.Residual id ∨ Event.clientDisconnect id ∈ s.events := by
  by_cases hmem : Event.clientDisconnect id ∈ s.events
  · exact Or.inr hmem
  · exact Or.inl (Or.inl ⟨h, hmem⟩)

/-- One more event: the state it finds was there before it, or it creates some. -/
theorem residual_send {ev : Event} (h : s'.Residual id) (hengine : s'.engine = s.engine)
    (hevents : s'.events = s.events ++ [ev]) :
    (s.Residual id ∧ ev ≠ .clientDisconnect id) ∨ ev.creator? = some id := by
  rw [Residual, hengine, hevents] at h
  rcases h with ⟨howns, hnot⟩ | ⟨before, ev', after, heq, hcreator, hnot⟩
  · rw [List.mem_append, List.mem_singleton, not_or] at hnot
    exact Or.inl ⟨Or.inl ⟨howns, hnot.1⟩, Ne.symm hnot.2⟩
  -- the creator is the event just queued, or it was in the queue
  · rcases List.eq_nil_or_concat after with rfl | ⟨after', ev₂, rfl⟩
    · obtain ⟨-, heq'⟩ := List.append_inj' heq rfl
      obtain rfl := List.singleton_inj.mp heq'
      exact Or.inr hcreator
    · rw [List.concat_eq_append, ← List.cons_append, ← List.append_assoc] at heq
      obtain ⟨heq₁, heq₂⟩ := List.append_inj' heq rfl
      obtain rfl := List.singleton_inj.mp heq₂
      rw [List.concat_eq_append, List.mem_append, List.mem_singleton, not_or] at hnot
      exact Or.inl ⟨Or.inr ⟨before, ev', after', heq₁, hcreator, hnot.1⟩, Ne.symm hnot.2⟩

/-- One event less, handled: what there is after it was to come before it. -/
theorem residual_handle {env : Env} {e' : Engine} {out : List Kgd.Action} {ev : Event}
    {rest : List Event} (hevents : s.events = ev :: rest)
    (hr : s.engine.receive hash128 env (.event ev) = some (e', out))
    (h : Residual { s with events := rest, engine := e' } id) : s.Residual id := by
  rcases h with ⟨howns, hnot⟩ | ⟨before, ev', after, heq, hcreator, hnot⟩
  · rcases Engine.owns_of_receive hr howns with ⟨hbefore, hne⟩ | ⟨ev', heq, hcreator⟩
    · refine Or.inl ⟨hbefore, ?_⟩
      rw [hevents, List.mem_cons, not_or]
      exact ⟨fun heq => hne (heq ▸ rfl), hnot⟩
    · obtain rfl := Input.event.inj heq
      exact Or.inr ⟨[], ev, rest, hevents, hcreator, hnot⟩
  · have heq' : rest = before ++ ev' :: after := heq
    exact Or.inr ⟨ev :: before, ev', after, by rw [hevents, heq']; rfl, hcreator, hnot⟩

/-- Input from the terminal creates and removes no client's state. -/
theorem residual_receive {env : Env} {input : Input} {e' : Engine} {out : List Kgd.Action}
    (hinput : ∀ ev, input ≠ .event ev)
    (hr : s.engine.receive hash128 env input = some (e', out))
    (h : Residual { s with engine := e' } id) : s.Residual id := by
  rcases h with ⟨howns, hnot⟩ | hqueued
  · rcases Engine.owns_of_receive hr howns with ⟨hbefore, -⟩ | ⟨ev, heq, -⟩
    · exact Or.inl ⟨hbefore, hnot⟩
    · exact absurd heq (hinput ev)
  · exact Or.inr hqueued

/-! ## One step -/

/-- An event that is sent is the last in the queue. -/
theorem send_eq_some {ev : Event} (h : s.send ev = some s') :
    s' = { s with events := s.events ++ [ev] } := by
  unfold send at h
  split at h
  · exact (Option.some.inj h).symm
  · exact nomatch h

/-- A step of the server sends at most one disconnect, the one it reports. -/
theorem server_step {b : Server.Action} (h : Step newString hash128 s (.server b) s') :
    Server.Step newString s.server b s'.server ∧ s'.engine = s.engine ∧
      (s'.server.disconnected = s.server.disconnected ∧ s'.events = s.events ∨
        ∃ id, s'.server.disconnected = s.server.disconnected ++ [id] ∧
          s'.events = s.events ++ [.clientDisconnect id]) := by
  simp only [Step, next, Option.bind_eq_bind, Option.bind_eq_some_iff] at h
  obtain ⟨server, hserver, hsend⟩ := h
  -- a step reports at most one client
  rcases Server.disconnected_step hserver with hsame | ⟨id, hone⟩
  · rw [hsame, List.drop_length] at hsend
    obtain rfl := Option.some.inj hsend
    exact ⟨hserver, rfl, Or.inl ⟨hsame, rfl⟩⟩
  · rw [hone, List.drop_left, List.map_singleton, List.foldlM_cons, Option.bind_eq_bind,
      Option.bind_eq_some_iff] at hsend
    obtain ⟨s₁, hs₁, hnil⟩ := hsend
    obtain rfl := send_eq_some hs₁
    obtain rfl := Option.some.inj hnil
    exact ⟨hserver, rfl, Or.inr ⟨id, hone, rfl⟩⟩

/-- A request comes from a connection in `Serve`, under its own ID if under any. -/
theorem request_step {c : ClientRef} {ev : Event}
    (h : Step newString hash128 s (.request c ev) s') :
    ∃ o, s.server.heap[c]? = some o ∧ o.point = .serve ∧
      (ev.clientID? = none ∨ ev.clientID? = some o.ID) ∧
      s' = { s with events := s.events ++ [ev] } := by
  simp only [Step, next, Option.bind_eq_bind, Option.bind_eq_some_iff,
    Server.at?_eq_some] at h
  obtain ⟨o, ⟨ho, hpoint⟩, h⟩ := h
  split at h
  · rename_i hrequest
    exact ⟨o, ho, hpoint, hrequest.2, send_eq_some h⟩
  · exact nomatch h

/-- Handling an event changes the engine and nothing else. -/
theorem receive_eq_some {env : Env} {input : Input} (h : s.receive hash128 env input = some s') :
    ∃ e' out, s.engine.receive hash128 env input = some (e', out) ∧
      s' = { s with engine := e' } := by
  obtain ⟨⟨e', out⟩, hr, rfl⟩ := Option.map_eq_some_iff.mp h
  exact ⟨e', out, hr, rfl⟩

/-- Other goroutines than the server's leave the server alone. -/
theorem server_cases (h : Step newString hash128 s a s') :
    s'.server = s.server ∨ ∃ b, a = .server b ∧ Server.Step newString s.server b s'.server := by
  cases a with
  | server b => exact Or.inr ⟨b, rfl, (server_step h).1⟩
  | request c ev =>
    obtain ⟨o, -, -, -, rfl⟩ := request_step h
    exact Or.inl rfl
  | updatePanes panes =>
    obtain rfl := send_eq_some h
    exact Or.inl rfl
  | size env sz =>
    obtain ⟨e', out, -, rfl⟩ := receive_eq_some h
    exact Or.inl rfl
  | colors env colors =>
    obtain ⟨e', out, -, rfl⟩ := receive_eq_some h
    exact Or.inl rfl
  -- the engine alone moves
  | handle env =>
    simp only [Step, next] at h
    split at h
    · cases h
    · obtain ⟨e', out, -, rfl⟩ := receive_eq_some h
      exact Or.inl rfl

/-- An event that creates state creates it for the client it comes from. -/
theorem clientID?_of_creator? {ev : Event} (h : ev.creator? = some id) :
    ev.clientID? = some id := by
  cases ev <;> first | exact h | exact nomatch h

/-- The client for which a request creates state. -/
def creates : Action → Option ClientID
  | .request _ ev => ev.creator?
  | _ => none

/-- After a step a client has state, or is about to, if it had before or has just asked for it. -/
theorem residual_step (h : Step newString hash128 s a s') (hresidual : s'.Residual id) :
    s.Residual id ∨ creates a = some id := by
  cases a with
  | server b =>
    -- a step of the server queues nothing or one disconnect
    obtain ⟨-, hengine, ⟨-, hevents⟩ | ⟨id', -, hevents⟩⟩ := server_step h
    · rw [Residual, hengine, hevents] at hresidual
      exact Or.inl hresidual
    · rcases residual_send hresidual hengine hevents with ⟨hold, -⟩ | hcreator
      · exact Or.inl hold
      · exact nomatch hcreator
  | request c ev =>
    obtain ⟨o, -, -, -, rfl⟩ := request_step h
    rcases residual_send (s := s) hresidual rfl rfl with ⟨hold, -⟩ | hcreator
    · exact Or.inl hold
    · exact Or.inr hcreator
  | updatePanes panes =>
    obtain rfl := send_eq_some h
    rcases residual_send (s := s) hresidual rfl rfl with ⟨hold, -⟩ | hcreator
    · exact Or.inl hold
    · exact nomatch hcreator
  | size env sz =>
    obtain ⟨e', out, hr, rfl⟩ := receive_eq_some h
    exact Or.inl (residual_receive (fun ev => by simp) hr hresidual)
  | colors env colors =>
    obtain ⟨e', out, hr, rfl⟩ := receive_eq_some h
    exact Or.inl (residual_receive (fun ev => by simp) hr hresidual)
  | handle env =>
    simp only [Step, next] at h
    split at h
    · exact nomatch h
    · rename_i ev rest hevents
      obtain ⟨e', out, hr, rfl⟩ := receive_eq_some h
      exact Or.inl (residual_handle hevents hr hresidual)

/-! ## Owners -/

/-- A `ClientDisconnect` for the ID is queued, or the teardown of a connection or the reaper is
    about to send one. -/
def DisconnectPending (s : System) (id : ClientID) : Prop :=
  Event.clientDisconnect id ∈ s.events ∨ id ∈ s.server.expiredClientIDs ∨
    ∃ (k : ClientRef) (o : Client), s.server.heap[k]? = some o ∧ Server.TornDown o ∧ o.ID = id

/-- Every client that owns engine state has an open connection or a session, or a disconnect
    still to be delivered. -/
def Reclaimable (s : System) : Prop :=
  ∀ id, s.engine.Owns id →
    (∃ (k : ClientRef) (o : Client), s.server.heap[k]? = some o ∧ o.Open ∧ o.ID = id) ∨
    (∃ (sid : String) (sess : Session), s.server.sessions[sid]? = some sess ∧
      sess.clientID = id) ∨
    s.DisconnectPending id

/-- The step abandons no client ID with state, and creates none under an abandoned one: what
    takes away the last thing that stands for an ID finds nothing left under it, and a
    connection that a takeover has closed creates state only under an ID that something else
    stands for. -/
structure KeepsOwners (s : System) (a : Action) : Prop where
  abandons : ∀ b id, a = .server b → s.server.Abandons b id → ¬ s.Residual id
  closed : ∀ c ev id o, a = .request c ev → ev.creator? = some id →
    s.server.heap[c]? = some o → o.evicted = true → s.server.Backed c id

/-- Something stands for every client with state. -/
structure Owned (newString : Nat → ClientID) (s : System) : Prop where
  registered : s.server.Registered newString
  standing : ∀ id, s.Residual id → s.server.Standing id

/-- Where everything residual has an owner, all state is reclaimable. -/
theorem Owned.has_owner (h : Owned newString s) : s.Reclaimable := by
  intro id howns
  rcases residual_of_owns howns with hresidual | hqueued
  · rcases h.standing id hresidual with ⟨k, o, ho, hopen | htorn, hid⟩ | hsess | hmem
    · exact Or.inl ⟨k, o, ho, hopen, hid⟩
    · exact Or.inr (Or.inr (Or.inr (Or.inr ⟨k, o, ho, htorn, hid⟩)))
    · exact Or.inr (Or.inl hsess)
    · exact Or.inr (Or.inr (Or.inr (Or.inl hmem)))
  · exact Or.inr (Or.inr (Or.inl hqueued))

/-- A step that leaves the server as it was and no client with more state. -/
theorem Owned.of_residual (hs : Owned newString s) (hserver : s'.server = s.server)
    (h : ∀ id, s'.Residual id → s.Residual id) : Owned newString s' := by
  constructor
  · rw [hserver]
    exact hs.registered
  · intro id hresidual
    rw [hserver]
    exact hs.standing id (h id hresidual)

/-- A step that keeps the owners keeps everything residual owned. -/
theorem owned_step (hs : Owned newString s) (hkeeps : s.KeepsOwners a)
    (h : Step newString hash128 s a s') : Owned newString s' := by
  cases a with
  | server b =>
    obtain ⟨hserver, hengine, hsent⟩ := server_step h
    refine ⟨Server.registered_step hs.registered hserver, fun id hresidual => ?_⟩
    -- what has state after the step had it before, and is not what the step reports
    have hbefore : s.Residual id ∧ s'.server.disconnected ≠ s.server.disconnected ++ [id] := by
      rcases hsent with ⟨hsame, hevents⟩ | ⟨id', hone, hevents⟩
      · rw [Residual, hengine, hevents] at hresidual
        refine ⟨hresidual, ?_⟩
        rw [hsame]
        exact fun heq => absurd (congrArg List.length heq) (by simp)
      · rcases residual_send hresidual hengine hevents with ⟨hold, hne⟩ | hcreator
        · refine ⟨hold, fun heq => hne ?_⟩
          rw [hone] at heq
          obtain rfl := List.singleton_inj.mp (List.append_cancel_left heq)
          rfl
        · exact nomatch hcreator
    rcases Server.standing_step hs.registered hserver (hs.standing id hbefore.1) with
      hstands | habandons | hreported
    · exact hstands
    · exact absurd hbefore.1 (hkeeps.abandons b id rfl habandons)
    · exact absurd hreported hbefore.2
  | request c ev =>
    obtain ⟨o, ho, hpoint, hclient, rfl⟩ := request_step h
    refine ⟨hs.registered, fun id hresidual => ?_⟩
    rcases residual_step h hresidual with hold | hcreator
    · exact hs.standing id hold
    · -- the request creates state under the connection's own ID
      show s.server.Standing id
      have hid : o.ID = id := by
        rw [clientID?_of_creator? hcreator] at hclient
        rcases hclient with hnone | hsome
        · exact nomatch hnone
        · exact (Option.some.inj hsome).symm
      cases hevicted : o.evicted with
      | true => exact (hkeeps.closed c ev id o rfl hcreator ho hevicted).standing
      | false =>
        rw [← hid]
        exact Server.standing_self ho (Or.inl ⟨Or.inl hpoint, hevicted⟩)
  | updatePanes | size | colors | handle =>
    rcases server_cases h with hserver | ⟨b, hb, -⟩
    · exact hs.of_residual hserver fun id hid => (residual_step h hid).resolve_right nofun
    · exact nomatch hb

variable {gfx notifier stopFunc inTmux : Bool} {maxSize : Int}
  {tr : List (Transition System Action)}

/-- At first nobody has state. -/
theorem not_residual_new (id : ClientID) :
    ¬ (new (.new gfx notifier stopFunc inTmux maxSize)).Residual id := by
  rintro (⟨howns, -⟩ | ⟨before, ev, after, heq, -⟩)
  · rcases howns with ⟨pid, p, hp, -⟩ | hmem | ⟨w, win, hwin, -⟩
    · simp [new, Engine.new] at hp
    · simp [new, Engine.new] at hmem
    · simp [new, Engine.new] at hwin
  · have hlength := congrArg List.length heq
    simp [new] at hlength

theorem owned_new : Owned newString (new (.new gfx notifier stopFunc inTmux maxSize)) :=
  ⟨Server.registered_new, fun id hresidual => absurd hresidual (not_residual_new id)⟩

/-- In every run in which no step abandons a client ID with state, every client that owns a
    placement, a handle table or a window in a state reached has an open connection or a
    session, or a disconnect still to be delivered. -/
theorem reclaimable
    (h : Run (Step newString hash128) (new (.new gfx notifier stopFunc inTmux maxSize)) tr s)
    (hkeeps : ∀ t ∈ tr, t.pre.KeepsOwners t.label) : ∀ t ∈ tr, t.post.Reclaimable := by
  intro t ht
  obtain ⟨tr₁, tr₂, rfl, hrun, hs⟩ := h.exists_split ht
  have howned : Owned newString t.pre := by
    refine Run.invariant (I := Owned newString) owned_new (fun s a s' hs hstep => ?_)
      (hrun.restrict (C := fun t => t.pre.KeepsOwners t.label) fun t' ht' =>
        hkeeps t' (List.mem_append_left _ ht'))
    exact owned_step hs hstep.2 hstep.1
  exact (owned_step howned (hkeeps t ht) hs).has_owner

/-- Only who has asked for state has any. -/
theorem creates_of_residual
    (h : Run (Step newString hash128) (new (.new gfx notifier stopFunc inTmux maxSize)) tr s)
    (hresidual : s.Residual id) : ∃ t ∈ tr, creates t.label = some id := by
  refine h.historyInvariant (I := fun tr s =>
    ∀ id, s.Residual id → ∃ t ∈ tr, creates t.label = some id) ?_ ?_ id hresidual
  · exact fun id hresidual => absurd hresidual (not_residual_new id)
  · intro tr s a s' _ ih hs id hresidual
    rcases residual_step hs hresidual with hold | hcreates
    · obtain ⟨t, ht, hcreates⟩ := ih id hold
      exact ⟨t, List.mem_append_left _ ht, hcreates⟩
    · exact ⟨_, List.mem_append_right _ (List.mem_singleton_self _), hcreates⟩

/-- While one client alone asks for state and no connection has been closed by a takeover, the
    client's ID is all that must not be abandoned. -/
theorem keepsOwners_of_creates
    (h : Run (Step newString hash128) (new (.new gfx notifier stopFunc inTmux maxSize)) tr s)
    (honly : ∀ t ∈ tr, ∀ id' ∈ creates t.label, id' = id)
    (hopen : ∀ o ∈ s.server.heap, o.evicted = false)
    (hkeeps : ∀ b, a = .server b → ¬ s.server.Abandons b id) : s.KeepsOwners a := by
  constructor
  · intro b id' hb habandons hresidual
    obtain ⟨t, ht, hcreates⟩ := creates_of_residual h hresidual
    obtain rfl := honly t ht id' hcreates
    exact hkeeps b hb habandons
  · intro c ev id' o _ _ ho hevicted
    rw [hopen o (List.mem_of_getElem? ho)] at hevicted
    exact nomatch hevicted

/-- The step does not take the client's ID from the connection that has it, and a stateless
    connection of that ID leaves its session behind. -/
def leavesID (id : ClientID) (t : Transition System Action) : Bool :=
  match t.label with
  | .server (.setStateless _) =>
    t.pre.server.heap.all fun o => o.ID != id || o.point.session?.all fun x => x.2 == id
  | .server (.serveEnd _) =>
    t.pre.server.heap.all (fun o => o.ID != id || !o.stateless) ||
      (GoMap.entries default t.pre.server.sessions).any fun x => x.2.clientID == id
  | _ => true

/-- A step that leaves the ID alone takes no owner away, as long as nobody was evicted. -/
theorem not_abandons_of_leavesID {t : Transition System Action} (h : leavesID id t = true)
    (hopen : ∀ o ∈ t.pre.server.heap, o.evicted = false) {b : Server.Action}
    (hb : t.label = .server b) : ¬ t.pre.server.Abandons b id := by
  intro habandons
  cases habandons with
  -- the session's ID is the one the connection has
  | @rename c o sessionID clientID ho hpoint hne =>
    simp only [leavesID, hb, List.all_eq_true] at h
    have hsame := h o (List.mem_of_getElem? ho)
    rw [hpoint] at hsame
    simp only [ConnPoint.session?, Option.all_some, bne_self_eq_false, Bool.false_or,
      beq_iff_eq] at hsame
    exact hne hsame
  | evict ho _ hevicted =>
    rw [hopen _ (List.mem_of_getElem? ho)] at hevicted
    cases hevicted
  | @serveEnd c o ho hstateless hlast =>
    simp only [leavesID, hb, Bool.or_eq_true, List.all_eq_true, List.any_eq_true] at h
    rcases h with hall | ⟨x, hx, hid⟩
    · have hnot := hall o (List.mem_of_getElem? ho)
      rw [hstateless] at hnot
      simp at hnot
    · -- the session stands for the ID
      exact hlast (Or.inr (Or.inl ⟨x.1, x.2, (GoMap.mem_entries ..).mp hx, by simpa using hid⟩))

/-- A window registration by the client `id`. -/
def registerWindow (id : ClientID) : Event := .registerWin id ⟨1000, "", 2, 0, 10, 10, 0⟩

/-- A connection with a session registers a window and ends, and another one takes the session
    up and ends; then the reaper finds the session idle for too long. -/
def reapedActions : List Action :=
  [.server .accept, .server (.hello 0 "s"), .server (.setStateless 0),
    .request 0 (registerWindow (Server.unary 0)), .handle default,
    .server (.serveEnd 0), .server (.removeClient 0), .server (.closeClient 0),
    .server .accept, .server (.hello 1 "s"), .server (.setStateless 1),
    .server (.serveEnd 1), .server (.removeClient 1), .server (.closeClient 1),
    .server (.elapse (sessionIdleTimeout + 1)), .server (.reapSessions default),
    .server .reapNotify, .handle default]

def reapedRun : Option (List (Transition System Action) × System) :=
  Run.follow (next Server.unary Script.firstByte) (new (.new true true true false 1)) reapedActions

theorem isSome_reapedRun : reapedRun.isSome := by decide

/-- The window is still there once the second connection has the session's ID, and gone after the
    session is reaped. -/
theorem reclaimable_reaped :
    ∃ tr s, Run (Step Server.unary Script.firstByte) (new (.new true true true false 1)) tr s ∧
      (∃ t ∈ tr, t.post.server.notifyClient (Server.unary 0) = some 1 ∧
        t.post.engine.wins.contains 1000 = true) ∧
      s.engine.wins.contains 1000 = false ∧ ∀ t ∈ tr, t.post.Reclaimable := by
  have hrun : Run (Step Server.unary Script.firstByte) _ _ _ := Run.of_follow _ _ _ isSome_reapedRun
  have honly : ∀ t ∈ (reapedRun.get isSome_reapedRun).1,
      (creates t.label).all (· == Server.unary 0) = true := by decide
  have hopen : ∀ t ∈ (reapedRun.get isSome_reapedRun).1, ∀ o ∈ t.pre.server.heap,
      o.evicted = false := by decide
  have hleaves : ∀ t ∈ (reapedRun.get isSome_reapedRun).1, leavesID (Server.unary 0) t = true := by
    decide
  refine ⟨_, _, hrun, by decide, by decide, reclaimable hrun ?_⟩
  -- the condition is on every step, so each is taken with the run before it
  intro t ht
  obtain ⟨tr₁, tr₂, heq, hrun₁, -⟩ := hrun.exists_split ht
  have honly' : ∀ t' ∈ tr₁, ∀ id' ∈ creates t'.label, id' = Server.unary 0 := by
    intro t' ht' id' hid'
    have hall := honly t' (heq ▸ List.mem_append_left _ ht')
    rw [hid'] at hall
    simpa using hall
  exact keepsOwners_of_creates hrun₁ honly' (hopen t ht) fun b hb =>
    not_abandons_of_leavesID (hleaves t ht) (hopen t ht) hb

/-- A connection registers a window before it says hello with the session of another one. -/
def windowFirstActions : List Action :=
  [.server .accept, .server (.hello 0 "s"), .server (.setStateless 0), .server .accept,
    .request 1 (registerWindow (Server.unary 1)), .handle default,
    .server (.hello 1 "s"), .server (.setStateless 1)]

/-- The connection then has the session's client ID, and nothing stands for the ID that has the
    window. -/
theorem reclaimable_fails :
    ∃ tr s, Run (Step Server.unary Script.firstByte) (new (.new true true true false 1)) tr s ∧
      ¬ s.Reclaimable := by
  have hrun := Run.of_follow (next Server.unary Script.firstByte)
    (new (.new true true true false 1)) windowFirstActions (by decide)
  refine ⟨_, _, hrun, fun h => ?_⟩
  generalize hs : ((Run.follow (next Server.unary Script.firstByte)
    (new (.new true true true false 1)) windowFirstActions).get (by decide)).2 = s at h
  -- the window is still there under the second client's ID, and
  -- nothing is left that would remove it
  have howns : ∃ win, s.engine.wins[(1000 : Int64)]? = some win ∧
      win.clientID = Server.unary 1 := by
    rw [← hs]
    exact ⟨_, (Option.some_get (by decide)).symm, by decide⟩
  have hheap : ∀ o ∈ s.server.heap, o.ID ≠ Server.unary 1 := by
    rw [← hs]
    decide
  have hsessions : ∀ x ∈ GoMap.entries default s.server.sessions,
      x.2.clientID ≠ Server.unary 1 := by
    rw [← hs]
    decide
  have hpending : Event.clientDisconnect (Server.unary 1) ∉ s.events ∧
      Server.unary 1 ∉ s.server.expiredClientIDs := by
    rw [← hs]
    decide
  obtain ⟨win, hwin, hid⟩ := howns
  rcases h (Server.unary 1) (Or.inr (Or.inr ⟨1000, win, hwin, hid⟩)) with
    ⟨k, o, ho, -, hid'⟩ | ⟨sid, sess, hsess, hid'⟩ | hqueued | hmem | ⟨k, o, ho, -, hid'⟩
  · exact hheap o (List.mem_of_getElem? ho) hid'
  · exact hsessions (sid, sess) ((GoMap.mem_entries ..).mpr hsess) hid'
  · exact hpending.1 hqueued
  · exact hpending.2 hmem
  · exact hheap o (List.mem_of_getElem? ho) hid'

end System

end Kgd
