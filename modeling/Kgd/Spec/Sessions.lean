import Kgd.Spec.Notifications

/-!
# Sessions of stateless clients

`RegisterSession` files a new session under the client ID that the connection holds at that
moment. An earlier hello may have replaced that ID by another session's, and nothing checks that
it is the connection's own: then two sessions are filed under one client ID.

## Key results

- `Server.session_step`: where a session of the next state comes from
- `Server.isolated_iff`: sessions keep client IDs of their own exactly when no hello creates a
  session under an ID that a session or the reaper still has
- `Server.isolated_fails`: a connection that says hello twice
-/

namespace Kgd

namespace Server

variable {newString : Nat → ClientID} {s s' : Server} {a : Action}

/-! ## Where sessions come from -/

/-- The action refreshes the session: a hello that names it, or the end of a stateless
    connection that named it. -/
def Touches (s : Server) (a : Action) (sessionID : String) : Prop :=
  (sessionID ≠ "" ∧ ∃ c, a = .hello c sessionID) ∨
    ∃ c o, a = .closeClient c ∧ s.heap[c]? = some o ∧ o.stateless = true ∧ o.sessionID = sessionID

/-- The action is a hello that creates the session under `clientID`, the caller's current ID. -/
def Creates (s : Server) (a : Action) (sessionID : String) (clientID : ClientID) : Prop :=
  sessionID ≠ "" ∧ s.sessions[sessionID]? = none ∧
    ∃ c o, a = .hello c sessionID ∧ s.heap[c]? = some o ∧ o.ID = clientID

@[simp] theorem sessions_modify (c : ClientRef) (f : Client → Client) :
    (s.modify c f).sessions = s.sessions := rfl

@[simp] theorem expiredClientIDs_modify (c : ClientRef) (f : Client → Client) :
    (s.modify c f).expiredClientIDs = s.expiredClientIDs := rfl

/-- A takeover leaves the sessions. -/
@[simp] theorem sessions_setStateless (c : ClientRef) (id clientID : ClientID)
    (sessionID : String) : (s.setStateless c id sessionID clientID).sessions = s.sessions := by
  simp only [setStateless, updateClientID]
  split
  · split <;> rfl
  · rfl

@[simp] theorem expiredClientIDs_setStateless (c : ClientRef) (id clientID : ClientID)
    (sessionID : String) :
    (s.setStateless c id sessionID clientID).expiredClientIDs = s.expiredClientIDs := by
  simp only [setStateless, updateClientID]
  split
  · split <;> rfl
  · rfl

@[simp] theorem expiredClientIDs_registerSession (sessionID : String) (clientID : ClientID) :
    (s.registerSession sessionID clientID).1.expiredClientIDs = s.expiredClientIDs := by
  unfold registerSession
  split <;> rfl

@[simp] theorem heap_registerSession (sessionID : String) (clientID : ClientID) :
    (s.registerSession sessionID clientID).1.heap = s.heap := by
  unfold registerSession
  split <;> rfl

@[simp] theorem expiredClientIDs_closeClient (o : Client) :
    (s.closeClient o).expiredClientIDs = s.expiredClientIDs := by
  unfold closeClient
  split
  · split <;> rfl
  · rfl

@[simp] theorem heap_closeClient (o : Client) : (s.closeClient o).heap = s.heap := by
  unfold closeClient
  split
  · split <;> rfl
  · rfl

/-- What is known of a session after a step that may have refreshed or created it. -/
inductive SessionOrigin (s : Server) (a : Action) (sessionID : String) (sess' : Session) : Prop
  | kept (hnot : ¬ Touches s a sessionID) (hsess : s.sessions[sessionID]? = some sess')
  | touched {sess : Session} (htouch : Touches s a sessionID)
      (hsess : s.sessions[sessionID]? = some sess) (hid : sess'.clientID = sess.clientID)
      (hnow : sess'.lastSeen = s.now)
  | created (htouch : Touches s a sessionID) (hcreates : Creates s a sessionID sess'.clientID)
      (hnow : sess'.lastSeen = s.now)

/-- The actions that may touch a session. -/
def Action.isTouching : Action → Bool
  | .hello .. | .closeClient .. => true
  | .accept | .setStateless .. | .serveEnd .. | .removeClient .. | .elapse ..
  | .reapSessions .. | .reapNotify => false

/-- An action that is no hello and no disconnect touches no session. -/
theorem not_touches_of (h : a.isTouching = false) (sessionID : String) :
    ¬ Touches s a sessionID := by
  intro htouch
  rcases htouch with ⟨-, c, rfl⟩ | ⟨c, -, rfl, -⟩
  · exact nomatch h
  · exact nomatch h

/-- A step that neither says hello nor ends a connection creates no session and touches none. -/
theorem session_step (h : Step newString s a s') {sessionID : String} {sess' : Session}
    (hsess' : s'.sessions[sessionID]? = some sess') : SessionOrigin s a sessionID sess' := by
  cases moves_of_step h with
  | accept => exact .kept (not_touches_of rfl _) hsess'
  | hello ho hpoint hempty =>
    refine .kept (fun htouch => ?_) hsess'
    rcases htouch with ⟨hne, c', heq⟩ | ⟨c', -, heq, -⟩
    · obtain ⟨-, rfl⟩ := Action.hello.inj heq
      exact hne hempty
    · cases heq
  | @register c o sid ho hpoint hsession =>
    rw [sessions_modify] at hsess'
    unfold registerSession at hsess'
    split at hsess'
    -- a known session gets a new time
    · rename_i sess hsess
      rcases GoMap.getElem?_insert_eq_some.mp hsess' with ⟨rfl, rfl⟩ | ⟨hne, hold⟩
      · exact .touched (Or.inl ⟨hsession, c, rfl⟩) hsess rfl rfl
      · refine .kept (fun htouch => ?_) hold
        rcases htouch with ⟨-, c', heq⟩ | ⟨c', -, heq, -⟩
        · exact hne (Action.hello.inj heq).2.symm
        · cases heq
    · rename_i hnone
      rcases GoMap.getElem?_insert_eq_some.mp hsess' with ⟨rfl, rfl⟩ | ⟨hne, hold⟩
      · exact .created (Or.inl ⟨hsession, c, rfl⟩) ⟨hsession, hnone, c, o, rfl, ho, rfl⟩ rfl
      · refine .kept (fun htouch => ?_) hold
        rcases htouch with ⟨-, c', heq⟩ | ⟨c', -, heq, -⟩
        · exact hne (Action.hello.inj heq).2.symm
        · cases heq
  | setStateless =>
    rw [sessions_modify, sessions_setStateless] at hsess'
    exact .kept (not_touches_of rfl _) hsess'
  | serveEnd => exact .kept (not_touches_of rfl _) hsess'
  | removeClient => exact .kept (not_touches_of rfl _) hsess'
  | @closeClient c o ho hpoint =>
    rw [sessions_modify] at hsess'
    by_cases hown : o.stateless = true ∧ o.sessionID = sessionID
    · obtain ⟨hstateless, rfl⟩ := hown
      have htouch : Touches s (.closeClient c) o.sessionID :=
        Or.inr ⟨c, o, rfl, ho, hstateless, rfl⟩
      unfold closeClient at hsess'
      rw [if_pos hstateless] at hsess'
      split at hsess'
      · rename_i sess hsess
        rcases GoMap.getElem?_insert_eq_some.mp hsess' with ⟨-, rfl⟩ | ⟨hne, -⟩
        · exact .touched htouch hsess rfl rfl
        · exact absurd rfl hne
      · -- the session has been deleted while the connection was open
        rename_i hnone
        rw [hnone] at hsess'
        cases hsess'
    · have hnot : ¬ Touches s (.closeClient c) sessionID := by
        intro htouch
        rcases htouch with ⟨-, c', heq⟩ | ⟨c', o', heq, ho', hown'⟩
        · cases heq
        · obtain rfl := Action.closeClient.inj heq
          obtain rfl := Option.some.inj (ho.symm.trans ho')
          exact hown hown'
      refine .kept hnot ?_
      unfold closeClient at hsess'
      split at hsess'
      · rename_i hstateless
        split at hsess'
        · rcases GoMap.getElem?_insert_eq_some.mp hsess' with ⟨rfl, -⟩ | ⟨-, hold⟩
          · exact absurd ⟨hstateless, rfl⟩ hown
          · exact hold
        · exact hsess'
      · exact hsess'
  | elapse => exact .kept (not_touches_of rfl _) hsess'
  | reapSessions order =>
    refine .kept (not_touches_of rfl _) ?_
    simp only [reapSessions, GoMap.rangeUpdate_getElem?, Option.bind_eq_some_iff] at hsess'
    obtain ⟨sess, hsess, hkept⟩ := hsess'
    unfold reapSession at hkept
    split at hkept
    · cases hkept
    · obtain rfl := Option.some.inj hkept
      exact hsess
  | reapNotify => exact .kept (not_touches_of rfl _) hsess'

/-! ## Client IDs of their own -/

/-- Different sessions have different client IDs, and none of them is one whose state the
    reaper is about to have removed. -/
structure Isolated (s : Server) : Prop where
  distinct : ∀ (sid sid' : String) (sess sess' : Session), s.sessions[sid]? = some sess →
    s.sessions[sid']? = some sess' → sid ≠ sid' → sess.clientID ≠ sess'.clientID
  reaped : ∀ clientID ∈ s.expiredClientIDs, ∀ (sid : String) (sess : Session),
    s.sessions[sid]? = some sess → sess.clientID ≠ clientID

/-- A hello that creates a session does so under a client ID that no other session has and
    that the reaper has not still to report. -/
def CreatesUnderOwnID (s : Server) (a : Action) : Prop :=
  ∀ (sid : String) (clientID : ClientID), Creates s a sid clientID →
    (∀ (sid' : String) (sess : Session), s.sessions[sid']? = some sess →
      sess.clientID ≠ clientID) ∧ clientID ∉ s.expiredClientIDs

theorem isolated_new : Isolated new := by
  constructor <;> simp [new]

/-- A tick has to report the client IDs of the sessions it deletes. -/
theorem mem_expiredClientIDs_reapSessions {order : RangeOrder String} {clientID : ClientID} :
    clientID ∈ (s.reapSessions order).expiredClientIDs ↔
      ∃ (sid : String) (sess : Session), s.sessions[sid]? = some sess ∧
        sessionIdleTimeout < s.now - sess.lastSeen ∧ sess.clientID = clientID := by
  simp only [reapSessions, GoMap.mem_rangeUpdate_snd]
  constructor
  · intro h
    obtain ⟨sid, sess, hsess, hmem⟩ := h
    unfold reapSession at hmem
    split at hmem
    -- an idle session is reported and deleted in one turn
    · rename_i hidle
      exact ⟨sid, sess, hsess, hidle, (List.mem_singleton.mp hmem).symm⟩
    · cases hmem
  · intro h
    obtain ⟨sid, sess, hsess, hidle, rfl⟩ := h
    exact ⟨sid, sess, hsess, by simp [reapSession, hidle]⟩

/-- The sessions that a tick keeps are those seen within the timeout. -/
theorem getElem?_sessions_reapSessions {order : RangeOrder String} {sid : String}
    {sess : Session} :
    (s.reapSessions order).sessions[sid]? = some sess ↔
      s.sessions[sid]? = some sess ∧ ¬ sessionIdleTimeout < s.now - sess.lastSeen := by
  simp only [reapSessions, GoMap.rangeUpdate_getElem?, Option.bind_eq_some_iff]
  constructor
  · intro h
    obtain ⟨sess', hsess', hkept⟩ := h
    unfold reapSession at hkept
    split at hkept
    · cases hkept
    · rename_i hfresh
      obtain rfl := Option.some.inj hkept
      exact ⟨hsess', hfresh⟩
  · intro h
    obtain ⟨hsess, hfresh⟩ := h
    exact ⟨sess, hsess, by simp [reapSession, hfresh]⟩

/-- A step after which every session has the client ID it had, none is new, and no further
    client ID is to be reported. -/
theorem Isolated.of_sessions (hs : Isolated s)
    (hsessions : ∀ (sid : String) (sess' : Session), s'.sessions[sid]? = some sess' →
      ∃ sess, s.sessions[sid]? = some sess ∧ sess'.clientID = sess.clientID)
    (hexpired : ∀ clientID ∈ s'.expiredClientIDs, clientID ∈ s.expiredClientIDs) :
    Isolated s' := by
  constructor
  · intro sid sid' sess₁ sess₁' h h' hne
    obtain ⟨sess, hsess, hid⟩ := hsessions sid sess₁ h
    -- both sessions were there before, with the IDs they have
    obtain ⟨sess', hsess', hid'⟩ := hsessions sid' sess₁' h'
    rw [hid, hid']
    exact hs.distinct sid sid' sess sess' hsess hsess' hne
  · intro clientID hmem sid sess₁ h
    obtain ⟨sess, hsess, hid⟩ := hsessions sid sess₁ h
    rw [hid]
    exact hs.reaped clientID (hexpired clientID hmem) sid sess hsess

/-- A hello creates a session: the only step that puts a client ID beside the others. -/
theorem isolated_create {sid : String} {clientID : ClientID} (hs : Isolated s)
    (hnone : s.sessions[sid]? = none) (hexpired : s'.expiredClientIDs = s.expiredClientIDs)
    (hsessions : s'.sessions = s.sessions.insert sid ⟨clientID, s.now⟩) :
    Isolated s' ↔
      (∀ (sid' : String) (sess : Session), s.sessions[sid']? = some sess →
        sess.clientID ≠ clientID) ∧ clientID ∉ s.expiredClientIDs := by
  -- the new session is the only one that differs, and the ID it has is all that can clash
  have hnew : s'.sessions[sid]? = some ⟨clientID, s.now⟩ := by
    rw [hsessions]
    exact Std.ExtTreeMap.getElem?_insert_self
  have hother : ∀ (sid' : String) (sess : Session), s.sessions[sid']? = some sess →
      sid' ≠ sid ∧ s'.sessions[sid']? = some sess := by
    intro sid' sess hsess
    have hne : sid' ≠ sid := by
      intro heq
      rw [heq, hnone] at hsess
      exact nomatch hsess
    rw [hsessions, GoMap.getElem?_insert_ne _ _ hne]
    exact ⟨hne, hsess⟩
  constructor
  · intro hs'
    constructor
    · intro sid' sess hsess
      obtain ⟨hne, hsess'⟩ := hother sid' sess hsess
      exact hs'.distinct sid' sid sess _ hsess' hnew hne
    · intro hmem
      exact hs'.reaped clientID (hexpired ▸ hmem) sid _ hnew rfl
  · intro hown
    obtain ⟨hunused, hunreported⟩ := hown
    constructor
    · -- two sessions after the step: either of them may be the new one
      intro sid₁ sid₂ sess₁ sess₂ h₁ h₂ hne
      rw [hsessions] at h₁ h₂
      rcases GoMap.getElem?_insert_eq_some.mp h₁ with ⟨rfl, rfl⟩ | ⟨-, hold₁⟩
      · rcases GoMap.getElem?_insert_eq_some.mp h₂ with ⟨rfl, -⟩ | ⟨-, hold₂⟩
        · exact absurd rfl hne
        · exact Ne.symm (hunused sid₂ sess₂ hold₂)
      · rcases GoMap.getElem?_insert_eq_some.mp h₂ with ⟨rfl, rfl⟩ | ⟨-, hold₂⟩
        · exact hunused sid₁ sess₁ hold₁
        · exact hs.distinct sid₁ sid₂ sess₁ sess₂ hold₁ hold₂ hne
    · intro id hmem sid₁ sess₁ h₁
      rw [hexpired] at hmem
      rw [hsessions] at h₁
      rcases GoMap.getElem?_insert_eq_some.mp h₁ with ⟨rfl, rfl⟩ | ⟨-, hold₁⟩
      · rintro rfl
        exact hunreported hmem
      · exact hs.reaped id hmem sid₁ sess₁ hold₁

/-- A step keeps sessions isolated exactly if it creates none under an ID in use. -/
theorem isolated_step (hs : Isolated s) (h : Step newString s a s') :
    Isolated s' ↔ CreatesUnderOwnID s a := by
  -- every step but a creating hello leaves the client IDs of the sessions as they were
  have hquiet : (∀ sid clientID, ¬ Creates s a sid clientID) →
      (∀ clientID ∈ s'.expiredClientIDs, clientID ∈ s.expiredClientIDs) →
      (Isolated s' ↔ CreatesUnderOwnID s a) := by
    intro hnone hexpired
    refine iff_of_true (hs.of_sessions (fun sid sess' hsess' => ?_) hexpired) ?_
    · cases session_step h hsess' with
      | kept _ hsess => exact ⟨sess', hsess, rfl⟩
      | touched _ hsess hid => exact ⟨_, hsess, hid⟩
      | created _ hcreates => exact absurd hcreates (hnone _ _)
    · exact fun sid clientID hcreates => absurd hcreates (hnone sid clientID)
  have hquiet' : (∀ c sid, a ≠ .hello c sid) → ∀ sid clientID, ¬ Creates s a sid clientID := by
    intro hne sid clientID hcreates
    obtain ⟨-, -, c, -, heq, -⟩ := hcreates
    exact hne c sid heq
  cases moves_of_step h with
  | accept => exact hquiet (hquiet' (by simp)) fun _ hmem => hmem
  | hello ho hpoint hempty =>
    refine hquiet (fun sid clientID hcreates => ?_) fun _ hmem => hmem
    obtain ⟨hne, -, c', -, heq, -⟩ := hcreates
    exact hne ((Action.hello.inj heq).2 ▸ hempty)
  | @register c o sid ho hpoint hsession =>
    cases hsess : s.sessions[sid]? with
    | some sess =>
      refine hquiet (fun sid' clientID hcreates => ?_) fun _ hmem => by simpa using hmem
      obtain ⟨-, hnone, c', -, heq, -⟩ := hcreates
      obtain ⟨-, rfl⟩ := Action.hello.inj heq
      rw [hsess] at hnone
      exact nomatch hnone
    | none =>
      have hsessions : ((s.registerSession sid o.ID).1.modify c fun o' =>
          { o' with point := .registered sid (s.registerSession sid o.ID).2 }).sessions =
          s.sessions.insert sid ⟨o.ID, s.now⟩ := by
        rw [sessions_modify]
        simp only [registerSession, hsess]
      rw [isolated_create hs hsess (by simp) hsessions]
      constructor
      · intro hown sid' clientID hcreates
        obtain ⟨-, -, c', o', heq, ho', rfl⟩ := hcreates
        obtain ⟨rfl, rfl⟩ := Action.hello.inj heq
        obtain rfl := Option.some.inj (ho.symm.trans ho')
        exact hown
      · intro hown
        exact hown sid o.ID ⟨hsession, hsess, c, o, rfl, ho, rfl⟩
  | setStateless => exact hquiet (hquiet' (by simp)) fun _ hmem => by simpa using hmem
  | serveEnd => exact hquiet (hquiet' (by simp)) fun _ hmem => hmem
  | removeClient => exact hquiet (hquiet' (by simp)) fun _ hmem => hmem
  | closeClient => exact hquiet (hquiet' (by simp)) fun _ hmem => by simpa using hmem
  | elapse => exact hquiet (hquiet' (by simp)) fun _ hmem => hmem
  | reapNotify hexpired =>
    refine hquiet (hquiet' (by simp)) fun _ hmem => ?_
    rw [hexpired]
    exact List.mem_cons_of_mem _ hmem
  | reapSessions order =>
    refine iff_of_true ?_ fun sid clientID hcreates => absurd hcreates (hquiet' (by simp) _ _)
    constructor
    · intro sid sid' sess sess' hsess hsess' hne
      exact hs.distinct sid sid' sess sess' (getElem?_sessions_reapSessions.mp hsess).1
        (getElem?_sessions_reapSessions.mp hsess').1 hne
    · -- a deleted session's client ID is that of no session which is left
      intro clientID hmem sid sess hsess heq
      obtain ⟨sid', sess', hsess', hidle, hid⟩ := mem_expiredClientIDs_reapSessions.mp hmem
      obtain ⟨hold, hfresh⟩ := getElem?_sessions_reapSessions.mp hsess
      by_cases hsid : sid = sid'
      · subst hsid
        obtain rfl := Option.some.inj (hold.symm.trans hsess')
        exact hfresh hidle
      · exact hs.distinct sid sid' sess sess' hold hsess' hsid (heq.trans hid.symm)

/-- In every run, sessions keep client IDs of their own exactly when every hello that creates
    a session does so under an ID that no session and no unreported reap has. -/
theorem isolated_iff {tr : List (Transition Server Action)}
    (h : Run (Step newString) new tr s) :
    (∀ t ∈ tr, Isolated t.post) ↔ ∀ t ∈ tr, CreatesUnderOwnID t.pre t.label :=
  h.forall_post_iff isolated_new fun _ _ _ _ _ hs hstep => isolated_step hs hstep

/-- A run with a takeover. -/
theorem isolated_iff_takeover :
    ∃ tr s, Run (Step unary) new tr s ∧
      ((∀ t ∈ tr, Isolated t.post) ↔ ∀ t ∈ tr, CreatesUnderOwnID t.pre t.label) := by
  have hrun := Run.of_follow (next unary) new takeoverActions (by decide)
  exact ⟨_, _, hrun, isolated_iff hrun⟩

/-- A connection says hello with one session ID and then with another: the second session is
    filed under the client ID of the first. -/
theorem isolated_fails :
    ∃ newString, Function.Injective newString ∧
      ∃ tr s, Run (Step newString) new tr s ∧
        ∃ (sid sid' : String) (sess sess' : Session), s.sessions[sid]? = some sess ∧
          s.sessions[sid']? = some sess' ∧ sid ≠ sid' ∧ sess.clientID = sess'.clientID := by
  have hrun := Run.of_follow (next unary) new
    [.accept, .hello 0 "a", .setStateless 0, .hello 0 "b"] (by decide)
  refine ⟨unary, unary_injective, _, _, hrun, "a", "b", ⟨unary 0, 0⟩, ⟨unary 0, 0⟩, ?_⟩
  exact ⟨rfl, rfl, by decide, rfl⟩

end Server

end Kgd
