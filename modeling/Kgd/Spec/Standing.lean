import Kgd.Spec.SessionReaping

/-!
# What stands for a client ID

A client ID is reported to the engine as disconnected by the teardown of a connection that has it
or, when a session has it, by the reaper. The links are cut in three places: `SetStateless`
replaces a connection's ID, the teardown of a stateless connection reports nothing, and a
takeover closes a connection that may still have requests to send.

## Key results

- `Server.standing_step`: what a step of the server leaves without a link
- `Server.disconnected_step`: a step reports at most one client ID
-/

namespace Kgd

namespace Server

variable {newString : Nat → ClientID} {s s' : Server} {a : Action} {id : ClientID}

/-- The goroutine of the connection will report the connection's ID to the engine. -/
def TornDown (o : Client) : Prop :=
  (o.point = .ended ∨ o.point = .removed) ∧ o.stateless = false

/-- The connection stands for its ID: it is open, or will be reported. -/
def Stands (o : Client) : Prop := o.Open ∨ TornDown o

/-- Something other than the connection `c` stands for the ID: another connection, a session,
    or the reaper that is about to report it. -/
def Backed (s : Server) (c : ClientRef) (id : ClientID) : Prop :=
  (∃ (k : ClientRef) (o : Client), k ≠ c ∧ s.heap[k]? = some o ∧ Stands o ∧ o.ID = id) ∨
    (∃ (sid : String) (sess : Session), s.sessions[sid]? = some sess ∧ sess.clientID = id) ∨
    id ∈ s.expiredClientIDs

/-- Something stands for the ID. -/
def Standing (s : Server) (id : ClientID) : Prop :=
  (∃ (k : ClientRef) (o : Client), s.heap[k]? = some o ∧ Stands o ∧ o.ID = id) ∨
    (∃ (sid : String) (sess : Session), s.sessions[sid]? = some sess ∧ sess.clientID = id) ∨
    id ∈ s.expiredClientIDs

theorem Backed.standing {c : ClientRef} (h : Backed s c id) : Standing s id := by
  rcases h with ⟨k, o, -, ho, hstands, hid⟩ | hsess | hexpired
  · exact Or.inl ⟨k, o, ho, hstands, hid⟩
  · exact Or.inr (Or.inl hsess)
  · exact Or.inr (Or.inr hexpired)

/-- What stands for an ID is the connection `c` or something else. -/
theorem Standing.cases {c : ClientRef} (h : Standing s id) :
    Backed s c id ∨ ∃ o, s.heap[c]? = some o ∧ Stands o ∧ o.ID = id := by
  rcases h with ⟨k, o, ho, hstands, hid⟩ | hsess | hexpired
  · by_cases hkc : k = c
    · exact Or.inr ⟨o, hkc ▸ ho, hstands, hid⟩
    · exact Or.inl (Or.inl ⟨k, o, hkc, ho, hstands, hid⟩)
  · exact Or.inl (Or.inr (Or.inl hsess))
  · exact Or.inl (Or.inr (Or.inr hexpired))

/-- The action takes away the last thing that stands for the ID. -/
inductive Abandons (s : Server) : Action → ClientID → Prop
  /-- a connection takes the client ID of a session for its own -/
  | rename {c o sessionID clientID} (ho : s.heap[c]? = some o)
      (hpoint : o.point = .registered sessionID clientID) (hne : clientID ≠ o.ID)
      (hlast : ¬ Backed s c o.ID) : Abandons s (.setStateless c) o.ID
  /-- a connection that is closed itself closes another one -/
  | evict {c k o sessionID clientID} (ho : s.heap[c]? = some o)
      (hpoint : o.point = .registered sessionID clientID) (hevicted : o.evicted = true)
      (hk : (s.clients.erase o.ID)[clientID]? = some k) (hlast : ¬ Backed s k clientID) :
      Abandons s (.setStateless c) clientID
  /-- a stateless connection ends, which is reported to nobody -/
  | serveEnd {c o} (ho : s.heap[c]? = some o) (hstateless : o.stateless = true)
      (hlast : ¬ Backed s c o.ID) : Abandons s (.serveEnd c) o.ID

/-- A connection moves on in its goroutine; everything else that stands for an ID still does. -/
theorem Backed.modify {c : ClientRef} (h : Backed s c id) (f : Client → Client) :
    Backed (s.modify c f) c id := by
  rcases h with ⟨k, o, hkc, ho, hstands, hid⟩ | hsess | hexpired
  · refine Or.inl ⟨k, o, hkc, ?_, hstands, hid⟩
    rw [getElem?_modify, if_neg hkc, ho]
  · exact Or.inr (Or.inl hsess)
  · exact Or.inr (Or.inr hexpired)

/-- Sessions keep their client IDs, new ones may come. -/
theorem Backed.of_sessions {c : ClientRef} (h : Backed s c id) (hheap : s'.heap = s.heap)
    (hsessions : ∀ (sid : String) (sess : Session), s.sessions[sid]? = some sess →
      ∃ sess', s'.sessions[sid]? = some sess' ∧ sess'.clientID = sess.clientID)
    (hexpired : s'.expiredClientIDs = s.expiredClientIDs) : Backed s' c id := by
  rcases h with hconn | ⟨sid, sess, hsess, hid⟩ | hmem
  · exact Or.inl (hheap ▸ hconn)
  · obtain ⟨sess', hsess', hid'⟩ := hsessions sid sess hsess
    exact Or.inr (Or.inl ⟨sid, sess', hsess', hid'.trans hid⟩)
  · exact Or.inr (Or.inr (hexpired ▸ hmem))

/-- A hello keeps every session with its client ID. -/
theorem sessions_of_registerSession (sessionID : String) (clientID : ClientID) (sid : String)
    (sess : Session) (hsess : s.sessions[sid]? = some sess) :
    ∃ sess', (s.registerSession sessionID clientID).1.sessions[sid]? = some sess' ∧
      sess'.clientID = sess.clientID := by
  unfold registerSession
  by_cases hsid : sid = sessionID
  · subst hsid
    rw [hsess]
    exact ⟨_, Std.ExtTreeMap.getElem?_insert_self, rfl⟩
  · split
    · exact ⟨sess, (GoMap.getElem?_insert_ne _ _ hsid).trans hsess, rfl⟩
    · exact ⟨sess, (GoMap.getElem?_insert_ne _ _ hsid).trans hsess, rfl⟩

theorem sessions_of_closeClient (o : Client) (sid : String) (sess : Session)
    (hsess : s.sessions[sid]? = some sess) :
    ∃ sess', (s.closeClient o).sessions[sid]? = some sess' ∧
      sess'.clientID = sess.clientID := by
  unfold closeClient
  split
  · split
    · rename_i sess₀ hsess₀
      -- the session's time is renewed and its ID kept
      by_cases hsid : sid = o.sessionID
      · subst hsid
        obtain rfl := Option.some.inj (hsess₀.symm.trans hsess)
        exact ⟨_, Std.ExtTreeMap.getElem?_insert_self, rfl⟩
      · exact ⟨sess, (GoMap.getElem?_insert_ne _ _ hsid).trans hsess, rfl⟩
    · exact ⟨sess, hsess, rfl⟩
  · exact ⟨sess, hsess, rfl⟩

/-- The connection `c` stands for an ID, whatever else does. -/
theorem standing_self {c : ClientRef} {o : Client} (ho : s.heap[c]? = some o)
    (hstands : Stands o) : Standing s o.ID := Or.inl ⟨c, o, ho, hstands, rfl⟩

/-- After `SetStateless`, its caller stands for the session's client ID if it is open. -/
theorem standing_caller {c : ClientRef} {o : Client} (sessionID : String) (clientID : ClientID)
    (ho : s.heap[c]? = some o) (hopen : o.evicted = false) :
    Standing ((s.setStateless c o.ID sessionID clientID).modify c fun o' =>
      { o' with point := .serve }) clientID := by
  refine Or.inl ⟨c, ⟨clientID, true, sessionID, .serve, o.evicted⟩, ?_, ?_, rfl⟩
  · rw [getElem?_modify, if_pos rfl, getElem?_setStateless, ho]
    simp
  · exact Or.inl ⟨Or.inl rfl, hopen⟩

/-- What stands for an ID beside connection `k` still does after `SetStateless`, where no connection
    of that ID is the caller or is evicted. -/
theorem standing_of_backed {c k : ClientRef} {o : Client} (sessionID : String) (clientID : ClientID)
    (hid : Backed s k id)
    (hkept : ∀ j o₁, j ≠ k → s.heap[j]? = some o₁ → Stands o₁ → o₁.ID = id →
      j ≠ c ∧ (s.clients.erase o.ID)[clientID]? ≠ some j) :
    Standing ((s.setStateless c o.ID sessionID clientID).modify c fun o' =>
      { o' with point := .serve }) id := by
  rcases hid with ⟨j, o₁, hjk, ho₁, hstands, hid⟩ | hsess | hmem
  · obtain ⟨hjc, hne⟩ := hkept j o₁ hjk ho₁ hstands hid
    have hbeq : ((s.clients.erase o.ID)[clientID]? == some j) = false :=
      beq_eq_false_iff_ne.mpr hne
    refine Or.inl ⟨j, o₁, ?_, hstands, hid⟩
    rw [getElem?_modify, if_neg hjc, getElem?_setStateless, ho₁, Option.map_some, if_neg hjc,
      hbeq, Bool.or_false]
  · exact Or.inr (Or.inl (by simpa using hsess))
  · exact Or.inr (Or.inr (by simpa using hmem))

/-- A connection that is closed and not torn down stands for nothing. -/
theorem not_stands {o : Client} {sessionID : String} {clientID : ClientID}
    (hpoint : o.point = .registered sessionID clientID) (hevicted : o.evicted = true) :
    ¬ Stands o := by
  rintro (⟨-, hopen⟩ | ⟨hended | hremoved, -⟩)
  · rw [hevicted] at hopen
    exact nomatch hopen
  · exact nomatch hpoint.symm.trans hended
  · exact nomatch hpoint.symm.trans hremoved

/-- `SetStateless` gives up its caller's ID, and may close the connection that had the new
    one. -/
theorem standing_setStateless (hreg : Registered newString s) {c : ClientRef} {o : Client}
    {sessionID : String} {clientID : ClientID} (ho : s.heap[c]? = some o)
    (hpoint : o.point = .registered sessionID clientID) (hid : Standing s id) :
    Standing ((s.setStateless c o.ID sessionID clientID).modify c fun o' =>
        { o' with point := .serve }) id ∨ Abandons s (.setStateless c) id := by
  by_cases hnew : id = clientID
  · subst hnew
    cases hevicted : o.evicted with
    | false => exact Or.inl (standing_caller sessionID id ho hevicted)
    | true =>
      -- a closed caller stands for nothing, so only the connection it evicts is lost
      have hcaller : ∀ j o₁, s.heap[j]? = some o₁ → Stands o₁ → j ≠ c := by
        rintro j o₁ ho₁ hstands rfl
        obtain rfl := Option.some.inj (ho.symm.trans ho₁)
        exact not_stands hpoint hevicted hstands
      cases hk : (s.clients.erase o.ID)[id]? with
      | none =>
        rcases hid.cases (c := c) with hbacked | ⟨o', ho', hstands, -⟩
        · exact Or.inl (standing_of_backed sessionID id hbacked fun j o₁ hjc _ _ _ =>
            ⟨hjc, by rw [hk]; exact nofun⟩)
        · exact absurd rfl (hcaller c o' ho' hstands)
      | some k =>
        by_cases hlast : Backed s k id
        · refine Or.inl (standing_of_backed sessionID id hlast fun j o₁ hjk ho₁ hstands _ => ?_)
          rw [hk]
          exact ⟨hcaller j o₁ ho₁ hstands, fun heq => hjk (Option.some.inj heq).symm⟩
        · exact Or.inr (.evict ho hpoint hevicted hk hlast)
  · by_cases hlast : Backed s c id
    · -- whoever is evicted has the new ID, and does not stand for this one
      refine Or.inl (standing_of_backed sessionID clientID hlast fun j o₁ hjc ho₁ _ hid₁ => ?_)
      refine ⟨hjc, fun heq => hnew ?_⟩
      obtain ⟨o₂, ho₂, hid₂⟩ := hreg.owner clientID j (GoMap.getElem?_erase_eq_some.mp heq).2
      obtain rfl := Option.some.inj (ho₁.symm.trans ho₂)
      exact hid₁.symm.trans hid₂
    · rcases hid.cases (c := c) with hbacked | ⟨o', ho', -, rfl⟩
      · exact absurd hbacked hlast
      · obtain rfl := Option.some.inj (ho.symm.trans ho')
        exact Or.inr (.rename ho hpoint (Ne.symm hnew) hlast)

/-- A step of a connection that stays open or on its way to the teardown, and whatever else the
    step does to sessions only refreshes or creates them. -/
theorem standing_modify {c : ClientRef} {o : Client} {f : Client → Client}
    (ho : s.heap[c]? = some o) (hid : (f o).ID = o.ID) (hstands : Stands o → Stands (f o))
    (h : Standing s id) : Standing (s.modify c f) id := by
  rcases h.cases (c := c) with hbacked | ⟨o', ho', hstands', rfl⟩
  · exact (hbacked.modify f).standing
  · obtain rfl := Option.some.inj (ho.symm.trans ho')
    rw [← hid]
    refine standing_self (c := c) ?_ (hstands hstands')
    rw [getElem?_modify, if_pos rfl, ho, Option.map_some]

/-- What a step of the server leaves without anything that stands for it was abandoned, or is
    reported to the engine in this step. -/
theorem standing_step (hreg : Registered newString s) (h : Step newString s a s')
    (hid : Standing s id) :
    Standing s' id ∨ Abandons s a id ∨ s'.disconnected = s.disconnected ++ [id] := by
  cases moves_of_step h with
  | accept =>
    rcases hid with ⟨k, o, ho, hstands, hid⟩ | hrest
    · exact Or.inl (Or.inl ⟨k, o, List.getElem?_concat_of_some _ ho, hstands, hid⟩)
    · exact Or.inl (Or.inr hrest)
  | hello => exact Or.inl hid
  | @register c o sessionID ho hpoint =>
    have hregistered : Standing (s.registerSession sessionID o.ID).1 id := by
      rcases hid.cases (c := c) with hbacked | ⟨o', ho', hstands', rfl⟩
      · exact (hbacked.of_sessions (by simp) (sessions_of_registerSession sessionID o.ID)
          (by simp)).standing
      · exact standing_self (by simpa using ho') hstands'
    refine Or.inl (standing_modify (by simpa using ho) rfl (fun hstands => ?_) hregistered)
    rcases hstands with hopen | ⟨hended | hremoved, -⟩
    · exact Or.inl ⟨Or.inr ⟨_, _, rfl⟩, hopen.2⟩
    · exact nomatch hpoint.symm.trans hended
    · exact nomatch hpoint.symm.trans hremoved
  | @setStateless c o sessionID clientID ho hpoint =>
    rcases standing_setStateless hreg ho hpoint hid with hstands | habandons
    · exact Or.inl hstands
    · exact Or.inr (Or.inl habandons)
  -- a stateless connection leaves its ID to the session, if there is one left
  | @serveEnd c o ho hpoint =>
    cases hstateless : o.stateless with
    | false =>
      refine Or.inl (standing_modify ho rfl (fun _ => ?_) hid)
      exact Or.inr ⟨Or.inl rfl, hstateless⟩
    | true =>
      by_cases hlast : Backed s c id
      · exact Or.inl (hlast.modify _).standing
      · rcases hid.cases (c := c) with hbacked | ⟨o', ho', -, rfl⟩
        · exact absurd hbacked hlast
        · obtain rfl := Option.some.inj (ho.symm.trans ho')
          exact Or.inr (Or.inl (.serveEnd ho hstateless hlast))
  | @removeClient c o ho hpoint =>
    have hremoved : Standing (s.removeClient o.ID) id := hid
    refine Or.inl (standing_modify (o := o) ho rfl (fun hstands => ?_) hremoved)
    rcases hstands with hopen | ⟨-, hstateless⟩
    · exact absurd hopen (not_open_of_point (hpoint ▸ nofun) (hpoint ▸ rfl))
    · exact Or.inr ⟨Or.inr rfl, hstateless⟩
  | @closeClient c o ho hpoint =>
    have hnotOpen : ¬ o.Open := not_open_of_point (hpoint ▸ nofun) (hpoint ▸ rfl)
    rcases hid.cases (c := c) with hbacked | ⟨o', ho', hstands, rfl⟩
    · have hclosed : Backed (s.closeClient o) c id :=
        hbacked.of_sessions (by simp) (sessions_of_closeClient o) (by simp)
      exact Or.inl (hclosed.modify _).standing
    · -- the connection's own ID is reported, for it is not stateless
      obtain rfl := Option.some.inj (ho.symm.trans ho')
      rcases hstands with hopen | ⟨-, hstateless⟩
      · exact absurd hopen hnotOpen
      · refine Or.inr (Or.inr ?_)
        show (s.closeClient o).disconnected = _
        simp [closeClient, hstateless]
  | elapse => exact Or.inl hid
  | reapSessions order hnone =>
    rcases hid with hconn | ⟨sid, sess, hsess, rfl⟩ | hmem
    · exact Or.inl (Or.inl hconn)
    · -- a deleted session is on the list of those to be reported
      by_cases hidle : sessionIdleTimeout < s.now - sess.lastSeen
      · exact Or.inl (Or.inr (Or.inr
          (mem_expiredClientIDs_reapSessions.mpr ⟨sid, sess, hsess, hidle, rfl⟩)))
      · exact Or.inl (Or.inr (Or.inl
          ⟨sid, sess, getElem?_sessions_reapSessions.mpr ⟨hsess, hidle⟩, rfl⟩))
    · rw [hnone] at hmem
      exact nomatch hmem
  | @reapNotify clientID rest hexpired =>
    rcases hid with hconn | hsess | hmem
    · exact Or.inl (Or.inl hconn)
    · exact Or.inl (Or.inr (Or.inl hsess))
    · rw [hexpired] at hmem
      rcases List.mem_cons.mp hmem with rfl | hrest
      · exact Or.inr (Or.inr rfl)
      · exact Or.inl (Or.inr (Or.inr hrest))

/-- A step reports at most one client ID. -/
theorem disconnected_step (h : Step newString s a s') :
    s'.disconnected = s.disconnected ∨ ∃ id, s'.disconnected = s.disconnected ++ [id] := by
  cases moves_of_step h with
  | accept => exact Or.inl rfl
  | hello => exact Or.inl rfl
  | @register c o sessionID =>
    refine Or.inl ?_
    show (s.registerSession sessionID o.ID).1.disconnected = s.disconnected
    unfold registerSession
    split <;> rfl
  | @setStateless c o sessionID clientID =>
    refine Or.inl ?_
    show (s.setStateless c o.ID sessionID clientID).disconnected = s.disconnected
    simp only [Server.setStateless, updateClientID]
    split
    · split <;> rfl
    · rfl
  | serveEnd => exact Or.inl rfl
  | removeClient => exact Or.inl rfl
  | @closeClient c o =>
    -- only the teardown of a connection without a session reports its ID
    show (s.closeClient o).disconnected = _ ∨ ∃ id, (s.closeClient o).disconnected = _
    unfold Server.closeClient
    split
    · split <;> exact Or.inl rfl
    · exact Or.inr ⟨o.ID, rfl⟩
  | elapse => exact Or.inl rfl
  | reapSessions => exact Or.inl rfl
  | @reapNotify clientID => exact Or.inr ⟨clientID, rfl⟩

end Server

end Kgd
