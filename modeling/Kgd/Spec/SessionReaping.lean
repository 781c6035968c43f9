import Kgd.Spec.Sessions

/-!
# Which sessions the reaper deletes

The reaper judges a session's age by its `lastSeen`, which only a hello and the teardown of a
stateless connection refresh: what a connection does in between, and that it is open at all,
does not count. A session that has been in use for longer than the timeout without a further
hello is deleted under its open connection.

## Key results

- `Server.lastSeen_of_run`: `lastSeen` is the time of the last touch
- `Server.reaping_spares_held`: the reaper deletes only sessions no open connection has held
  within the timeout exactly when every session held within the timeout was touched within it
- `Server.reaping_fails`: one hello, six minutes, one tick
-/

namespace Kgd

/-- The connection adopted the session under `clientID`: in the hello it is in, or in the last
    one it completed. -/
def Client.Adopted (o : Client) (sessionID : String) (clientID : ClientID) : Prop :=
  o.point = .registered sessionID clientID ∨
    o.stateless = true ∧ o.sessionID = sessionID ∧ o.ID = clientID

namespace Server

variable {newString : Nat → ClientID} {s s' : Server} {a : Action}
  {tr : List (Transition Server Action)}

/-- An open connection has adopted the session. -/
def Held (s : Server) (sessionID : String) (clientID : ClientID) : Prop :=
  ∃ (k : ClientRef) (o : Client), s.heap[k]? = some o ∧ o.Open ∧ o.Adopted sessionID clientID

/-! ## The last touch -/

/-- At some moment within the timeout, an open connection had the session adopted. -/
def RecentlyHeld (tr : List (Transition Server Action)) (s : Server) (sessionID : String)
    (clientID : ClientID) : Prop :=
  ∃ s₁, (s₁ = s ∨ ∃ t ∈ tr, s₁ = t.pre) ∧ s.now - s₁.now ≤ sessionIdleTimeout ∧
    s₁.Held sessionID clientID

/-- Within the timeout there was a hello that named the session, or the teardown of a
    stateless connection of it. -/
def RecentlyTouched (tr : List (Transition Server Action)) (s : Server) (sessionID : String) :
    Prop :=
  ∃ t ∈ tr, Touches t.pre t.label sessionID ∧ s.now - t.pre.now ≤ sessionIdleTimeout

/-- Every session was last seen when it was last touched. -/
structure LastSeen (tr : List (Transition Server Action)) (s : Server) : Prop where
  past : ∀ t ∈ tr, t.pre.now ≤ s.now
  touched : ∀ (sid : String) (sess : Session), s.sessions[sid]? = some sess →
    ∃ t ∈ tr, Touches t.pre t.label sid ∧ t.pre.now = sess.lastSeen
  last : ∀ (sid : String) (sess : Session), s.sessions[sid]? = some sess →
    ∀ t ∈ tr, Touches t.pre t.label sid → t.pre.now ≤ sess.lastSeen

/-- Time does not go back. -/
theorem now_le_of_step (h : Step newString s a s') : s.now ≤ s'.now := by
  cases moves_of_step h with
  | accept => exact Nat.le_refl _
  | hello => exact Nat.le_refl _
  -- only the clock's own step moves the clock
  | register =>
    show s.now ≤ (s.registerSession _ _).1.now
    unfold registerSession
    split <;> exact Nat.le_refl _
  | setStateless =>
    show s.now ≤ (s.setStateless _ _ _ _).now
    simp only [setStateless, updateClientID]
    split
    · split <;> exact Nat.le_refl _
    · exact Nat.le_refl _
  | serveEnd => exact Nat.le_refl _
  | removeClient => exact Nat.le_refl _
  | closeClient =>
    show s.now ≤ (s.closeClient _).now
    unfold closeClient
    split
    · split <;> exact Nat.le_refl _
    · exact Nat.le_refl _
  | elapse d => exact Nat.le_add_right s.now d
  | reapSessions => exact Nat.le_refl _
  | reapNotify => exact Nat.le_refl _

theorem lastSeen_of_run (h : Run (Step newString) new tr s) : LastSeen tr s := by
  refine Run.historyInvariant (I := LastSeen) ?_ ?_ h
  · constructor <;> simp [new]
  · intro tr s a s' _ ih hs
    -- the clock does not go back, so what this step writes is the latest
    have hpast : ∀ t ∈ tr ++ [⟨s, a, s'⟩], t.pre.now ≤ s.now := by
      intro t ht
      rcases List.mem_append.mp ht with ht | ht
      · exact ih.past t ht
      · obtain rfl := List.mem_singleton.mp ht
        exact Nat.le_refl _
    have hmem : (⟨s, a, s'⟩ : Transition Server Action) ∈ tr ++ [⟨s, a, s'⟩] := by simp
    constructor
    · exact fun t ht => (hpast t ht).trans (now_le_of_step hs)
    · intro sid sess hsess
      cases session_step hs hsess with
      | kept _ hold =>
        obtain ⟨t, ht, htouch, hnow⟩ := ih.touched sid sess hold
        exact ⟨t, List.mem_append_left _ ht, htouch, hnow⟩
      | touched htouch _ _ hnow => exact ⟨_, hmem, htouch, hnow.symm⟩
      | created htouch _ hnow => exact ⟨_, hmem, htouch, hnow.symm⟩
    · intro sid sess hsess t ht htouch
      cases session_step hs hsess with
      | kept hnot hold =>
        rcases List.mem_append.mp ht with ht | ht
        · exact ih.last sid sess hold t ht htouch
        · obtain rfl := List.mem_singleton.mp ht
          exact absurd htouch hnot
      | touched _ _ _ hnow => exact hnow ▸ hpast t ht
      | created _ _ hnow => exact hnow ▸ hpast t ht

/-- The reaper's test, read off the history. -/
theorem idle_iff (h : Run (Step newString) new tr s) {sid : String} {sess : Session}
    (hsess : s.sessions[sid]? = some sess) :
    sessionIdleTimeout < s.now - sess.lastSeen ↔ ¬ RecentlyTouched tr s sid := by
  -- the session's time is the time it was last touched
  have hlast := lastSeen_of_run h
  constructor
  · intro hidle hrecent
    obtain ⟨t, ht, htouch, hnow⟩ := hrecent
    have hle := hlast.last sid sess hsess t ht htouch
    omega
  · intro hnot
    obtain ⟨t, ht, htouch, hnow⟩ := hlast.touched sid sess hsess
    by_contra hfresh
    exact hnot ⟨t, ht, htouch, by omega⟩

/-! ## Deletions -/

/-- A tick deletes only sessions that no open connection has held within the timeout. -/
def ReapsIdle (tr : List (Transition Server Action)) (t : Transition Server Action) : Prop :=
  ∀ order, t.label = .reapSessions order → ∀ (sid : String) (sess : Session),
    t.pre.sessions[sid]? = some sess → t.post.sessions[sid]? = none →
      ¬ RecentlyHeld tr t.pre sid sess.clientID

/-- At a tick, every session held within the timeout was touched within it. -/
def TouchedWhileHeld (tr : List (Transition Server Action)) (t : Transition Server Action) :
    Prop :=
  ∀ order, t.label = .reapSessions order → ∀ (sid : String) (sess : Session),
    t.pre.sessions[sid]? = some sess → RecentlyHeld tr t.pre sid sess.clientID →
      RecentlyTouched tr t.pre sid

/-- A tick deletes the sessions that have been idle for longer than the timeout. -/
theorem getElem?_reapSessions_eq_none {order : RangeOrder String} {sid : String} {sess : Session}
    (hsess : s.sessions[sid]? = some sess) :
    (s.reapSessions order).sessions[sid]? = none ↔
      sessionIdleTimeout < s.now - sess.lastSeen := by
  constructor
  · intro hnone
    by_contra hfresh
    -- a session that is not idle is kept
    have hkept : (s.reapSessions order).sessions[sid]? = some sess :=
      getElem?_sessions_reapSessions.mpr ⟨hsess, hfresh⟩
    rw [hnone] at hkept
    exact nomatch hkept
  · intro hidle
    by_contra hsome
    obtain ⟨sess', hsess'⟩ := Option.ne_none_iff_exists'.mp hsome
    obtain ⟨hold, hfresh⟩ := getElem?_sessions_reapSessions.mp hsess'
    obtain rfl := Option.some.inj (hsess.symm.trans hold)
    exact hfresh hidle

/-- A tick deletes idle sessions only exactly if those that were held within the timeout were
    touched within it. -/
theorem reapsIdle_iff {t : Transition Server Action}
    (h : Run (Step newString) new tr t.pre) (hs : Step newString t.pre t.label t.post) :
    ReapsIdle tr t ↔ TouchedWhileHeld tr t := by
  obtain ⟨s, a, s'⟩ := t
  -- the tick deletes exactly the sessions nobody has touched lately
  have hdeleted : ∀ order, a = .reapSessions order → ∀ (sid : String) (sess : Session),
      s.sessions[sid]? = some sess →
      (s'.sessions[sid]? = none ↔ ¬ RecentlyTouched tr s sid) := by
    intro order heq sid sess hsess
    subst heq
    have hmoves : Moves newString s (.reapSessions order) s' := moves_of_step hs
    cases hmoves
    rw [getElem?_reapSessions_eq_none hsess, idle_iff h hsess]
  constructor
  · intro hreaps order heq sid sess hsess hheld
    by_contra hnot
    exact hreaps order heq sid sess hsess ((hdeleted order heq sid sess hsess).mpr hnot) hheld
  · intro htouched order heq sid sess hsess hgone hheld
    exact (hdeleted order heq sid sess hsess).mp hgone
      (htouched order heq sid sess hsess hheld)

/-! ## Reports to the engine -/

/-- The client ID that the reaper reports is held through no session. -/
def ReportsUnheld (t : Transition Server Action) : Prop :=
  t.label = .reapNotify → ∀ clientID rest, t.pre.expiredClientIDs = clientID :: rest →
    ∀ sid, ¬ t.pre.Held sid clientID

/-- The action is a hello in which `RegisterSession` answers `clientID`. -/
def Adopts (s : Server) (a : Action) (sessionID : String) (clientID : ClientID) : Prop :=
  sessionID ≠ "" ∧ ∃ c o, a = .hello c sessionID ∧ s.heap[c]? = some o ∧
    (s.registerSession sessionID o.ID).2 = clientID

/-- Client IDs do not outlive their session: at a tick, a session whose client ID is held,
    through whichever session, was touched within the timeout, and no hello adopts a client ID
    that the reaper has still to report. -/
structure Untangled (tr : List (Transition Server Action)) (t : Transition Server Action) :
    Prop where
  tick : ∀ order, t.label = .reapSessions order → ∀ (sid : String) (sess : Session),
    t.pre.sessions[sid]? = some sess → ∀ sid', t.pre.Held sid' sess.clientID →
      RecentlyTouched tr t.pre sid
  hello : ∀ sid clientID, Adopts t.pre t.label sid clientID → clientID ∉ t.pre.expiredClientIDs

/-- A connection that moves on to its end held the session before. -/
theorem Held.move {c : ClientRef} {point : ConnPoint} {sid : String} {clientID : ClientID}
    (h : (s.modify c fun o => { o with point }).Held sid clientID)
    (hclosed : point ≠ .serve ∧ point.session? = none) : s.Held sid clientID := by
  obtain ⟨k, o', ho', hopen, hadopted⟩ := h
  rw [getElem?_modify] at ho'
  split at ho'
  · obtain ⟨o, ho, rfl⟩ := Option.map_eq_some_iff.mp ho'
    exact absurd hopen (not_open_of_point hclosed.1 hclosed.2)
  · exact ⟨k, o', ho', hopen, hadopted⟩

/-- A session is held after a step if it was before, or by the hello that the step is. -/
theorem held_step (h : Step newString s a s') {sid : String} {clientID : ClientID}
    (hheld : s'.Held sid clientID) : s.Held sid clientID ∨ Adopts s a sid clientID := by
  cases moves_of_step h with
  | accept =>
    obtain ⟨k, o, ho, hopen, hadopted⟩ := hheld
    rcases getElem?_addClient ho with hold | ⟨-, rfl⟩
    · exact Or.inl ⟨k, o, hold, hopen, hadopted⟩
    · -- a new connection has adopted nothing
      rcases hadopted with hpoint | ⟨hstateless, -⟩
      · exact nomatch hpoint
      · exact nomatch hstateless
  | hello => exact Or.inl hheld
  | @register c o sid' ho hpoint hsession =>
    obtain ⟨k, o', ho', hopen, hadopted⟩ := hheld
    rw [getElem?_modify, heap_registerSession] at ho'
    split at ho'
    · rename_i hk
      subst hk
      rw [ho, Option.map_some] at ho'
      obtain rfl := Option.some.inj ho'
      rcases hadopted with hreg | hbefore
      · obtain ⟨rfl, rfl⟩ := ConnPoint.registered.inj hreg
        exact Or.inr ⟨hsession, k, o, rfl, ho, rfl⟩
      · exact Or.inl ⟨k, o, ho, ⟨Or.inl hpoint, hopen.2⟩, Or.inr hbefore⟩
    · exact Or.inl ⟨k, o', ho', hopen, hadopted⟩
  | @setStateless c o sid' cid ho hpoint =>
    obtain ⟨k, o', ho', hopen, hadopted⟩ := hheld
    rw [getElem?_modify, getElem?_setStateless] at ho'
    refine Or.inl ?_
    split at ho'
    · rename_i hk
      subst hk
      rw [ho, Option.map_some, Option.map_some] at ho'
      obtain rfl := Option.some.inj ho'
      -- what the hello registered is what the connection now has
      rcases hadopted with hreg | ⟨-, rfl, rfl⟩
      · exact nomatch hreg
      · exact ⟨k, o, ho, ⟨Or.inr ⟨_, _, hpoint⟩, hopen.2⟩, Or.inl hpoint⟩
    · rename_i hk
      obtain ⟨o₁, ho₁, rfl⟩ := Option.map_eq_some_iff.mp ho'
      obtain ⟨hserving, hevicted⟩ := hopen
      exact ⟨k, o₁, ho₁, ⟨hserving, (Bool.or_eq_false_iff.mp hevicted).1⟩, hadopted⟩
  | serveEnd => exact Or.inl (hheld.move ⟨nofun, rfl⟩)
  | @removeClient c o =>
    have hmoved : (s.removeClient o.ID).Held sid clientID := hheld.move ⟨nofun, rfl⟩
    exact Or.inl hmoved
  | @closeClient c o =>
    have hmoved : (s.closeClient o).Held sid clientID := hheld.move ⟨nofun, rfl⟩
    rw [Held, heap_closeClient] at hmoved
    exact Or.inl hmoved
  | elapse => exact Or.inl hheld
  | reapSessions => exact Or.inl hheld
  | reapNotify => exact Or.inl hheld

/-- No client ID that the reaper has still to report is held. -/
def PendingUnheld (s : Server) : Prop :=
  ∀ clientID ∈ s.expiredClientIDs, ∀ sid, ¬ s.Held sid clientID

/-- A client ID to be reported was to be reported before, or a tick has just reaped its session. -/
theorem mem_expiredClientIDs_step (h : Step newString s a s') {clientID : ClientID}
    (hmem : clientID ∈ s'.expiredClientIDs) :
    clientID ∈ s.expiredClientIDs ∨
      ∃ order, a = .reapSessions order ∧ s' = s.reapSessions order := by
  cases moves_of_step h with
  | accept => exact Or.inl hmem
  | hello => exact Or.inl hmem
  | register => exact Or.inl (by simpa using hmem)
  | setStateless => exact Or.inl (by simpa using hmem)
  | serveEnd => exact Or.inl hmem
  | removeClient => exact Or.inl hmem
  | closeClient => exact Or.inl (by simpa using hmem)
  | elapse => exact Or.inl hmem
  -- only a tick adds to the list
  | reapSessions order => exact Or.inr ⟨order, rfl, rfl⟩
  | reapNotify hexpired => exact Or.inl (hexpired ▸ List.mem_cons_of_mem _ hmem)

/-- A step keeps the IDs to be reported unheld, where no hello is caught between a tick and its
    report. -/
theorem pendingUnheld_step (hrun : Run (Step newString) new tr s) (h : Step newString s a s')
    (huntangled : Untangled tr ⟨s, a, s'⟩) (hs : PendingUnheld s) : PendingUnheld s' := by
  intro clientID hmem sid hheld
  rcases mem_expiredClientIDs_step h hmem with hold | ⟨order, rfl, rfl⟩
  · rcases held_step h hheld with hbefore | hadopts
    · exact hs clientID hold sid hbefore
    · exact huntangled.hello sid clientID hadopts hold
  · obtain ⟨sid', sess, hsess, hidle, rfl⟩ := mem_expiredClientIDs_reapSessions.mp hmem
    have hbefore : s.Held sid sess.clientID := hheld
    exact (idle_iff hrun hsess).mp hidle
      (huntangled.tick order rfl sid' sess hsess sid hbefore)

theorem pendingUnheld_of_run (h : Run (Step newString) new tr s)
    (huntangled : Run.Along Untangled tr) : PendingUnheld s := by
  revert huntangled
  refine Run.historyInvariant (I := fun tr s => Run.Along Untangled tr → PendingUnheld s) ?_ ?_ h
  · intro _ clientID hmem
    exact nomatch hmem
  · intro tr s a s' hrun ih hs hall
    obtain ⟨hbefore, hlast⟩ := Run.along_concat.mp hall
    exact pendingUnheld_step hrun hs hlast (ih hbefore)

/-- In every run, the reaper deletes no session that an open connection has held within the
    timeout exactly when, at every tick, every such session was touched within it. It then
    reports no client ID that an open connection holds through some session, if client IDs do
    not outlive their session either. -/
theorem reaping_spares_held (h : Run (Step newString) new tr s) :
    (Run.Along ReapsIdle tr ↔ Run.Along TouchedWhileHeld tr) ∧
      (Run.Along Untangled tr → ∀ t ∈ tr, ReportsUnheld t) := by
  constructor
  · exact h.along_congr fun tr t hrun hs => reapsIdle_iff hrun hs
  · intro huntangled t ht hlabel clientID rest hexpired sid
    obtain ⟨tr₁, tr₂, rfl, hrun, -⟩ := h.exists_split ht
    exact pendingUnheld_of_run hrun huntangled.of_append clientID
      (hexpired ▸ List.mem_cons_self) sid

/-- A session is left idle for six minutes after its connection has ended, and reaped. -/
theorem reaping_spares_held_idle :
    ∃ tr s, Run (Step unary) new tr s ∧
      (Run.Along ReapsIdle tr ↔ Run.Along TouchedWhileHeld tr) ∧
        (Run.Along Untangled tr → ∀ t ∈ tr, ReportsUnheld t) := by
  have hrun := Run.of_follow (next unary) new
    [.accept, .hello 0 "s", .setStateless 0, .serveEnd 0, .removeClient 0, .closeClient 0,
      .elapse (6 * 60 * 1000000000), .reapSessions default, .reapNotify] (by decide)
  exact ⟨_, _, hrun, reaping_spares_held hrun⟩

/-- One hello, then six minutes without another: the tick deletes the session of the open
    connection and the reaper reports its client ID. -/
theorem reaping_fails :
    ∃ newString, Function.Injective newString ∧
      ∃ tr s, Run (Step newString) new tr s ∧
        ¬ Run.Along ReapsIdle tr ∧ ∃ t ∈ tr, ¬ ReportsUnheld t := by
  have hrun := Run.of_follow (next unary) new
    [.accept, .hello 0 "s", .setStateless 0, .elapse (6 * 60 * 1000000000)] (by decide)
  -- the client is connected all the while, and the tick reaps its session
  have htick : Run (Step unary) new _ _ := hrun.snoc (a := .reapSessions default) rfl
  have hreport : Run (Step unary) new _ _ :=
    htick.snoc (a := .reapNotify) (Option.some_get (by decide)).symm
  have hheld : ∀ s : Server, s.heap = [⟨unary 0, true, "s", .serve, false⟩] →
      s.Held "s" (unary 0) := by
    intro s hheap
    rw [Held, hheap]
    exact ⟨0, _, rfl, ⟨Or.inl rfl, rfl⟩, Or.inr ⟨rfl, rfl, rfl⟩⟩
  refine ⟨unary, unary_injective, _, _, hreport, ?_, _, List.mem_of_getLast? rfl, ?_⟩
  · intro h
    have hreaps := (Run.along_concat.mp (Run.along_concat.mp h).1).2
    refine hreaps default rfl "s" ⟨unary 0, 0⟩ rfl rfl ⟨_, Or.inl rfl, ?_, hheld _ rfl⟩
    exact (Nat.sub_self _).trans_le (Nat.zero_le _)
  · intro h
    exact h rfl (unary 0) [] rfl "s" (hheld _ rfl)

end Server

end Kgd
