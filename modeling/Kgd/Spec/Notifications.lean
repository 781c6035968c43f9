import Kgd.ForStd.List
import Kgd.ForStd.Run
import Kgd.Daemon.Server

/-!
# Which connections notifications reach

The `clients` map is keyed by client IDs, a connection's ID changes at a session hello, and
`removeClient` and `updateClientID` delete by ID. A session takeover leaves two connections
with one ID, so a later deletion on behalf of the evicted one can hit the entry of the new
owner. `Server.notifiable_iff` says that such a deletion is the only way an open connection
drops out of the map.

## Key results

- `Server.Registered`: every map entry is filed under its connection's ID, and every ID in use
  is an accepted client's UUID (`Server.registered_of_run`)
- `Server.notifiable_iff`
- `Server.notifiable_fails`: a takeover followed by the teardown of the evicted connection
-/

namespace Kgd

/-- `Serve` has not returned. -/
def Client.Serving (o : Client) : Prop :=
  o.point = .serve ∨ ∃ sessionID clientID, o.point = .registered sessionID clientID

/-- `Serve` has not returned, and no takeover has closed the connection. -/
def Client.Open (o : Client) : Prop :=
  o.Serving ∧ o.evicted = false

namespace Server

variable {newString : Nat → ClientID} {s s' : Server} {a : Action}

/-! ## The heap -/

/-- Modifying a connection leaves the others. -/
theorem getElem?_modify (c k : ClientRef) (f : Client → Client) :
    (s.modify c f).heap[k]? = if k = c then s.heap[k]?.map f else s.heap[k]? := by
  rw [modify, List.getElem?_modify]
  by_cases hk : k = c
  · simp [hk]
  · simp [hk, Ne.symm hk]

@[simp] theorem length_modify (c : ClientRef) (f : Client → Client) :
    (s.modify c f).heap.length = s.heap.length := List.length_modify ..

theorem clients_setStateless (c : ClientRef) (id clientID : ClientID) (sessionID : String) :
    (s.setStateless c id sessionID clientID).clients = (s.clients.erase id).insert clientID c := rfl

/-- What `SetStateless` does to the clients: the caller takes over the session's client ID,
    and whoever is filed under it, once the caller's own entry is gone, is evicted. -/
theorem getElem?_setStateless (c k : ClientRef) (id clientID : ClientID) (sessionID : String) :
    (s.setStateless c id sessionID clientID).heap[k]? = s.heap[k]?.map fun o =>
      if k = c then { o with ID := clientID, stateless := true, sessionID }
      else { o with evicted := o.evicted || (s.clients.erase id)[clientID]? == some k } := by
  have hclients : (s.modify c fun o => { o with stateless := true, sessionID }).clients =
      s.clients := rfl
  simp only [setStateless, updateClientID, hclients]
  split
  · rename_i old hold
    split
    · rename_i hne
      by_cases hk : k = c
      · -- `old != c` keeps the caller itself from being evicted
        subst hk
        simp [getElem?_modify, Ne.symm hne, Function.comp_def]
      · by_cases hko : k = old
        · subst hko
          simp [getElem?_modify, hk, hold]
        · have hbeq : (old == k) = false := beq_eq_false_iff_ne.mpr (Ne.symm hko)
          simp [getElem?_modify, hk, hold, hko, hbeq]
    · rename_i heq
      obtain rfl := not_not.mp heq
      by_cases hk : k = old
      · simp [getElem?_modify, hk, Function.comp_def]
      · have hbeq : (old == k) = false := beq_eq_false_iff_ne.mpr (Ne.symm hk)
        simp [getElem?_modify, hk, hold, hbeq]
  · rename_i hnone
    by_cases hk : k = c
    · simp [getElem?_modify, hk, Function.comp_def]
    · simp [getElem?_modify, hk, hnone]

/-! ## What a step does -/

/-- The cases of `next`, with their guards. -/
inductive Moves (newString : Nat → ClientID) (s : Server) : Action → Server → Prop
  | accept : Moves newString s .accept (s.addClient (newString s.heap.length))
  | hello {c o sessionID} (ho : s.heap[c]? = some o) (hpoint : o.point = .serve)
      (hempty : sessionID = "") : Moves newString s (.hello c sessionID) s
  | register {c o sessionID} (ho : s.heap[c]? = some o) (hpoint : o.point = .serve)
      (hsession : sessionID ≠ "") :
      Moves newString s (.hello c sessionID)
        ((s.registerSession sessionID o.ID).1.modify c fun o' =>
          { o' with point := .registered sessionID (s.registerSession sessionID o.ID).2 })
  | setStateless {c o sessionID clientID} (ho : s.heap[c]? = some o)
      (hpoint : o.point = .registered sessionID clientID) :
      Moves newString s (.setStateless c)
        ((s.setStateless c o.ID sessionID clientID).modify c fun o' => { o' with point := .serve })
  | serveEnd {c o} (ho : s.heap[c]? = some o) (hpoint : o.point = .serve) :
      Moves newString s (.serveEnd c) (s.modify c fun o' => { o' with point := .ended })
  | removeClient {c o} (ho : s.heap[c]? = some o) (hpoint : o.point = .ended) :
      Moves newString s (.removeClient c)
        ((s.removeClient o.ID).modify c fun o' => { o' with point := .removed })
  | closeClient {c o} (ho : s.heap[c]? = some o) (hpoint : o.point = .removed) :
      Moves newString s (.closeClient c)
        ((s.closeClient o).modify c fun o' => { o' with point := .closed })
  | elapse (d : Nat) : Moves newString s (.elapse d) { s with now := s.now + d }
  | reapSessions (order : RangeOrder String) (hnone : s.expiredClientIDs = []) :
      Moves newString s (.reapSessions order) (s.reapSessions order)
  | reapNotify {clientID rest} (hexpired : s.expiredClientIDs = clientID :: rest) :
      Moves newString s .reapNotify
        { s with expiredClientIDs := rest, disconnected := s.disconnected ++ [clientID] }

/-- A connection that is at a point. -/
theorem at?_eq_some {c : ClientRef} {point : ConnPoint} {o : Client} :
    s.at? c point = some o ↔ s.heap[c]? = some o ∧ o.point = point := by
  simp [at?, Option.filter_eq_some_iff]

/-- The one point that remembers a session is between `RegisterSession` and `SetStateless`. -/
theorem session?_eq_some {point : ConnPoint} {sessionID : String} {clientID : ClientID} :
    point.session? = some (sessionID, clientID) ↔ point = .registered sessionID clientID := by
  cases point <;> simp [ConnPoint.session?]

/-- Every step is one of the moves, with its guard. -/
theorem moves_of_step (h : Step newString s a s') : Moves newString s a s' := by
  cases a with
  | accept =>
    simp only [Step, next, Option.some.injEq] at h
    subst h
    exact .accept
  -- hello registers a session only when it is given one
  | hello c sessionID =>
    simp only [Step, next, Option.bind_eq_bind, Option.bind_eq_some_iff, at?_eq_some] at h
    obtain ⟨o, ⟨ho, hpoint⟩, h⟩ := h
    split at h
    · rename_i hempty
      simp only [Option.some.injEq] at h
      subst h
      exact .hello ho hpoint hempty
    · rename_i hsession
      simp only [Option.some.injEq] at h
      subst h
      exact .register ho hpoint hsession
  | setStateless c =>
    simp only [Step, next, Option.bind_eq_bind, Option.bind_eq_some_iff, Prod.exists,
      session?_eq_some, Option.some.injEq] at h
    obtain ⟨o, ho, sessionID, clientID, hpoint, rfl⟩ := h
    exact .setStateless ho hpoint
  | serveEnd c =>
    simp only [Step, next, Option.bind_eq_bind, Option.bind_eq_some_iff, at?_eq_some,
      Option.some.injEq] at h
    obtain ⟨o, ⟨ho, hpoint⟩, rfl⟩ := h
    exact .serveEnd ho hpoint
  | removeClient c =>
    simp only [Step, next, Option.bind_eq_bind, Option.bind_eq_some_iff, at?_eq_some,
      Option.some.injEq] at h
    obtain ⟨o, ⟨ho, hpoint⟩, rfl⟩ := h
    exact .removeClient ho hpoint
  | closeClient c =>
    simp only [Step, next, Option.bind_eq_bind, Option.bind_eq_some_iff, at?_eq_some,
      Option.some.injEq] at h
    obtain ⟨o, ⟨ho, hpoint⟩, rfl⟩ := h
    exact .closeClient ho hpoint
  | elapse d =>
    simp only [Step, next, Option.some.injEq] at h
    subst h
    exact .elapse d
  | reapSessions order =>
    simp only [Step, next] at h
    split at h
    · rename_i hnone
      simp only [Option.some.injEq] at h
      subst h
      exact .reapSessions order hnone
    · exact nomatch h
  | reapNotify =>
    simp only [Step, next] at h
    split at h
    · exact nomatch h
    · rename_i clientID rest hexpired
      simp only [Option.some.injEq] at h
      subst h
      exact .reapNotify hexpired

/-! ## Client IDs -/

/-- An ID that some accepted client was given. -/
def Issued (newString : Nat → ClientID) (s : Server) (id : ClientID) : Prop :=
  ∃ n < s.heap.length, id = newString n

/-- Map entries are filed under their connection's ID, and every ID in use was issued. -/
structure Registered (newString : Nat → ClientID) (s : Server) : Prop where
  owner : ∀ (id : ClientID) (k : ClientRef), s.clients[id]? = some k →
    ∃ o, s.heap[k]? = some o ∧ o.ID = id
  client : ∀ (k : ClientRef) (o : Client), s.heap[k]? = some o → Issued newString s o.ID
  hello : ∀ (k : ClientRef) (o : Client) (sessionID : String) (clientID : ClientID),
    s.heap[k]? = some o → o.point = .registered sessionID clientID → Issued newString s clientID
  session : ∀ (sessionID : String) (sess : Session), s.sessions[sessionID]? = some sess →
    Issued newString s sess.clientID

theorem registered_new : Registered newString new := by
  constructor <;> simp [new]

/-- An ID that was issued stays so when a client is accepted. -/
theorem Issued.addClient {id newID : ClientID} (h : Issued newString s id) :
    Issued newString (s.addClient newID) id := by
  obtain ⟨n, hn, rfl⟩ := h
  have hlength : (s.addClient newID).heap.length = s.heap.length + 1 := by simp [Server.addClient]
  exact ⟨n, by omega, rfl⟩

/-- The connections after an accept are those before it and a new one at its start. -/
theorem getElem?_addClient {newID : ClientID} {k : ClientRef} {o : Client}
    (h : (s.addClient newID).heap[k]? = some o) :
    s.heap[k]? = some o ∨
      k = s.heap.length ∧ o = ⟨newID, false, "", .serve, false⟩ := by
  rcases List.getElem?_concat_eq_some.mp h with hold | ⟨hlast, heq⟩
  · exact Or.inl hold
  · exact Or.inr ⟨hlast, heq.symm⟩

/-- A write to a client that keeps its ID and enters no hello with an ID never issued. -/
theorem Registered.modify (hs : Registered newString s) (c : ClientRef) {f : Client → Client}
    (hID : ∀ o, (f o).ID = o.ID)
    (hpoint : ∀ o sessionID clientID, (f o).point = .registered sessionID clientID →
      o.point = .registered sessionID clientID ∨ Issued newString s clientID) :
    Registered newString (s.modify c f) := by
  -- no connection is new, so the same IDs have been issued
  have hissued : ∀ id, Issued newString (s.modify c f) id ↔ Issued newString s id := by
    intro id
    simp only [Issued, length_modify]
  constructor
  · intro id k hk
    obtain ⟨o, ho, hid⟩ := hs.owner id k hk
    rw [getElem?_modify, ho]
    split
    · exact ⟨f o, rfl, (hID o).trans hid⟩
    · exact ⟨o, rfl, hid⟩
  · intro k o' hk
    rw [hissued]
    rw [getElem?_modify] at hk
    split at hk
    · obtain ⟨o, ho, rfl⟩ := Option.map_eq_some_iff.mp hk
      rw [hID]
      exact hs.client k o ho
    · exact hs.client k o' hk
  · intro k o' sessionID clientID hk hreg
    rw [hissued]
    rw [getElem?_modify] at hk
    split at hk
    · obtain ⟨o, ho, rfl⟩ := Option.map_eq_some_iff.mp hk
      rcases hpoint o sessionID clientID hreg with hbefore | hnew
      · exact hs.hello k o sessionID clientID ho hbefore
      · exact hnew
    · exact hs.hello k o' sessionID clientID hk hreg
  · intro sessionID sess hsess
    exact (hissued _).mpr (hs.session sessionID sess hsess)

/-- A client moves on, out of or past its hello. -/
theorem Registered.move (hs : Registered newString s) (c : ClientRef) (point : ConnPoint)
    (hpoint : point.session? = none) :
    Registered newString (s.modify c fun o => { o with point }) := by
  refine hs.modify c (fun _ => rfl) fun o sessionID clientID hreg => ?_
  have hsome : point.session? = some (sessionID, clientID) := session?_eq_some.mpr hreg
  rw [hpoint] at hsome
  exact nomatch hsome

/-- Accepting a client files it under a new ID. -/
theorem Registered.addClient (hs : Registered newString s) :
    Registered newString (s.addClient (newString s.heap.length)) := by
  have hnew : Issued newString (s.addClient (newString s.heap.length))
      (newString s.heap.length) := ⟨s.heap.length, by simp [Server.addClient], rfl⟩
  constructor
  · intro id k hk
    simp only [Server.addClient] at hk
    rcases GoMap.getElem?_insert_eq_some.mp hk with ⟨rfl, rfl⟩ | ⟨-, hk⟩
    · exact ⟨_, List.getElem?_concat_length, rfl⟩
    · obtain ⟨o, ho, hid⟩ := hs.owner id k hk
      exact ⟨o, List.getElem?_concat_of_some _ ho, hid⟩
  -- the new connection is the only one that was not there before
  · intro k o hk
    rcases getElem?_addClient hk with hold | ⟨-, rfl⟩
    · exact (hs.client k o hold).addClient
    · exact hnew
  · intro k o sessionID clientID hk hreg
    rcases getElem?_addClient hk with hold | ⟨-, rfl⟩
    · exact (hs.hello k o sessionID clientID hold hreg).addClient
    · exact nomatch hreg
  · intro sessionID sess hsess
    exact (hs.session sessionID sess hsess).addClient

/-- A session is entered or touched whose client ID was issued. -/
theorem Registered.insertSession (hs : Registered newString s) (sessionID : String)
    {sess : Session} (hissued : Issued newString s sess.clientID) :
    Registered newString { s with sessions := s.sessions.insert sessionID sess } := by
  refine ⟨hs.owner, hs.client, hs.hello, fun sid sess' hsess' => ?_⟩
  rcases GoMap.getElem?_insert_eq_some.mp hsess' with ⟨-, rfl⟩ | ⟨-, hold⟩
  · exact hissued
  · exact hs.session sid sess' hold

/-- A hello gives out an ID that was issued. -/
theorem Registered.registerSession (hs : Registered newString s) (sessionID : String)
    {clientID : ClientID} (hclient : Issued newString s clientID) :
    Registered newString (s.registerSession sessionID clientID).1 ∧
      Issued newString (s.registerSession sessionID clientID).1
        (s.registerSession sessionID clientID).2 := by
  unfold Server.registerSession
  split
  · rename_i sess hsess
    have hissued := hs.session sessionID sess hsess
    exact ⟨hs.insertSession sessionID hissued, hissued⟩
  · exact ⟨hs.insertSession sessionID hclient, hclient⟩

theorem Registered.setStateless (hs : Registered newString s) {c : ClientRef} {o : Client}
    {sessionID : String} {clientID : ClientID} (ho : s.heap[c]? = some o)
    (hclient : Issued newString s clientID) :
    Registered newString (s.setStateless c o.ID sessionID clientID) := by
  have hlength : (s.setStateless c o.ID sessionID clientID).heap.length = s.heap.length := by
    simp only [Server.setStateless, updateClientID]
    split
    · split <;> simp
    · simp
  have hissued : ∀ id, Issued newString (s.setStateless c o.ID sessionID clientID) id ↔
      Issued newString s id := by
    intro id
    simp only [Issued, hlength]
  have hsessions : (s.setStateless c o.ID sessionID clientID).sessions = s.sessions := by
    simp only [Server.setStateless, updateClientID]
    split
    · split <;> rfl
    · rfl
  constructor
  · intro id k hk
    rw [clients_setStateless] at hk
    rcases GoMap.getElem?_insert_eq_some.mp hk with ⟨rfl, rfl⟩ | ⟨hne, hk⟩
    · simp [getElem?_setStateless, ho]
    · obtain ⟨hid, hk⟩ := GoMap.getElem?_erase_eq_some.mp hk
      obtain ⟨o', ho', rfl⟩ := hs.owner id k hk
      -- an entry under another key belongs to another connection
      have hkc : k ≠ c := by
        rintro rfl
        rw [ho] at ho'
        exact hid (congrArg Client.ID (Option.some.inj ho')).symm
      simp [getElem?_setStateless, ho', hkc]
  · intro k o' hk
    rw [hissued]
    rw [getElem?_setStateless] at hk
    obtain ⟨o₁, ho₁, rfl⟩ := Option.map_eq_some_iff.mp hk
    split
    · exact hclient
    · exact hs.client k o₁ ho₁
  · intro k o' sid cid hk hreg
    rw [hissued]
    rw [getElem?_setStateless] at hk
    obtain ⟨o₁, ho₁, rfl⟩ := Option.map_eq_some_iff.mp hk
    refine hs.hello k o₁ sid cid ho₁ ?_
    split at hreg <;> exact hreg
  · intro sid sess hsess
    rw [hsessions] at hsess
    exact (hissued _).mpr (hs.session sid sess hsess)

/-- Every step keeps the map filed under the IDs of the connections. -/
theorem registered_step (hs : Registered newString s) (h : Step newString s a s') :
    Registered newString s' := by
  cases moves_of_step h with
  | accept => exact hs.addClient
  | hello => exact hs
  | @register c o sessionID ho =>
    -- the session's ID was issued to its first client, or is this client's own
    obtain ⟨hreg, hissued⟩ := hs.registerSession sessionID (hs.client c o ho)
    refine hreg.modify c (fun _ => rfl) fun o' sid cid hpoint => Or.inr ?_
    obtain ⟨-, rfl⟩ := ConnPoint.registered.inj hpoint
    exact hissued
  | @setStateless c o sessionID clientID ho hpoint =>
    exact (hs.setStateless ho (hs.hello c o sessionID clientID ho hpoint)).move c .serve rfl
  | @serveEnd c => exact hs.move c .ended rfl
  | @removeClient c o =>
    have hremoved : Registered newString (s.removeClient o.ID) :=
      ⟨fun id k hk => hs.owner id k (GoMap.getElem?_erase_eq_some.mp hk).2, hs.client, hs.hello,
        hs.session⟩
    exact hremoved.move c .removed rfl
  | @closeClient c o =>
    have hclosed : Registered newString (s.closeClient o) := by
      unfold Server.closeClient
      split
      · split
        · rename_i sess hsess
          exact hs.insertSession o.sessionID (hs.session o.sessionID sess hsess)
        · exact hs
      · exact ⟨hs.owner, hs.client, hs.hello, hs.session⟩
    exact hclosed.move c .closed rfl
  | elapse d => exact ⟨hs.owner, hs.client, hs.hello, hs.session⟩
  | reapSessions order =>
    refine ⟨hs.owner, hs.client, hs.hello, fun sid sess hsess => ?_⟩
    simp only [Server.reapSessions, GoMap.rangeUpdate_getElem?, Option.bind_eq_some_iff] at hsess
    obtain ⟨sess', hsess', hkept⟩ := hsess
    unfold reapSession at hkept
    split at hkept
    · exact nomatch hkept
    · obtain rfl := Option.some.inj hkept
      exact hs.session sid sess' hsess'
  | reapNotify => exact ⟨hs.owner, hs.client, hs.hello, hs.session⟩

theorem registered_of_run {tr : List (Transition Server Action)}
    (h : Run (Step newString) new tr s) : Registered newString s :=
  h.invariant registered_new fun _ _ _ => registered_step

/-! ## Open connections -/

/-- Every open connection is reached by notifications, under an ID of its own. -/
structure Notifiable (s : Server) : Prop where
  client : ∀ (k : ClientRef) (o : Client), s.heap[k]? = some o → o.Open →
    s.notifyClient o.ID = some k
  all : ∀ (order : RangeOrder String) (k : ClientRef) (o : Client), s.heap[k]? = some o →
    o.Open → k ∈ s.notifyAll order
  distinct : ∀ (k k' : ClientRef) (o o' : Client), s.heap[k]? = some o → s.heap[k']? = some o' →
    o.Open → o'.Open → o.ID = o'.ID → k = k'

/-- Every open connection is filed under its ID. -/
def Filed (s : Server) : Prop :=
  ∀ (k : ClientRef) (o : Client), s.heap[k]? = some o → o.Open → s.clients[o.ID]? = some k

/-- Every open connection is notified exactly if each is filed under its ID. -/
theorem notifiable_iff_filed : Notifiable s ↔ Filed s := by
  constructor
  · exact fun h => h.client
  · intro h
    constructor
    · exact h
    · intro order k o ho hopen
      exact List.mem_map.mpr ⟨(o.ID, k), (GoMap.mem_entries ..).mpr (h k o ho hopen), rfl⟩
    · intro k k' o o' ho ho' hopen hopen' hid
      -- two open clients with one ID would have one entry
      have hk := h k o ho hopen
      rw [hid, h k' o' ho' hopen'] at hk
      exact (Option.some.inj hk).symm

/-- A deletion on behalf of `c`, from the map entry of its ID, hits no other connection that
    is open. -/
def SparesOthers (s : Server) (c : ClientRef) : Prop :=
  ∀ (o : Client) (k : ClientRef) (o' : Client), s.heap[c]? = some o → s.clients[o.ID]? = some k →
    s.heap[k]? = some o' → o'.Open → k = c

/-- The two actions that delete an entry spare other open connections. -/
def Spares (s : Server) (a : Action) : Prop :=
  ∀ c, a = .setStateless c ∨ a = .removeClient c → SparesOthers s c

/-- A step that changes no map entry and no ID, and opens no connection. -/
theorem Filed.of_heap (hs : Filed s) (hclients : s'.clients = s.clients)
    (hheap : ∀ (k : ClientRef) (o' : Client), s'.heap[k]? = some o' → o'.Open →
      ∃ o, s.heap[k]? = some o ∧ o.ID = o'.ID ∧ o.Open) : Filed s' := by
  intro k o' hk hopen'
  obtain ⟨o, ho, hid, hopen⟩ := hheap k o' hk hopen'
  rw [hclients, ← hid]
  exact hs k o ho hopen

/-- A client moves to another point of its goroutine. -/
theorem Filed.move (hs : Filed s) {c : ClientRef} {o : Client} {point : ConnPoint}
    (ho : s.heap[c]? = some o)
    (hopen : (Client.Open { o with point }) → o.Open) :
    Filed (s.modify c fun o' => { o' with point }) := by
  refine hs.of_heap rfl fun k o' hk hopen' => ?_
  rw [getElem?_modify] at hk
  split at hk
  · rename_i hkc
    subst hkc
    rw [ho, Option.map_some, Option.some.injEq] at hk
    subst hk
    exact ⟨o, ho, rfl, hopen hopen'⟩
  · exact ⟨o', hk, rfl, hopen'⟩

/-- A move that leaves the connection as open as it was. -/
theorem filed_move_iff {c : ClientRef} {o : Client} {point : ConnPoint}
    (ho : s.heap[c]? = some o) (hopen : (Client.Open { o with point }) ↔ o.Open) :
    Filed (s.modify c fun o' => { o' with point }) ↔ Filed s := by
  refine ⟨fun hs' k o₁ hk hopen₁ => ?_, fun hs => hs.move ho hopen.mp⟩
  have hk' := getElem?_modify (s := s) c k fun o' => { o' with point }
  by_cases hkc : k = c
  · subst hkc
    obtain rfl := Option.some.inj (ho.symm.trans hk)
    rw [if_pos rfl, ho, Option.map_some] at hk'
    -- the entry is the same, open or not
    have hentry := hs' k { o with point } hk' (hopen.mpr hopen₁)
    exact hentry
  · rw [if_neg hkc] at hk'
    exact hs' k o₁ (hk'.trans hk) hopen₁

/-- A new ID is nobody else's, so accepting a client overwrites no entry. -/
theorem filed_addClient (hreg : Registered newString s) (hinj : Function.Injective newString)
    (hs : Filed s) : Filed (s.addClient (newString s.heap.length)) := by
  intro k o hk hopen
  simp only [addClient]
  rcases getElem?_addClient hk with hold | ⟨rfl, rfl⟩
  · -- the new UUID is no ID of an earlier client
    have hne : o.ID ≠ newString s.heap.length := by
      intro heq
      obtain ⟨n, hn, hid⟩ := hreg.client k o hold
      have hlength := hinj (hid.symm.trans heq)
      omega
    rw [GoMap.getElem?_insert_ne _ _ hne]
    exact hs k o hold hopen
  · simp

/-- A takeover keeps the open connections filed exactly if the entry it deletes is no other's. -/
theorem filed_setStateless (hreg : Registered newString s) (hs : Filed s) {c : ClientRef}
    {o : Client} {sessionID : String} {clientID : ClientID} (ho : s.heap[c]? = some o) :
    Filed (s.setStateless c o.ID sessionID clientID) ↔ SparesOthers s c := by
  constructor
  · intro hs' o₀ k o' ho₀ hk ho' hopen'
    rw [ho, Option.some.injEq] at ho₀
    subst ho₀
    by_contra hkc
    obtain ⟨o'', ho'', hid⟩ := hreg.owner o.ID k hk
    rw [ho', Option.some.injEq] at ho''
    subst ho''
    -- its entry is deleted before the takeover looks for an owner, so it is not even evicted
    have hunseen : ((s.clients.erase o.ID)[clientID]? == some k) = false := by
      rw [beq_eq_false_iff_ne]
      intro hfound
      obtain ⟨hne, hfound⟩ := GoMap.getElem?_erase_eq_some.mp hfound
      obtain ⟨o'', ho'', hid'⟩ := hreg.owner clientID k hfound
      rw [ho', Option.some.injEq] at ho''
      subst ho''
      exact hne (hid'.symm.trans hid)
    have hheap : (s.setStateless c o.ID sessionID clientID).heap[k]? = some o' := by
      rw [getElem?_setStateless, ho', Option.map_some, if_neg hkc, hunseen, Bool.or_false]
    have hentry := hs' k o' hheap hopen'
    rw [clients_setStateless, hid] at hentry
    rcases GoMap.getElem?_insert_eq_some.mp hentry with ⟨-, hck⟩ | ⟨-, herased⟩
    · exact hkc hck.symm
    · exact (GoMap.getElem?_erase_eq_some.mp herased).1 rfl
  · intro hspares k o' hk hopen'
    rw [clients_setStateless]
    rw [getElem?_setStateless] at hk
    obtain ⟨o₁, ho₁, rfl⟩ := Option.map_eq_some_iff.mp hk
    by_cases hkc : k = c
    · simp [hkc]
    · rw [if_neg hkc] at hopen' ⊢
      -- another open connection: not evicted by the takeover, and its entry is not deleted
      obtain ⟨hpoint, hevicted⟩ := hopen'
      obtain ⟨hnot, hunseen⟩ := Bool.or_eq_false_iff.mp hevicted
      have hopen : o₁.Open := ⟨hpoint, hnot⟩
      have hentry := hs k o₁ ho₁ hopen
      have hne : o₁.ID ≠ o.ID := by
        intro heq
        exact hkc (hspares o k o₁ ho (heq ▸ hentry) ho₁ hopen)
      have herased : (s.clients.erase o.ID)[o₁.ID]? = some k := by
        rw [GoMap.getElem?_erase_ne _ hne]
        exact hentry
      have hother : o₁.ID ≠ clientID := by
        intro heq
        rw [beq_eq_false_iff_ne] at hunseen
        exact hunseen (heq ▸ herased)
      rw [GoMap.getElem?_insert_ne _ _ hother]
      exact herased

/-- So does the removal of a connection. -/
theorem filed_removeClient (hreg : Registered newString s) (hs : Filed s) {c : ClientRef}
    {o : Client} (ho : s.heap[c]? = some o) (hclosed : ¬ o.Open) :
    Filed (s.removeClient o.ID) ↔ SparesOthers s c := by
  constructor
  · intro hs' o₀ k o' ho₀ hk ho' hopen'
    rw [ho, Option.some.injEq] at ho₀
    subst ho₀
    obtain ⟨o'', ho'', hid⟩ := hreg.owner o.ID k hk
    rw [ho', Option.some.injEq] at ho''
    subst ho''
    have hentry := hs' k o' ho' hopen'
    simp only [removeClient, hid] at hentry
    exact absurd rfl (GoMap.getElem?_erase_eq_some.mp hentry).1
  · intro hspares k o' hk hopen'
    simp only [removeClient] at hk ⊢
    have hentry := hs k o' hk hopen'
    rw [GoMap.getElem?_erase_eq_some]
    refine ⟨fun heq => ?_, hentry⟩
    -- a connection under the same ID would be `c`, which is not open
    obtain rfl := hspares o k o' ho (heq ▸ hentry) hk hopen'
    rw [ho, Option.some.injEq] at hk
    exact hclosed (hk ▸ hopen')

/-- A connection is open only in `Serve`, or between its hello and the takeover. -/
theorem not_open_of_point {o : Client} (hserve : o.point ≠ .serve)
    (hsession : o.point.session? = none) : ¬ o.Open := by
  rintro ⟨h | ⟨sessionID, clientID, h⟩, -⟩
  · exact hserve h
  · rw [h] at hsession
    exact nomatch hsession

/-- The two deletions decide about the clients they are made for. -/
theorem spares_iff {c : ClientRef} (ha : a = .setStateless c ∨ a = .removeClient c) :
    Spares s a ↔ SparesOthers s c := by
  constructor
  · exact fun h => h c ha
  · intro h c' ha'
    -- the two actions name one client
    have hc : c' = c := by
      rcases ha with rfl | rfl
      · rcases ha' with heq | heq
        · exact (Action.setStateless.inj heq).symm
        · exact nomatch heq
      · rcases ha' with heq | heq
        · exact nomatch heq
        · exact (Action.removeClient.inj heq).symm
    exact hc ▸ h

/-- A step keeps every open connection filed exactly when it spares the others. -/
theorem filed_step (hreg : Registered newString s) (hinj : Function.Injective newString)
    (hs : Filed s) (h : Step newString s a s') : Filed s' ↔ Spares s a := by
  cases moves_of_step h with
  | accept => exact iff_of_true (filed_addClient hreg hinj hs) nofun
  | hello => exact iff_of_true hs nofun
  | @register c o sessionID ho hpoint =>
    have hregistered : Filed (s.registerSession sessionID o.ID).1 := by
      unfold registerSession
      split <;> exact hs
    have hheap : (s.registerSession sessionID o.ID).1.heap[c]? = some o := by
      unfold registerSession
      split <;> exact ho
    refine iff_of_true (hregistered.move hheap fun hopen => ?_) nofun
    exact ⟨Or.inl hpoint, hopen.2⟩
  | @setStateless c o sessionID clientID ho hpoint =>
    have hheap : (s.setStateless c o.ID sessionID clientID).heap[c]? =
        some { o with ID := clientID, stateless := true, sessionID } := by
      rw [getElem?_setStateless, ho, Option.map_some, if_pos rfl]
    -- the end of the hello neither opens nor closes the connection
    rw [filed_move_iff hheap, filed_setStateless hreg hs ho, spares_iff (Or.inl rfl)]
    exact ⟨fun hopen => ⟨Or.inr ⟨sessionID, clientID, hpoint⟩, hopen.2⟩,
      fun hopen => ⟨Or.inl rfl, hopen.2⟩⟩
  | @serveEnd c o ho =>
    refine iff_of_true (hs.move ho fun hopen => ?_) nofun
    exact absurd hopen (not_open_of_point nofun rfl)
  | @removeClient c o ho hpoint =>
    have hclosed : ¬ o.Open := not_open_of_point (hpoint ▸ nofun) (hpoint ▸ rfl)
    have hheap : (s.removeClient o.ID).heap[c]? = some o := ho
    rw [filed_move_iff hheap, filed_removeClient hreg hs ho hclosed, spares_iff (Or.inr rfl)]
    exact iff_of_false (not_open_of_point nofun rfl) hclosed
  | @closeClient c o ho =>
    have hclosed : Filed (s.closeClient o) := by
      unfold Server.closeClient
      split
      · split <;> exact hs
      · exact hs
    have hheap : (s.closeClient o).heap[c]? = some o := by
      unfold Server.closeClient
      split
      · split <;> exact ho
      · exact ho
    refine iff_of_true (hclosed.move hheap fun hopen => ?_) nofun
    exact absurd hopen (not_open_of_point nofun rfl)
  | elapse d => exact iff_of_true hs nofun
  | reapSessions order => exact iff_of_true hs nofun
  | reapNotify => exact iff_of_true hs nofun

theorem filed_new : Filed new := by
  intro k o hk
  exact nomatch (List.getElem?_nil.symm.trans hk)

/-- In every interleaving, every open connection stays reachable for notifications exactly when
    no `updateClientID` and no `removeClient` runs for a client while another open connection is
    filed under that client's ID. -/
theorem notifiable_iff (hinj : Function.Injective newString)
    {tr : List (Transition Server Action)} (h : Run (Step newString) new tr s) :
    (∀ t ∈ tr, Notifiable t.post) ↔ ∀ t ∈ tr, Spares t.pre t.label := by
  simp only [notifiable_iff_filed]
  exact h.forall_post_iff filed_new fun _ _ _ _ hrun hs hstep =>
    filed_step (registered_of_run hrun) hinj hs hstep

/-- UUIDs told apart by their length. -/
def unary (n : Nat) : ClientID := String.ofList (List.replicate n '0')

/-- Different numbers give different IDs. -/
theorem unary_injective : Function.Injective unary := by
  intro n m h
  have hlist : List.replicate n '0' = List.replicate m '0' := String.ofList_injective h
  simpa using congrArg List.length hlist

/-- A second connection says hello with the session of the first one and takes it over. -/
def takeoverActions : List Action :=
  [.accept, .hello 0 "s", .setStateless 0, .accept, .hello 1 "s", .setStateless 1]

/-- A run with a takeover. -/
theorem notifiable_iff_takeover :
    ∃ tr s, Run (Step unary) new tr s ∧
      ((∀ t ∈ tr, Notifiable t.post) ↔ ∀ t ∈ tr, Spares t.pre t.label) := by
  have hrun := Run.of_follow (next unary) new takeoverActions (by decide)
  exact ⟨_, _, hrun, notifiable_iff unary_injective hrun⟩

/-- The evicted connection is torn down after the takeover: the new owner's entry is deleted. -/
theorem notifiable_fails :
    ∃ newString, Function.Injective newString ∧
      ∃ tr s, Run (Step newString) new tr s ∧ ∃ t ∈ tr, ¬ Notifiable t.post := by
  have hrun := Run.of_follow (next unary) new
    (List.append takeoverActions [.serveEnd 0, .removeClient 0]) (by decide)
  refine ⟨unary, unary_injective, _, _, hrun, _, List.mem_of_getLast? rfl, fun h => ?_⟩
  have hfiled := h.client 1 ⟨unary 0, true, "s", .serve, false⟩ rfl ⟨Or.inl rfl, rfl⟩
  exact absurd hfiled (by decide)

end Server

end Kgd
