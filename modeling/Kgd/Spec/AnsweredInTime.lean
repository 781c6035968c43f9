import Kgd.Client.OCamlCalls
import Kgd.ForStd.ListStep
import Kgd.Spec.PythonCalls

/-!
# Calls that are answered in time

A call of the Python or the OCaml client sleeps until the reader has processed its response or
the connection has ended. When it wakes it asks first whether the connection has ended, and only
then for its response: in between, the reader can have gone on to the end.

## Key results

- `PythonClient.answers_step`, `OCamlClient.answers_step`: one step drops an answer exactly if
  the call looks, or fails to send, too late
- `answered_in_time_iff`: over all runs of either client
-/

namespace Kgd

/-! ## The Python client -/

namespace PythonClient

variable {K V : Type}

/-- What the call returns or raises, once that is settled. -/
def CallPoint.outcome? : CallPoint V → Option (Outcome V)
  | .leaving o | .returned o => some o
  | .sending | .waiting | .woken => none

/-- The reader sets the event of the call for a response, while the connection has not ended and
    the call has not timed out. -/
def ProcessedAt (c : CallNo) (x : Transition (State K V) (Action K V)) : Prop :=
  x.label = .setEvent ∧ x.pre.reader = .setting c ∧ x.pre.done = false ∧
    ∃ call, x.pre.calls[c]? = some call ∧ call.point.outcome? = none

def InTime (tr : History K V) (c : CallNo) : Prop := ∃ x ∈ tr, ProcessedAt c x

/-- The reader has received the response, under this key. -/
def Received (tr : History K V) (k : Key K) (r : Response K V) : Prop :=
  ∃ x ∈ tr, x.label = .receive r ∧ r.msgID = k

/-- Whoever has a response processed in time returns the result of a response with its id, or
    raises its error. -/
def Answers (tr : History K V) (s : State K V) : Prop :=
  ∀ (c : CallNo) call o, InTime tr c → s.calls[c]? = some call →
    call.point.outcome? = some o → ∃ r, Received tr call.key r ∧ o = r.outcome

/-- A call whose response has been processed in time does not fail to send its request, and
    looks whether the connection has ended before it has. -/
def LooksInTime (tr : History K V) (x : Transition (State K V) (Action K V)) : Prop :=
  ∀ c, InTime tr c → x.label ≠ .sendError c ∧ (x.label = .wake c → x.pre.done = false)

variable {s s' : State K V} {a : Action K V} {c c' : CallNo} {p : CallPoint V}
  {call : Call V} {k : Key K} {tr : History K V} {r : Response K V}
  {x : Transition (State K V) (Action K V)}

/-- What a response says is none of the four failures of the call itself. -/
theorem outcome_ne (r : Response K V) :
    r.outcome ≠ .sendError ∧ r.outcome ≠ .timeout ∧ r.outcome ≠ .closed ∧
      r.outcome ≠ .keyError := by
  unfold Response.outcome outcome
  split <;> exact ⟨nofun, nofun, nofun, nofun⟩

variable [DecidableEq K]

/-! ### What a step does to the calls -/

/-- How a call moves. -/
inductive Moves (s : State K V) : Action K V → CallNo → Call V → Call V → Prop
  | send {c : CallNo} {call : Call V} (hp : call.point = .sending) :
    Moves s (.send c) c call { call with point := .waiting }
  | sendError {c : CallNo} {call : Call V} (hp : call.point = .sending) :
    Moves s (.sendError c) c call { call with point := .leaving .sendError }
  | expire {c : CallNo} {call : Call V} (hp : call.point = .waiting)
    (hevent : call.event = false) :
    Moves s (.expire c) c call { call with point := .leaving .timeout }
  | closed {c : CallNo} {call : Call V} (hp : call.point = .waiting) (hdone : s.done = true) :
    Moves s (.wake c) c call { call with point := .leaving .closed }
  | wake {c : CallNo} {call : Call V} (hp : call.point = .waiting) (hdone : s.done = false) :
    Moves s (.wake c) c call { call with point := .woken }
  | collect {c : CallNo} {call : Call V} {err result : Option V} (hp : call.point = .woken)
    (hresult : s.results.lookup call.key = some (err, result)) :
    Moves s (.collect c) c call { call with point := .leaving (outcome err result) }
  | keyError {c : CallNo} {call : Call V} (hp : call.point = .woken)
    (hresult : s.results.lookup call.key = none) :
    Moves s (.collect c) c call { call with point := .leaving .keyError }
  | release {c : CallNo} {call : Call V} {o : Outcome V} (hp : call.point = .leaving o) :
    Moves s (.release c) c call { call with point := .returned o }
  | setEvent {c : CallNo} {call : Call V} : Moves s .setEvent c call { call with event := true }
  | wakeNext {c : CallNo} {call : Call V} : Moves s .wakeNext c call { call with event := true }

/-- The call whose turn it is. -/
def Action.turn : Action K V → Option CallNo
  | .send c | .sendError c | .expire c | .wake c | .collect c | .release c => some c
  | .start | .receive _ | .setEvent | .eof | .listEvents | .wakeNext | .close => none

/-- A call that has just been started. -/
def Fresh (s : State K V) (call : Call V) : Prop := call = ⟨s.nextID, false, .sending⟩

/-- A step starts a call, moves one, or leaves the list. -/
theorem listStep (hs : Step s a s') :
    ListStep (Fresh s) (Moves s a) a.turn s.calls s'.calls := by
  unfold Step at hs
  cases a with
  | start =>
    cases hs
    exact .concat rfl rfl rfl
  | send c =>
    simp only [State.next] at hs
    split at hs
    · rename_i hc
      cases hs
      exact .ofTurn rfl hc (.send rfl)
    · cases hs
  | sendError c =>
    simp only [State.next] at hs
    split at hs
    · rename_i hc
      cases hs
      exact .ofTurn rfl hc (.sendError rfl)
    · cases hs
  | expire c =>
    simp only [State.next] at hs
    split at hs
    · rename_i hc
      cases hs
      exact .ofTurn rfl hc (.expire rfl rfl)
    · cases hs
  | wake c =>
    simp only [State.next] at hs
    split at hs
    · rename_i hc
      cases hs
      apply ListStep.ofTurn rfl hc
      -- the call wakes for its event, or because the client is closed
      cases hdone : s.done with
      | true => exact .closed rfl hdone
      | false => exact .wake rfl hdone
    · cases hs
  | collect c =>
    simp only [State.next] at hs
    split at hs
    · rename_i hc
      split at hs
      · rename_i hresult
        cases hs
        exact .ofTurn rfl hc (.collect rfl hresult)
      · rename_i hresult
        cases hs
        exact .ofTurn rfl hc (.keyError rfl hresult)
    · cases hs
  | release c =>
    simp only [State.next] at hs
    split at hs
    · rename_i hc
      cases hs
      exact .ofTurn rfl hc (.release rfl)
    · cases hs
  | setEvent =>
    simp only [State.next] at hs
    split at hs
    · cases hs
      exact .ofTouch rfl fun _ => .setEvent
    · cases hs
  | wakeNext =>
    simp only [State.next] at hs
    split at hs
    · cases hs
      exact .ofTouch rfl fun _ => .wakeNext
    · cases hs
  -- these are steps of the reader alone
  | receive r | eof | listEvents =>
    simp only [State.next] at hs
    split at hs
    · cases hs
      exact .same rfl rfl
    · cases hs
  | close =>
    cases hs
    exact .same rfl rfl

/-- A call keeps its id, its event and its outcome. -/
structure CallKept (call call' : Call V) : Prop where
  msgID : call'.msgID = call.msgID
  event : call.event = true → call'.event = true
  outcome? : ∀ o, call.point.outcome? = some o → call'.point.outcome? = some o

/-- A call that moves keeps its id, its event and its outcome. -/
theorem Moves.kept {call' : Call V} (h : Moves s a c call call') : CallKept call call' := by
  cases h with
  | send hp | sendError hp | expire hp | closed hp | wake hp | collect hp | keyError hp =>
    -- the call had no outcome before
    refine ⟨rfl, id, fun o ho => ?_⟩
    rw [hp] at ho
    exact nomatch ho
  | release hp =>
    refine ⟨rfl, id, fun o ho => ?_⟩
    rw [hp] at ho
    exact ho
  | setEvent | wakeNext => exact ⟨rfl, fun _ => rfl, fun _ => id⟩

/-- Every call is still there after a step, with its id, its event and its outcome. -/
theorem call_step (hs : Step s a s') (hcall : s.calls[c]? = some call) :
    ∃ call', s'.calls[c]? = some call' ∧ CallKept call call' := by
  obtain ⟨call', hcall', rfl | hmoves⟩ := (listStep hs).forward hcall
  · exact ⟨call', hcall', rfl, id, fun _ => id⟩
  · exact ⟨call', hcall', hmoves.kept⟩

/-- A call that has an outcome after a step has had it before, or moves to it. -/
theorem outcome_step {call' : Call V} {o : Outcome V} (hs : Step s a s')
    (hcall' : s'.calls[c]? = some call') (ho : call'.point.outcome? = some o) :
    ∃ call, s.calls[c]? = some call ∧ call'.msgID = call.msgID ∧
      (call.point.outcome? = some o ∨
        call.point.outcome? = none ∧ Moves s a c call call') := by
  rcases (listStep hs).backward hcall' with hcall | ⟨call, hcall, hmoves⟩ | ⟨-, rfl⟩
  · exact ⟨call', hcall, rfl, .inl ho⟩
  · have hkept := hmoves.kept
    refine ⟨call, hcall, hkept.msgID, ?_⟩
    cases hout : call.point.outcome? with
    | none => exact .inr ⟨rfl, hmoves⟩
    | some o' => exact .inl ((hkept.outcome? o' hout).symm.trans ho)
  · exact nomatch ho

/-- The calls are numbered by their ids. -/
structure Numbered (s : State K V) : Prop where
  msgID : ∀ (c : CallNo) call, s.calls[c]? = some call → call.msgID = c
  nextID : s.nextID = s.calls.length

/-- The counter goes up with the number of calls. -/
theorem nextID_step (hs : Step s a s') :
    s'.nextID + s.calls.length = s.nextID + s'.calls.length := by
  unfold Step at hs
  cases a with
  -- the one step that takes an id and adds a call
  | start =>
    cases hs
    simp only [List.length_append, List.length_singleton]
    omega
  | collect c =>
    simp only [State.next] at hs
    split at hs
    · split at hs
      all_goals
        cases hs
        simp [State.setPoint]
    · cases hs
  | send c | sendError c | expire c | wake c | release c | setEvent | wakeNext | receive r | eof
  | listEvents =>
    simp only [State.next] at hs
    split at hs
    · cases hs
      simp [State.setPoint, State.setEvent]
    · cases hs
  | close =>
    cases hs
    rfl

/-- Every step keeps the calls numbered by their ids. -/
theorem Numbered.step (h : Numbered s) (hs : Step s a s') : Numbered s' := by
  refine ⟨fun c call' hcall' => ?_, ?_⟩
  · rcases (listStep hs).backward hcall' with hcall | ⟨call, hcall, hmoves⟩ | ⟨rfl, rfl⟩
    · exact h.msgID c call' hcall
    · rw [hmoves.kept.msgID, h.msgID c call hcall]
    · exact h.nextID
  · have hid := nextID_step hs
    rw [h.nextID] at hid
    omega

theorem numbered_of_run (h : Run Step .new tr s) : Numbered s :=
  h.invariant ⟨fun _ _ hc => by simp [State.new] at hc, rfl⟩ fun _ _ _ => Numbered.step

/-! ### What a step does to the results -/

/-- A result stays until its call collects it. -/
theorem mem_results_step (hs : Step s a s') (hk : k ∈ s.results) :
    k ∈ s'.results ∨
      ∃ c call, a = .collect c ∧ s.calls[c]? = some call ∧ call.point = .woken ∧ call.key = k := by
  unfold Step at hs
  cases a with
  | start | close =>
    cases hs
    exact .inl hk
  | send c | sendError c | expire c | wake c | release c | setEvent | wakeNext | eof
  | listEvents =>
    simp only [State.next] at hs
    split at hs
    · cases hs
      exact .inl hk
    · cases hs
  | collect c =>
    simp only [State.next] at hs
    split at hs
    · rename_i msgID event hc
      split at hs
      · cases hs
        -- the call takes its own result and no other
        by_cases hid : k = .int msgID
        · exact .inr ⟨c, _, rfl, hc, rfl, hid.symm⟩
        · exact .inl (AList.mem_erase.mpr ⟨hid, hk⟩)
      · cases hs
        exact .inl hk
    · cases hs
  -- one more result, perhaps in place of one under its id
  | receive r =>
    simp only [State.next] at hs
    split at hs
    · cases hs
      exact .inl ((AList.mem_insert _).mpr (.inr hk))
    · cases hs

/-- A result is that of a response. -/
theorem lookup_results_step {v : Option V × Option V} (hs : Step s a s')
    (hk : s'.results.lookup k = some v) :
    s.results.lookup k = some v ∨ ∃ r, a = .receive r ∧ r.msgID = k ∧ v = (r.err, r.result) := by
  unfold Step at hs
  cases a with
  | start | close =>
    cases hs
    exact .inl hk
  | send c | sendError c | expire c | wake c | release c | setEvent | wakeNext | eof
  | listEvents =>
    simp only [State.next] at hs
    split at hs
    · cases hs
      exact .inl hk
    · cases hs
  | collect c =>
    simp only [State.next] at hs
    split at hs
    · rename_i msgID event hc
      split at hs
      · cases hs
        -- the result that was collected is not found any more
        by_cases hid : k = .int msgID
        · subst hid
          have hgone : (s.results.erase (.int msgID)).lookup (.int msgID) = some v := hk
          rw [AList.lookup_erase] at hgone
          cases hgone
        · exact .inl ((AList.lookup_erase_ne hid).symm.trans hk)
      · cases hs
        exact .inl hk
    · cases hs
  | receive r =>
    simp only [State.next] at hs
    split at hs
    · cases hs
      -- the response is what is now found under its id
      by_cases hid : k = r.msgID
      · subst hid
        have hnew : (s.results.insert r.msgID (r.err, r.result)).lookup r.msgID = some v := hk
        rw [AList.lookup_insert] at hnew
        exact .inr ⟨r, rfl, rfl, (Option.some.inj hnew).symm⟩
      · exact .inl ((AList.lookup_insert_ne hid).symm.trans hk)
    · cases hs

/-- Every result has been received. -/
theorem results_received (h : Run Step .new tr s) {err result : Option V}
    (hk : s.results.lookup k = some (err, result)) :
    ∃ r, Received tr k r ∧ r.outcome = outcome err result := by
  -- generalised over the entry, since the step may have stored another one
  revert k err result
  refine h.historyInvariant (I := fun tr s => ∀ {k err result}, s.results.lookup k =
    some (err, result) → ∃ r, Received tr k r ∧ r.outcome = outcome err result) ?_ ?_
  · intro k err result hk
    exact nomatch hk
  · intro tr s a s' _ ih hs k err result hk
    rcases lookup_results_step hs hk with hold | ⟨r, rfl, hid, heq⟩
    · obtain ⟨r, hr, hout⟩ := ih hold
      exact ⟨r, List.exists_mem_concat_left hr, hout⟩
    · refine ⟨r, ⟨_, List.mem_append_right _ (List.mem_singleton_self _), rfl, hid⟩, ?_⟩
      obtain ⟨rfl, rfl⟩ := Prod.mk.inj heq
      rfl

/-! ### A call whose response has been processed -/

/-- The result of the call is there until it collects it. -/
def Ready (s : State K V) (c : CallNo) : Prop :=
  ∃ call, s.calls[c]? = some call ∧ (call.point.outcome? = none → call.key ∈ s.results)

def EventSet (s : State K V) (c : CallNo) : Prop :=
  ∃ call, s.calls[c]? = some call ∧ call.event = true

/-- An event that is set stays so. -/
theorem EventSet.step (h : EventSet s c) (hs : Step s a s') : EventSet s' c := by
  obtain ⟨call, hcall, hevent⟩ := h
  obtain ⟨call', hcall', hkept⟩ := call_step hs hcall
  exact ⟨call', hcall', hkept.event hevent⟩

/-- A call that has no outcome after a step had none before it. -/
theorem CallKept.outcome?_eq_none {call' : Call V} (h : CallKept call call')
    (hnone : call'.point.outcome? = none) : call.point.outcome? = none := by
  apply Option.eq_none_iff_forall_ne_some.mpr
  intro o ho
  exact nomatch hnone.symm.trans (h.outcome? o ho)

/-- A result that is there stays until its call collects it. -/
theorem Ready.step (h : Ready s c) (hn : Numbered s) (hs : Step s a s') : Ready s' c := by
  obtain ⟨call, hcall, hready⟩ := h
  obtain ⟨call', hcall', hkept⟩ := call_step hs hcall
  refine ⟨call', hcall', fun hnone => ?_⟩
  have hkey : call'.key (K := K) = call.key := congrArg (fun n : Nat => Key.int n) hkept.msgID
  rw [hkey]
  rcases mem_results_step hs (hready (hkept.outcome?_eq_none hnone)) with
    hmem | ⟨c', call₁, rfl, hcall₁, hp, hk⟩
  · exact hmem
  · -- the call that collects the result is this one, and has its outcome then
    have hid : call₁.msgID = call.msgID := Int.ofNat.inj (Key.int.inj hk)
    obtain rfl : c' = c := by
      rw [← hn.msgID c' call₁ hcall₁, hid, hn.msgID c call hcall]
    obtain ⟨_, call₂, -, hmoves, hcall₂⟩ := (listStep hs).moved
    obtain rfl := Option.some.inj (hcall'.symm.trans hcall₂)
    cases hmoves with
    | collect | keyError => exact nomatch hnone

/-- The reader sets the event of a call whose result is there. -/
theorem ready_of_setting (h : Run Step .new tr s) (hreader : s.reader = .setting c) :
    Ready s c := by
  -- generalised over the call, since the reader takes up another one
  revert c
  refine h.historyInvariant (I := fun _ s => ∀ {c}, s.reader = .setting c → Ready s c) ?_ ?_
  · intro c hreader
    cases hreader
  · intro tr s a s' hrun ih hs c hreader
    have hn := numbered_of_run hrun
    by_cases hold : s.reader = .setting c
    · exact (ih hold).step hn hs
    · -- the reader has just found the call in the table
      have howned := owned_of_run hrun
      unfold Step at hs
      cases a with
      | receive r =>
        simp only [State.next] at hs
        split at hs
        · cases hs
          have hfound : s.pending.lookup r.msgID = some c := by
            revert hreader
            simp only
            split
            · rename_i hc
              intro heq
              obtain rfl := Reader.setting.inj heq
              exact hc
            · intro heq
              cases heq
          obtain ⟨call, hcall, hkey, -⟩ := howned r.msgID c hfound
          exact ⟨call, hcall, fun _ => (AList.mem_insert _).mpr (.inl hkey)⟩
        · cases hs
      | start | close =>
        cases hs
        exact absurd hreader hold
      | send c' | sendError c' | expire c' | wake c' | release c' =>
        simp only [State.next] at hs
        split at hs
        · cases hs
          exact absurd hreader hold
        · cases hs
      | collect c' =>
        simp only [State.next] at hs
        split at hs
        · split at hs
          all_goals
            cases hs
            exact absurd hreader hold
        · cases hs
      | setEvent | wakeNext | eof | listEvents =>
        simp only [State.next] at hs
        split at hs
        · cases hs
          cases hreader
        · cases hs

theorem processed_of_run (h : Run Step .new tr s) (hc : InTime tr c) :
    Ready s c ∧ EventSet s c := by
  revert c
  refine h.historyInvariant (I := fun tr s => ∀ {c}, InTime tr c → Ready s c ∧ EventSet s c) ?_ ?_
  · intro c hc
    obtain ⟨x, hx, -⟩ := hc
    exact nomatch hx
  · intro tr s a s' hrun ih hs c hc
    have hn := numbered_of_run hrun
    -- processed before, or by this very step of the reader
    rcases List.exists_mem_concat.mp hc with hold | ⟨rfl, hreader, -, call, hcall, -⟩
    · obtain ⟨hready, hevent⟩ := ih hold
      exact ⟨hready.step hn hs, hevent.step hs⟩
    · refine ⟨(ready_of_setting hrun hreader).step hn hs, ?_⟩
      have hreader' : s.reader = .setting c := hreader
      simp only [Step, State.next, hreader'] at hs
      cases hs
      refine ⟨{ call with event := true }, ?_, rfl⟩
      rw [calls_setEvent]
      have hcall' : s.calls[c]? = some call := hcall
      simp [hcall']

/-! ### Answers -/

/-- A step keeps the answers exactly if no call looks, or fails to send, too late. -/
theorem answers_step (h : Run Step .new tr s) (ha : Answers tr s) (hs : Step s a s') :
    Answers (tr ++ [⟨s, a, s'⟩]) s' ↔ LooksInTime tr ⟨s, a, s'⟩ := by
  constructor
  · intro ha' c hc
    constructor
    · rintro rfl
      obtain ⟨call, call', -, hmoves, hcall⟩ := (listStep hs).moved
      cases hmoves with
      | sendError _ =>
        obtain ⟨r, -, hr⟩ := ha' c _ _ (List.exists_mem_concat_left hc) hcall rfl
        exact absurd hr.symm (outcome_ne r).1
    · rintro rfl
      obtain ⟨call, call', -, hmoves, hcall⟩ := (listStep hs).moved
      cases hmoves with
      | closed _ _ =>
        obtain ⟨r, -, hr⟩ := ha' c _ _ (List.exists_mem_concat_left hc) hcall rfl
        exact absurd hr.symm (outcome_ne r).2.2.1
      | wake _ hdone => exact hdone
  · intro hlooks c call' o hc hcall' ho
    obtain ⟨call, hcall, hid, hout⟩ := outcome_step hs hcall' ho
    have hkey : call'.key (K := K) = call.key := congrArg (fun n : Nat => Key.int n) hid
    rcases List.exists_mem_concat.mp hc with hc | ⟨rfl, -, -, call₁, hcall₁, hnone⟩
    -- processed earlier: it has its outcome already, or it gets it by this step
    · rcases hout with hout | ⟨hnone, hmoves⟩
      · obtain ⟨r, hr, heq⟩ := ha c call o hc hcall hout
        exact ⟨r, hkey ▸ List.exists_mem_concat_left hr, heq⟩
      · obtain ⟨⟨_, hcallR, hready⟩, _, hcallE, hevent⟩ := processed_of_run h hc
        obtain rfl := Option.some.inj (hcall.symm.trans hcallR)
        obtain rfl := Option.some.inj (hcall.symm.trans hcallE)
        obtain ⟨hsend, hwake⟩ := hlooks c hc
        cases hmoves with
        | send _ | wake _ _ => exact nomatch ho
        | sendError _ => exact absurd rfl hsend
        | expire _ hevent' => exact nomatch hevent'.symm.trans hevent
        | closed _ hdone => exact nomatch (hwake rfl).symm.trans hdone
        | collect _ hresult =>
          obtain ⟨r, hr, heq⟩ := results_received h hresult
          obtain rfl := Option.some.inj ho
          exact ⟨r, hkey ▸ List.exists_mem_concat_left hr, heq.symm⟩
        | keyError _ hresult =>
          exact absurd (hready hnone) (AList.lookup_eq_none.mp hresult)
        | release hp =>
          rw [hp] at hnone
          exact nomatch hnone
        | setEvent | wakeNext => exact nomatch hnone.symm.trans ho
    · -- a call that is processed now has no outcome yet, and does not move
      obtain rfl := Option.some.inj (hcall.symm.trans hcall₁)
      rcases hout with hout | ⟨-, hmoves⟩
      · exact nomatch hnone.symm.trans hout
      · cases hmoves with
        | setEvent => exact nomatch hnone.symm.trans ho

end PythonClient

/-! ## The OCaml client -/

namespace OCamlClient

abbrev History := List (Transition State Action)

/-- What the call returns or raises, once that is settled. -/
def CallPoint.outcome? : CallPoint → Option Outcome
  | .leaving o | .returned o => some o
  | .sending | .waiting | .woken .. => none

/-- The reader resolves the call with a response, while the connection has not ended and the
    call has not timed out. -/
def ProcessedAt (c : CallNo) (x : Transition State Action) : Prop :=
  x.label = .resolve ∧ (∃ r, x.pre.reader = .resolving c r) ∧ x.pre.done = false ∧
    ∃ call, x.pre.calls[c]? = some call ∧ call.timedOut = false ∧ call.point.outcome? = none

def InTime (tr : History) (c : CallNo) : Prop := ∃ x ∈ tr, ProcessedAt c x

/-- The reader has received the response, with this id. -/
def Received (tr : History) (msgID : Nat) (r : Response) : Prop :=
  ∃ x ∈ tr, x.label = .receive r ∧ toInt r.msgID = msgID

/-- Whoever has a response processed in time returns the result of a response with its id, or
    raises its error. -/
def Answers (tr : History) (s : State) : Prop :=
  ∀ (c : CallNo) call o, InTime tr c → s.calls[c]? = some call →
    call.point.outcome? = some o →
      ∃ r, Received tr call.msgID r ∧ o = outcome call.methodName r.err r.result

/-- A call whose response has been processed in time does not fail to send its request, and
    looks whether the connection has ended before it has. -/
def LooksInTime (tr : History) (x : Transition State Action) : Prop :=
  ∀ c, InTime tr c → x.label ≠ .sendError c ∧ (x.label = .check c → x.pre.done = false)

variable {s s' : State} {a : Action} {c : CallNo} {call call' : Call} {tr : History}
  {r : Response} {x : Transition State Action} {msgID : Nat}

/-- What a response says is no failure of the connection. -/
theorem outcome_ne (methodName : List UInt8) (err result : T) :
    outcome methodName err result ≠ .sendError ∧ outcome methodName err result ≠ .closed := by
  unfold outcome
  split
  · exact ⟨nofun, nofun⟩
  · dsimp only
    split <;> exact ⟨nofun, nofun⟩
  all_goals exact ⟨nofun, nofun⟩

/-! ### What a step does to the calls -/

/-- The reader is in its loop. -/
def ReaderPoint.live : ReaderPoint → Bool
  | .reading | .resolving .. => true
  | .ended | .waking _ | .exited => false

/-- How a call moves. -/
inductive Moves (s : State) : Action → CallNo → Call → Call → Prop
  | fire {c : CallNo} {call : Call} (hresolved : call.resolved = false) :
    Moves s (.fire c) c call { call with timedOut := true, resolved := true }
  | send {c : CallNo} {call : Call} (hp : call.point = .sending) :
    Moves s (.send c) c call { call with point := .waiting }
  | sendError {c : CallNo} {call : Call} (hp : call.point = .sending) :
    Moves s (.sendError c) c call { call with point := .leaving .sendError }
  | wake {c : CallNo} {call : Call} (hp : call.point = .waiting)
      (hresolved : call.resolved = true) :
    Moves s (.wake c) c call { call with point := .woken call.error call.result }
  | timeout {c : CallNo} {call : Call} {err result : T} (hp : call.point = .woken err result)
    (htimer : call.timedOut = true) :
    Moves s (.check c) c call { call with point := .leaving .timeout }
  | closed {c : CallNo} {call : Call} {err result : T} (hp : call.point = .woken err result)
    (htimer : call.timedOut = false) (hdone : s.done = true) :
    Moves s (.check c) c call { call with point := .leaving .closed }
  | answer {c : CallNo} {call : Call} {err result : T} (hp : call.point = .woken err result)
    (htimer : call.timedOut = false) (hdone : s.done = false) :
    Moves s (.check c) c call
      { call with point := .leaving (outcome call.methodName err result) }
  | release {c : CallNo} {call : Call} {o : Outcome} (hp : call.point = .leaving o) :
    Moves s (.release c) c call { call with point := .returned o }
  | resolve {c : CallNo} {call : Call} {r : Response} (hreader : s.reader = .resolving c r) :
    Moves s .resolve c call { call with error := r.err, result := r.result, resolved := true }
  | wakeNext {c : CallNo} {call : Call} (hreader : s.reader.live = false) :
    Moves s (.wakeNext c) c call { call with resolved := true }

/-- The call whose turn it is, or that of its timer. -/
def Action.turn : Action → Option CallNo
  | .fire c | .send c | .sendError c | .wake c | .check c | .release c => some c
  | .start _ | .receive _ | .resolve | .eof | .lockPending | .wakeNext _ | .unlockPending
    | .close => none

/-- A call that has just been started. -/
def Fresh (s : State) (call : Call) : Prop :=
  call.msgID = s.nextID ∧ call.resolved = false ∧ call.point = .sending

/-- A step starts a call, moves one, or leaves the list. -/
theorem listStep (hs : Step s a s') :
    ListStep (Fresh s) (Moves s a) a.turn s.calls s'.calls := by
  unfold Step at hs
  cases a with
  | start methodName =>
    simp only [State.next] at hs
    split at hs
    · cases hs
      exact .concat rfl rfl ⟨rfl, rfl, rfl⟩
    · cases hs
  | fire c =>
    simp only [State.next] at hs
    split at hs
    · rename_i hc
      cases hs
      exact .ofTurn rfl hc (.fire rfl)
    · cases hs
  | send c =>
    simp only [State.next] at hs
    split at hs
    · rename_i hc
      cases hs
      exact .ofTurn rfl hc (.send rfl)
    · cases hs
  | sendError c =>
    simp only [State.next] at hs
    split at hs
    · rename_i hc
      cases hs
      exact .ofTurn rfl hc (.sendError rfl)
    · cases hs
  | wake c =>
    simp only [State.next] at hs
    split at hs
    · rename_i hc
      cases hs
      exact .ofTurn rfl hc (.wake rfl rfl)
    · cases hs
  | check c =>
    simp only [State.next] at hs
    split at hs
    · rename_i timedOut err result hc
      cases hs
      apply ListStep.ofTurn rfl hc
      -- the source looks at the timeout first, then at the end of the connection
      cases timedOut with
      | true => exact .timeout rfl rfl
      | false =>
        cases hdone : s.done with
        | true => exact .closed rfl rfl hdone
        | false => exact .answer rfl rfl hdone
    · cases hs
  | release c =>
    simp only [State.next] at hs
    split at hs
    · rename_i hc
      split at hs
      · cases hs
        exact .ofTurn rfl hc (.release rfl)
      · cases hs
    · cases hs
  | resolve =>
    simp only [State.next] at hs
    split at hs
    · rename_i hreader
      cases hs
      exact .ofTouch rfl fun _ => .resolve hreader
    · cases hs
  | wakeNext c =>
    simp only [State.next] at hs
    split at hs
    · rename_i hreader
      split at hs
      · cases hs
        exact .ofTouch rfl fun _ => .wakeNext (by rw [hreader]; rfl)
      · cases hs
    · cases hs
  | receive r | eof | lockPending | unlockPending =>
    simp only [State.next] at hs
    split at hs
    · cases hs
      exact .same rfl rfl
    · cases hs
  | close =>
    cases hs
    exact .same rfl rfl

/-- A call that moves keeps its id and its method. -/
theorem Moves.kept (h : Moves s a c call call') :
    call'.msgID = call.msgID ∧ call'.methodName = call.methodName := by
  cases h <;> exact ⟨rfl, rfl⟩

/-- A call that has its outcome keeps it. -/
theorem Moves.outcome? {o : Outcome} (h : Moves s a c call call')
    (ho : call.point.outcome? = some o) : call'.point.outcome? = some o := by
  cases h with
  | fire | resolve | wakeNext => exact ho
  | send hp | sendError hp | wake hp | timeout hp | closed hp | answer hp =>
    rw [hp] at ho
    exact nomatch ho
  | release hp =>
    rw [hp] at ho
    exact ho

/-- Every call is still there after a step, with its id. -/
theorem call_step (hs : Step s a s') (hcall : s.calls[c]? = some call) :
    ∃ call', s'.calls[c]? = some call' ∧ call'.msgID = call.msgID := by
  obtain ⟨call', hcall', rfl | hmoves⟩ := (listStep hs).forward hcall
  · exact ⟨call', hcall', rfl⟩
  · exact ⟨call', hcall', hmoves.kept.1⟩

/-- A call that has an outcome after a step has had it before, or moves to it. -/
theorem outcome_step {o : Outcome} (hs : Step s a s') (hcall' : s'.calls[c]? = some call')
    (ho : call'.point.outcome? = some o) :
    ∃ call, s.calls[c]? = some call ∧ call'.msgID = call.msgID ∧
      call'.methodName = call.methodName ∧
      (call.point.outcome? = some o ∨
        call.point.outcome? = none ∧ Moves s a c call call') := by
  rcases (listStep hs).backward hcall' with hcall | ⟨call, hcall, hmoves⟩ | ⟨-, -, -, hp⟩
  · exact ⟨call', hcall, rfl, rfl, .inl ho⟩
  · refine ⟨call, hcall, hmoves.kept.1, hmoves.kept.2, ?_⟩
    cases hout : call.point.outcome? with
    | none => exact .inr ⟨rfl, hmoves⟩
    | some o' => exact .inl ((hmoves.outcome? hout).symm.trans ho)
  · rw [hp] at ho
    exact nomatch ho

/-! ### The table and the reader -/

/-- The key of the call in the table. -/
def Call.key (call : Call) : Int := call.msgID

/-- Every entry of the table is that of a call with its id, and a step keeps it so. -/
theorem owned_step (h : Owned Call.key (fun _ => True) s.pending s.calls) (hs : Step s a s') :
    Owned Call.key (fun _ => True) s'.pending s'.calls := by
  unfold Step at hs
  cases a with
  | start methodName =>
    simp only [State.next] at hs
    split at hs
    · cases hs
      have hcall : (s.calls ++ [⟨s.nextID, methodName, false, .nil, .nil, false, .sending⟩])[
          s.calls.length]? = some ⟨s.nextID, methodName, false, .nil, .nil, false, .sending⟩ :=
        List.getElem?_concat_length
      -- an entry under the same id gives way to that of the new call
      exact Owned.insert h.erase.concat hcall trivial
    · exact nomatch hs
  | fire c | send c | sendError c | wake c | check c | resolve =>
    simp only [State.next] at hs
    split at hs
    · cases hs
      exact h.modify fun _ _ _ _ => ⟨rfl, trivial⟩
    · exact nomatch hs
  | release c =>
    simp only [State.next] at hs
    split at hs
    · split at hs
      · cases hs
        -- the call takes its own entry out
        exact h.erase.modify fun _ _ _ _ => ⟨rfl, trivial⟩
      · exact nomatch hs
    · exact nomatch hs
  | wakeNext c =>
    simp only [State.next] at hs
    split at hs
    · split at hs
      · cases hs
        exact h.modify fun _ _ _ _ => ⟨rfl, trivial⟩
      · exact nomatch hs
    · exact nomatch hs
  | receive r | eof | lockPending | unlockPending =>
    simp only [State.next] at hs
    split at hs
    · cases hs
      exact h
    · exact nomatch hs
  | close =>
    cases hs
    exact h

theorem owned_of_run (h : Run Step .new tr s) :
    Owned Call.key (fun _ => True) s.pending s.calls :=
  h.invariant (I := fun s => Owned Call.key (fun _ => True) s.pending s.calls) .empty
    fun _ _ _ => owned_step

/-- The reader never comes back to its loop, and resolves calls that it has found. -/
theorem reader_step (hs : Step s a s') (hlive : s'.reader.live = true) :
    s.reader.live = true ∧ ∀ c r, s'.reader = .resolving c r →
      s.reader = .resolving c r ∨
        a = .receive r ∧ s.pending.lookup (toInt r.msgID) = some c := by
  unfold Step at hs
  cases a with
  | start methodName =>
    simp only [State.next] at hs
    split at hs
    · cases hs
      exact ⟨hlive, fun _ _ h => .inl h⟩
    · exact nomatch hs
  | fire c | send c | sendError c | wake c | check c =>
    simp only [State.next] at hs
    split at hs
    · cases hs
      exact ⟨hlive, fun _ _ h => .inl h⟩
    · exact nomatch hs
  | release c =>
    simp only [State.next] at hs
    split at hs
    · split at hs
      · cases hs
        exact ⟨hlive, fun _ _ h => .inl h⟩
      · exact nomatch hs
    · exact nomatch hs
  | receive r =>
    simp only [State.next] at hs
    split at hs
    · rename_i hreader
      cases hs
      refine ⟨by rw [hreader]; rfl, fun c r' h => ?_⟩
      revert h
      dsimp only
      split
      · rename_i hfound
        intro h
        -- the call that is found under the id of the response
        obtain ⟨rfl, rfl⟩ := ReaderPoint.resolving.inj h
        exact .inr ⟨rfl, hfound⟩
      · exact nofun
    · exact nomatch hs
  | resolve =>
    simp only [State.next] at hs
    split at hs
    · rename_i hreader
      cases hs
      exact ⟨by rw [hreader]; rfl, nofun⟩
    · exact nomatch hs
  | wakeNext c =>
    simp only [State.next] at hs
    split at hs
    · split at hs
      · cases hs
        exact nomatch hlive
      · exact nomatch hs
    · exact nomatch hs
  -- past the end of its loop the reader resolves no response
  | eof | lockPending | unlockPending =>
    simp only [State.next] at hs
    split at hs
    · cases hs
      exact nomatch hlive
    · exact nomatch hs
  | close =>
    cases hs
    exact ⟨hlive, fun _ _ h => .inl h⟩

/-! ### What the fields of a call say about the responses received -/

/-- The values are those of a response with the id of the call. -/
def Source (tr : History) (msgID : Nat) (err result : T) : Prop :=
  ∃ r, Received tr msgID r ∧ r.err = err ∧ r.result = result

/-- The fields of a call that is resolved, and what it has read from them, are a response's. -/
structure Sourced (tr : History) (call : Call) : Prop where
  fields : call.resolved = true → Source tr call.msgID call.error call.result
  woken : ∀ err result, call.point = .woken err result → Source tr call.msgID err result

/-- A call that has not timed out is resolved by responses only, as long as the reader is in its
    loop; and one whose response has been processed in time stays so. -/
structure Explained (tr : History) (s : State) : Prop where
  reader : ∀ c r, s.reader = .resolving c r →
    ∃ call, s.calls[c]? = some call ∧ Received tr call.msgID r
  looping : s.reader.live = true → ∀ (c : CallNo) call, s.calls[c]? = some call →
    call.timedOut = false → Sourced tr call
  processed : ∀ c, InTime tr c → ∃ call, s.calls[c]? = some call ∧ call.timedOut = false ∧
    call.resolved = true ∧ Sourced tr call

/-- What came from a response came from it ever after. -/
theorem Source.concat {err result : T} (h : Source tr msgID err result) :
    Source (tr ++ [x]) msgID err result := by
  obtain ⟨r, hr, hrest⟩ := h
  exact ⟨r, List.exists_mem_concat_left hr, hrest⟩

/-- The fields of a call stay those of a response. -/
theorem Sourced.concat (h : Sourced tr call) : Sourced (tr ++ [x]) call :=
  ⟨fun hres => (h.fields hres).concat, fun e v hp => (h.woken e v hp).concat⟩

/-- A call that moves without timing out stays sourced, if the end of the reader does not resolve
    it. -/
theorem Sourced.moves (h : Sourced tr call) (hm : Moves s a c call call')
    (hreader : ∀ r, s.reader = .resolving c r → Received tr call.msgID r)
    (htimer : call'.timedOut = false) (hres : s.reader.live = true ∨ call.resolved = true) :
    Sourced tr call' := by
  cases hm with
  | fire => exact nomatch htimer
  | send | sendError | timeout | closed | answer | release => exact ⟨h.fields, nofun⟩
  | wake _ hresolved =>
    refine ⟨h.fields, fun err result hp => ?_⟩
    obtain ⟨rfl, rfl⟩ := CallPoint.woken.inj hp
    exact h.fields hresolved
  | resolve hr => exact ⟨fun _ => ⟨_, hreader _ hr, rfl, rfl⟩, h.woken⟩
  | wakeNext hended =>
    rcases hres with hlive | hresolved
    · exact nomatch hended.symm.trans hlive
    · exact ⟨fun _ => h.fields hresolved, h.woken⟩

/-- A step explains what it writes into a call by the response it takes it from. -/
theorem explained_step (h : Explained tr s)
    (howned : Owned Call.key (fun _ => True) s.pending s.calls) (hs : Step s a s') :
    Explained (tr ++ [⟨s, a, s'⟩]) s' := by
  -- the call that the reader is resolving is the one the response is for
  have hfound : ∀ c r call, s.reader = .resolving c r → s.calls[c]? = some call →
      Received tr call.msgID r := by
    intro c r call hreader hcall
    obtain ⟨call₁, hcall₁, hr⟩ := h.reader c r hreader
    obtain rfl := Option.some.inj (hcall₁.symm.trans hcall)
    exact hr
  constructor
  · intro c r hreader
    obtain ⟨-, hkept⟩ := reader_step hs (by rw [hreader]; rfl)
    rcases hkept c r hreader with hold | ⟨rfl, hlookup⟩
    · obtain ⟨call, hcall, hr⟩ := h.reader c r hold
      obtain ⟨call', hcall', hid⟩ := call_step hs hcall
      exact ⟨call', hcall', hid ▸ List.exists_mem_concat_left hr⟩
    -- the entry that was found is that of a call with this id
    · obtain ⟨call, hcall, hkey, -⟩ := howned _ c hlookup
      obtain ⟨call', hcall', hid⟩ := call_step hs hcall
      refine ⟨call', hcall', _, List.mem_append_right _ (List.mem_singleton_self _), rfl, ?_⟩
      rw [hid]
      exact hkey.symm
  · intro hlive' c call' hcall' htimer
    obtain ⟨hlive, -⟩ := reader_step hs hlive'
    rcases (listStep hs).backward hcall' with hcall | ⟨call, hcall, hmoves⟩ |
      ⟨-, -, hresolved, hp⟩
    · exact (h.looping hlive c call' hcall htimer).concat
    -- a call that has not timed out now had not before
    · have htimer' : call.timedOut = false := by
        cases hmoves with
        | fire => exact nomatch htimer
        | send | sendError | wake | timeout | closed | answer | release | resolve | wakeNext =>
          exact htimer
      exact ((h.looping hlive c call hcall htimer').moves hmoves
        (fun r hr => hfound c r call hr hcall) htimer (.inl hlive)).concat
    · exact ⟨fun hres => (nomatch hresolved.symm.trans hres),
        fun _ _ hwoken => (nomatch hp.symm.trans hwoken)⟩
  · intro c hc
    rcases List.exists_mem_concat.mp hc with hc | ⟨rfl, ⟨r, hreader⟩, -, call, hcall, htimer, -⟩
    · obtain ⟨call, hcall, htimer, hresolved, hsourced⟩ := h.processed c hc
      obtain ⟨call', hcall', rfl | hmoves⟩ := (listStep hs).forward hcall
      · exact ⟨call', hcall', htimer, hresolved, hsourced.concat⟩
      -- the timer comes too late for a call that is resolved
      · have hstays : call'.timedOut = false ∧ call'.resolved = true := by
          cases hmoves with
          | fire hfresh => exact nomatch hfresh.symm.trans hresolved
          | send | sendError | wake | timeout | closed | answer | release =>
            exact ⟨htimer, hresolved⟩
          | resolve | wakeNext => exact ⟨htimer, rfl⟩
        exact ⟨call', hcall', hstays.1, hstays.2, (hsourced.moves hmoves
          (fun r hr => hfound c r call hr hcall) hstays.1 (.inr hresolved)).concat⟩
    · have hreader' : s.reader = .resolving c r := hreader
      have hcall' : s.calls[c]? = some call := hcall
      have hlive : s.reader.live = true := by
        rw [hreader']
        rfl
      have hsourced := (h.looping hlive c call hcall htimer).moves (.resolve hreader')
        (fun r hr => hfound c r call hr hcall) htimer (.inl hlive)
      refine ⟨{ call with error := r.err, result := r.result, resolved := true }, ?_, htimer, rfl,
        hsourced.concat⟩
      simp only [Step, State.next, hreader'] at hs
      cases hs
      simp [State.resolve, hcall']

theorem explained_of_run (h : Run Step .new tr s) : Explained tr s := by
  refine h.historyInvariant (I := Explained) ⟨?_, ?_, ?_⟩
    fun tr s a s' hrun hi hs => explained_step hi (owned_of_run hrun) hs
  · intro c r hreader
    exact nomatch hreader
  · intro _ c call hc
    simp [State.new] at hc
  · intro c hc
    obtain ⟨x, hx, -⟩ := hc
    exact nomatch hx

/-! ### Answers -/

/-- A step keeps the answers exactly if no call looks, or fails to send, too late. -/
theorem answers_step (h : Run Step .new tr s) (ha : Answers tr s) (hs : Step s a s') :
    Answers (tr ++ [⟨s, a, s'⟩]) s' ↔ LooksInTime tr ⟨s, a, s'⟩ := by
  constructor
  · intro ha' c hc
    constructor
    · rintro rfl
      obtain ⟨call, call', -, hmoves, hcall⟩ := (listStep hs).moved
      cases hmoves with
      | sendError _ =>
        obtain ⟨r, -, hr⟩ := ha' c _ _ (List.exists_mem_concat_left hc) hcall rfl
        exact absurd hr.symm (outcome_ne ..).1
    · rintro rfl
      obtain ⟨call, call', hcall, hmoves, hcall'⟩ := (listStep hs).moved
      cases hmoves with
      | timeout _ htimer =>
        -- the timer has not fired
        obtain ⟨call₁, hcall₁, hfresh, -⟩ := (explained_of_run h).processed c hc
        obtain rfl := Option.some.inj (hcall.symm.trans hcall₁)
        exact nomatch hfresh.symm.trans htimer
      | closed =>
        obtain ⟨r, -, hr⟩ := ha' c _ _ (List.exists_mem_concat_left hc) hcall' rfl
        exact absurd hr.symm (outcome_ne ..).2
      | answer _ _ hdone => exact hdone
  · intro hlooks c call' o hc hcall' ho
    obtain ⟨call, hcall, hid, hname, hout⟩ := outcome_step hs hcall' ho
    rw [hid, hname]
    rcases List.exists_mem_concat.mp hc with hc | ⟨rfl, -, -, call₁, hcall₁, -, hnone⟩
    · rcases hout with hout | ⟨hnone, hmoves⟩
      · obtain ⟨r, hr, heq⟩ := ha c call o hc hcall hout
        exact ⟨r, List.exists_mem_concat_left hr, heq⟩
      · obtain ⟨_, hcallP, htimer, hresolved, hsourced⟩ := (explained_of_run h).processed c hc
        obtain rfl := Option.some.inj (hcall.symm.trans hcallP)
        obtain ⟨hsend, hcheck⟩ := hlooks c hc
        cases hmoves with
        | send | wake => exact nomatch ho
        | fire | resolve | wakeNext => exact nomatch hnone.symm.trans ho
        | sendError => exact absurd rfl hsend
        | timeout _ htimer' => exact nomatch htimer.symm.trans htimer'
        | closed _ _ hdone => exact nomatch (hcheck rfl).symm.trans hdone
        | answer hp =>
          obtain ⟨r, hr, rfl, rfl⟩ := hsourced.woken _ _ hp
          exact ⟨r, List.exists_mem_concat_left hr, (Option.some.inj ho).symm⟩
        | release hp =>
          rw [hp] at hnone
          exact nomatch hnone
    · -- a call that is processed now has no outcome yet, and does not get one
      obtain rfl := Option.some.inj (hcall.symm.trans hcall₁)
      rcases hout with hout | ⟨-, hmoves⟩
      · exact nomatch hnone.symm.trans hout
      · cases hmoves with
        | resolve => exact nomatch hnone.symm.trans ho

end OCamlClient

/-! ## Both clients -/

/-- In every run of either client, whoever has a response processed in time gets it, exactly if
    every such call sends its request and looks whether the connection has ended before it has. -/
theorem answered_in_time_iff {K V : Type} [DecidableEq K] {trP : PythonClient.History K V}
    {sP : PythonClient.State K V} {trO : OCamlClient.History} {sO : OCamlClient.State} :
    (Run PythonClient.Step .new trP sP →
      (Run.Along (fun tr x => PythonClient.Answers (tr ++ [x]) x.post) trP ↔
        Run.Along PythonClient.LooksInTime trP)) ∧
    (Run OCamlClient.Step .new trO sO →
      (Run.Along (fun tr x => OCamlClient.Answers (tr ++ [x]) x.post) trO ↔
        Run.Along OCamlClient.LooksInTime trO)) := by
  -- both by one argument: what a step has to do so that the answers stay right
  constructor
  · intro h
    apply h.along_post_iff (P := PythonClient.Answers)
    · intro c call o hc
      obtain ⟨x, hx, -⟩ := hc
      exact nomatch hx
    · intro tr s a s' hrun ha hs
      exact PythonClient.answers_step hrun ha hs
  · intro h
    apply h.along_post_iff (P := OCamlClient.Answers)
    · intro c call o hc
      obtain ⟨x, hx, -⟩ := hc
      exact nomatch hx
    · intro tr s a s' hrun ha hs
      exact OCamlClient.answers_step hrun ha hs

/-- A call that is answered before the connection ends. -/
theorem answered_in_time_iff_eof :
    (∃ tr s, Run PythonClient.Step (.new : PythonClient.State Unit Unit) tr s ∧
      s.calls = [⟨0, true, .returned (.result none)⟩] ∧ s.done = true ∧
      (Run.Along (fun tr x => PythonClient.Answers (tr ++ [x]) x.post) tr ↔
        Run.Along PythonClient.LooksInTime tr)) ∧
    (∃ tr s, Run OCamlClient.Step .new tr s ∧
      s.calls = [⟨0, [], true, .nil, .nil, false, .returned (.result .nil)⟩] ∧ s.done = true ∧
      (Run.Along (fun tr x => OCamlClient.Answers (tr ++ [x]) x.post) tr ↔
        Run.Along OCamlClient.LooksInTime tr)) := by
  have hp := Run.of_follow PythonClient.State.next (.new : PythonClient.State Unit Unit)
    [.start, .send 0, .receive ⟨.int 0, none, none⟩, .setEvent, .wake 0, .collect 0, .release 0,
      .eof] (by decide)
  have ho := Run.of_follow OCamlClient.State.next .new
    [.start [], .send 0, .receive ⟨.int 0, .nil, .nil⟩, .resolve, .wake 0, .check 0, .release 0,
      .eof] (by decide)
  have ⟨hpIff, hoIff⟩ :=
    (answered_in_time_iff (K := Unit) (V := Unit)).imp (· hp) (· ho)
  exact ⟨⟨_, _, hp, rfl, rfl, hpIff⟩, ⟨_, _, ho, rfl, rfl, hoIff⟩⟩

/-- The reader processes a response and goes on to the end of the connection before the call
    looks: the call reports that the connection was closed. -/
theorem answer_dropped :
    ¬ (∀ tr s, Run PythonClient.Step (.new : PythonClient.State Unit Unit) tr s →
        PythonClient.Answers tr s) ∧
    ¬ (∀ tr s, Run OCamlClient.Step .new tr s → OCamlClient.Answers tr s) := by
  constructor
  · intro h
    -- the answer is there before the end of the stream, and the call wakes after it
    have hrun := Run.of_follow PythonClient.State.next (.new : PythonClient.State Unit Unit)
      [.start, .send 0, .receive ⟨.int 0, none, none⟩, .setEvent, .eof, .wake 0] (by decide)
    obtain ⟨r, -, hr⟩ := h _ _ hrun 0 _ .closed
      ⟨_, List.mem_of_getElem? (i := 3) rfl, rfl, rfl, rfl, _, rfl, rfl⟩ rfl rfl
    exact (PythonClient.outcome_ne r).2.2.1 hr.symm
  · intro h
    -- here the check after the wake-up comes too late
    have hrun := Run.of_follow OCamlClient.State.next .new
      [.start [], .send 0, .receive ⟨.int 0, .nil, .nil⟩, .resolve, .eof, .wake 0, .check 0]
      (by decide)
    obtain ⟨r, -, hr⟩ := h _ _ hrun 0 _ .closed
      ⟨_, List.mem_of_getElem? (i := 3) rfl, rfl, ⟨_, rfl⟩, rfl, _, rfl, rfl, rfl⟩ rfl rfl
    exact (OCamlClient.outcome_ne ..).2 hr.symm

end Kgd
