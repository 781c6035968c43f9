import Kgd.Spec.PendingCalls

/-!
# Calls of the Zig client

## Key results

- `ZigClient.table_step`: a step takes, updates or leaves slots of the table
- `ZigClient.held_explained`: what the slot of a call says about the responses received there
- `ZigClient.succeeded_received`: a call that succeeds has received a response
-/

namespace Kgd

namespace ZigClient

/-- The message id whose slot the call holds. -/
def CallPoint.held : CallPoint → Option UInt32
  | .sending msgid | .waiting msgid | .failing msgid _ | .woken msgid => some msgid
  | .encoding _ | .returned .. => none

def CallPoint.success : CallPoint → Option (UInt32 × List UInt8)
  | .returned msgid (.ok d) => some (msgid, d)
  | .encoding _ | .sending _ | .waiting _ | .failing .. | .woken _ | .returned _ (.error _) => none

/-- The call is past the test of `closed`. -/
def CallPoint.pastClosed : CallPoint → Option UInt32
  | .woken msgid => some msgid
  | .encoding _ | .sending _ | .waiting _ | .failing .. | .returned .. => none

abbrev client : RpcClient where
  State := State
  Action := Action
  step := Step
  new := .new
  held s := s.calls.map CallPoint.held
  received
    | .receive r copied => if r.result.isEmpty then none else some (r, copied)
    | _ => none
  written s
    | .send c =>
      match s.calls[c]? with
      | some (.sending msgid) => some msgid
      | _ => none
    | _ => none
  success s := s.calls.map CallPoint.success

/-! ## The table of slots -/

def table (s : State) : SlotTable CallNo UInt32 (Fin maxPending) PendingCall :=
  .ofList CallPoint.held s.calls s.pending

/-- What an action does to slots that stay active. -/
def effect : Action → Fin maxPending → PendingCall → PendingCall
  | .receive r copied => fun i p =>
    if i = slot r.msgid ∧ p.active ∧ r.result.isEmpty = false then p.receive r copied else p
  | .eof => fun _ p => p.wake
  | .closeWake => fun _ p => p.closeWake
  | _ => fun _ p => p

variable {s s' : State} {a : Action} {c : CallNo} {msgid : UInt32} {p : PendingCall}

theorem wake_active (p : PendingCall) : p.wake.active = p.active := by
  rw [PendingCall.wake]
  split <;> rfl

theorem receive_active (p : PendingCall) (r : Response) (copied : Bool) :
    (p.receive r copied).active = p.active := by
  rw [PendingCall.receive]
  split <;> rfl

/-- An action leaves the slots active as they were. -/
theorem effect_active (a : Action) (i : Fin maxPending) (p : PendingCall) :
    (effect a i p).active = p.active := by
  cases a with
  | receive r copied =>
    simp only [effect]
    split
    · exact receive_active p r copied
    · rfl
  | eof => exact wake_active p
  | closeWake => exact wake_active p
  | start | encodeError | acquire | send | sendError | wake | expire | release | collect | close =>
    rfl

/-- What touches the slots only is a step of the table. -/
theorem touch_table (hcalls : s'.calls = s.calls)
    (hpending : s'.pending = fun i => effect a i (s.pending i)) :
    SlotTable.Step slot PendingCall.active .fresh (table s) (effect a) (table s') := by
  unfold table
  rw [hcalls]
  exact .ofTouch (effect a) hpending fun i => effect_active a i (s.pending i)

/-- The reader leaves the response in the slot of its id, if that is active. -/
theorem receive_pending (s : State) {r : Response} (copied : Bool)
    (hresult : r.result.isEmpty = false) :
    (if (s.pending (slot r.msgid)).active then
      s.setPending (slot r.msgid) ((s.pending (slot r.msgid)).receive r copied) else s).pending =
      fun i => effect (.receive r copied) i (s.pending i) := by
  funext i
  simp only [effect, hresult, and_true]
  -- only an active entry at the slot of the response changes
  by_cases hi : i = slot r.msgid
  · subst hi
    by_cases hactive : (s.pending (slot r.msgid)).active = true
    · rw [if_pos hactive, if_pos ⟨rfl, hactive⟩]
      exact Function.update_self ..
    · rw [if_neg hactive, if_neg fun h => hactive h.2]
  · have hother : ¬ (i = slot r.msgid ∧ (s.pending i).active = true) := fun h => hi h.1
    rw [if_neg hother]
    split
    · exact Function.update_of_ne hi ..
    · rfl

/-- Collecting a result is a step of the table. -/
theorem collect_table {allocated : Bool} (hc : s.calls[c]? = some (.woken msgid)) :
    SlotTable.Step slot PendingCall.active .fresh (table s) (fun _ p => p)
      (table (s.collect c msgid allocated)) := by
  simp only [State.collect]
  split
  · exact .setLeave _ hc rfl rfl rfl
  · split <;> exact .setLeave _ hc rfl rfl rfl

/-- A step takes, updates or leaves slots. -/
theorem table_step (h : Step s a s') :
    SlotTable.Step slot PendingCall.active .fresh (table s) (effect a) (table s') := by
  unfold Step at h
  cases a with
  | start =>
    cases h
    exact .concat rfl
  | encodeError c | send c =>
    simp only [State.next] at h
    split at h
    · rename_i hc
      cases h
      exact .set hc rfl
    · exact nomatch h
  -- a call that finds its slot taken gives up before it writes anything
  | acquire c =>
    simp only [State.next] at h
    split at h
    · split at h
      · rename_i hc _
        cases h
        exact .set hc rfl
      · rename_i hc hactive
        cases h
        exact .setTake hc rfl rfl (Bool.eq_false_iff.mpr hactive)
    · exact nomatch h
  -- the call clears its slot on the way out
  | sendError c | release c =>
    simp only [State.next] at h
    split at h
    · rename_i hc
      cases h
      exact .setLeave _ hc rfl rfl rfl
    · exact nomatch h
  | wake c =>
    simp only [State.next] at h
    split at h
    · rename_i hc
      split at h
      · cases h
        refine .set hc ?_
        split <;> rfl
      · exact nomatch h
    · exact nomatch h
  | expire c =>
    simp only [State.next] at h
    split at h
    · rename_i hc
      split at h
      · exact nomatch h
      · cases h
        exact .set hc rfl
    · exact nomatch h
  | collect c allocated =>
    simp only [State.next] at h
    split at h
    · rename_i hc
      cases h
      exact collect_table hc
    · exact nomatch h
  | receive r copied =>
    simp only [State.next] at h
    split at h
    · split at h
      · rename_i hempty
        cases h
        refine touch_table rfl ?_
        simp [effect, hempty]
      · rename_i hresult
        cases h
        refine touch_table ?_ (receive_pending s copied (Bool.eq_false_iff.mpr hresult))
        split <;> rfl
    · exact nomatch h
  | eof =>
    simp only [State.next] at h
    split at h
    · cases h
      exact touch_table rfl rfl
    · exact nomatch h
  | closeWake =>
    simp only [State.next] at h
    split at h
    · cases h
      exact touch_table rfl rfl
    · exact nomatch h
  | close =>
    cases h
    exact .quiet rfl rfl

/-! ## What a step does to the calls -/

/-- The point of a call that is neither past the test of `closed` nor a success. -/
def CallPoint.Plain (p : CallPoint) : Prop := p.pastClosed = none ∧ p.success = none

/-- What a step does to the calls. -/
inductive CallStep (s s' : State) : Prop
  | same (h : s'.calls = s.calls)
  | start {p : CallPoint} (h : s'.calls = s.calls ++ [p]) (hp : p.Plain)
  | move {c : CallNo} {p : CallPoint} (h : s'.calls = s.calls.set c p) (hp : p.Plain)
  | woken {c : CallNo} {msgid : UInt32} (h : s'.calls = s.calls.set c (.woken msgid))
    (hc : s.calls[c]? = some (.waiting msgid)) (hevent : (s.pending (slot msgid)).event = true)
    (hclosed : s.closed = false)
  | collect {c : CallNo} {msgid : UInt32} {allocated : Bool}
    (hc : s.calls[c]? = some (.woken msgid)) (h : s' = s.collect c msgid allocated)

/-- Collecting a result does not open or close the client. -/
theorem collect_closed (s : State) (c : CallNo) (msgid : UInt32) (allocated : Bool) :
    (s.collect c msgid allocated).closed = s.closed := by
  simp only [State.collect]
  split
  · rfl
  · split <;> rfl

/-- A step moves a call, and `closed` is never reset. -/
theorem callStep (h : Step s a s') : CallStep s s' ∧ (s.closed = true → s'.closed = true) := by
  unfold Step at h
  cases a with
  | start =>
    cases h
    exact ⟨.start rfl ⟨rfl, rfl⟩, id⟩
  | encodeError c | send c | sendError c | release c =>
    simp only [State.next] at h
    split at h
    · cases h
      exact ⟨.move rfl ⟨rfl, rfl⟩, id⟩
    · exact nomatch h
  | acquire c =>
    simp only [State.next] at h
    split at h
    · split at h
      all_goals
        cases h
        exact ⟨.move rfl ⟨rfl, rfl⟩, id⟩
    · exact nomatch h
  | wake c =>
    simp only [State.next] at h
    split at h
    · rename_i msgid hc
      split at h
      · rename_i hevent
        cases h
        refine ⟨?_, id⟩
        -- woken on a closed client, the call returns an error
        cases hclosed : s.closed with
        | true => exact .move rfl ⟨rfl, rfl⟩
        | false => exact .woken rfl hc hevent hclosed
      · exact nomatch h
    · exact nomatch h
  | expire c =>
    simp only [State.next] at h
    split at h
    · split at h
      · exact nomatch h
      · cases h
        exact ⟨.move rfl ⟨rfl, rfl⟩, id⟩
    · exact nomatch h
  | collect c allocated =>
    simp only [State.next] at h
    split at h
    · rename_i hc
      cases h
      exact ⟨.collect hc rfl, fun hclosed => by rwa [collect_closed]⟩
    · exact nomatch h
  | receive r copied =>
    simp only [State.next] at h
    split at h
    · split at h
      · cases h
        exact ⟨.same rfl, id⟩
      · cases h
        split <;> exact ⟨.same rfl, id⟩
    · exact nomatch h
  | eof | closeWake =>
    simp only [State.next] at h
    split at h
    · cases h
      exact ⟨.same rfl, id⟩
    · exact nomatch h
  | close =>
    cases h
    exact ⟨.same rfl, fun _ => rfl⟩

/-- The call is past the test of `closed`. -/
def PastClosed (s : State) (c : CallNo) (msgid : UInt32) : Prop :=
  s.calls[c]?.bind CallPoint.pastClosed = some msgid

/-- The call has returned success, with this id and this data. -/
def Succeeded (s : State) (c : CallNo) (v : UInt32 × List UInt8) : Prop :=
  s.calls[c]?.bind CallPoint.success = some v

variable {v : UInt32 × List UInt8}

/-- The data of a slot, as `collect` returns it. -/
theorem succeeded_of_collect {c' : CallNo} {allocated : Bool}
    (hc : s.calls[c']? = some (.woken msgid)) (hv : Succeeded (s.collect c' msgid allocated) c v) :
    Succeeded s c v ∨
      PastClosed s c msgid ∧ (s.pending (slot msgid)).hasError = false ∧
        v = (msgid, (s.pending (slot msgid)).resultData.getD []) := by
  have hlt : c' < s.calls.length := (List.getElem?_eq_some_iff.mp hc).1
  -- only the collecting call has a new result
  have hleave : ∀ {p result}, Succeeded (s.leave c' msgid p result) c v →
      Succeeded s c v ∨ c = c' ∧ ∃ d, result = .ok d ∧ v = (msgid, d) := by
    intro p result hv
    by_cases hcc : c' = c
    · subst hcc
      rw [Succeeded, State.leave, State.setCall, State.setPending,
        List.getElem?_set_self hlt] at hv
      cases result with
      | ok d => exact .inr ⟨rfl, d, rfl, (Option.some.inj hv).symm⟩
      | error e => exact nomatch hv
    · rw [Succeeded, State.leave, State.setCall, State.setPending, List.getElem?_set_ne hcc] at hv
      exact .inl hv
  have hpast : PastClosed s c' msgid := by
    rw [PastClosed, hc]
    rfl
  simp only [State.collect] at hv
  split at hv
  · rcases hleave hv with hv | ⟨-, d, hd, -⟩
    · exact .inl hv
    · exact nomatch hd
  · rename_i herr
    -- no error: the data of the entry is the result, if there is any
    have hok : (s.pending (slot msgid)).hasError = false := by simpa using herr
    split at hv
    · rename_i d hdata
      rcases hleave hv with hv | ⟨rfl, d', hd, rfl⟩
      · exact .inl hv
      · refine .inr ⟨hpast, hok, ?_⟩
        rw [hdata, Option.getD_some, Except.ok.inj hd]
    · rename_i hdata
      rcases hleave hv with hv | ⟨rfl, d', hd, rfl⟩
      · exact .inl hv
      · cases allocated with
        | false => exact nomatch hd
        | true =>
          refine .inr ⟨hpast, hok, ?_⟩
          rw [hdata, Option.getD_none, ← Except.ok.inj hd]

/-- A call gets past the test of `closed` with its event set and the client not closed. -/
theorem pastClosed_of_step (h : Step s a s') (hp : PastClosed s' c msgid) :
    PastClosed s c msgid ∨ (table s).claim c = some msgid ∧
      (s.pending (slot msgid)).event = true ∧ s.closed = false := by
  unfold PastClosed at hp
  cases (callStep h).1 with
  | same hcalls =>
    rw [hcalls] at hp
    exact .inl hp
  | start hcalls hplain =>
    rw [hcalls] at hp
    exact .inl (List.bind_getElem?_of_concat hplain.1 hp)
  | move hcalls hplain =>
    rw [hcalls] at hp
    exact .inl (List.bind_getElem?_of_set hplain.1 hp)
  -- the one step that gets past the check of `closed`
  | @woken c' msgid' hcalls hc hevent hclosed =>
    rw [hcalls] at hp
    by_cases hcc : c' = c
    · subst hcc
      have hlt : c' < s.calls.length := (List.getElem?_eq_some_iff.mp hc).1
      rw [List.getElem?_set_self hlt] at hp
      obtain rfl := Option.some.inj hp
      refine .inr ⟨?_, hevent, hclosed⟩
      show s.calls[c']?.bind CallPoint.held = _
      rw [hc]
      rfl
    · rw [List.getElem?_set_ne hcc] at hp
      exact .inl hp
  | @collect c' msgid' allocated hc heq =>
    obtain ⟨result, hcalls⟩ : ∃ result, s'.calls = s.calls.set c' (.returned msgid' result) := by
      rw [heq]
      simp only [State.collect]
      split
      · exact ⟨_, rfl⟩
      · split <;> exact ⟨_, rfl⟩
    rw [hcalls] at hp
    exact .inl (List.bind_getElem?_of_set rfl hp)

/-- Only `collect` lets a call succeed. -/
theorem succeeded_of_step (h : Step s a s') (hv : Succeeded s' c v) :
    Succeeded s c v ∨
      PastClosed s c v.1 ∧ (s.pending (slot v.1)).hasError = false ∧
        v.2 = (s.pending (slot v.1)).resultData.getD [] := by
  cases (callStep h).1 with
  | same hcalls =>
    rw [Succeeded, hcalls] at hv
    exact .inl hv
  | start hcalls hplain =>
    rw [Succeeded, hcalls] at hv
    exact .inl (List.bind_getElem?_of_concat hplain.2 hv)
  | move hcalls hplain =>
    rw [Succeeded, hcalls] at hv
    exact .inl (List.bind_getElem?_of_set hplain.2 hv)
  | woken hcalls hc hevent hclosed =>
    rw [Succeeded, hcalls] at hv
    exact .inl (List.bind_getElem?_of_set rfl hv)
  -- the one step that gives a call its result
  | collect hc heq =>
    rw [heq] at hv
    rcases succeeded_of_collect hc hv with hv | ⟨hpast, hok, rfl⟩
    · exact .inl hv
    · exact .inr ⟨hpast, hok, rfl⟩

/-! ## What a call has received -/

/-- A call that waits can still learn that the client is closed. -/
def Lost (s : State) (c : CallNo) (msgid : UInt32) : Prop :=
  s.closed = true ∧ ¬ PastClosed s c msgid

/-- The exiting reader wakes no call that waits for its response, or the client is closed. -/
def NobodyWaits (s : State) : Action → Prop
  | .eof => s.closed = true ∨ ∀ i, (s.pending i).active = true → (s.pending i).done = true
  | _ => True

/-- `close` frees no result that a call has yet to collect. -/
def KeepsResults (s : State) : Action → Prop
  | .closeWake => ∀ i, (s.pending i).active = true → (s.pending i).resultData = none
  | _ => True

instance (s : State) (a : Action) : Decidable (NobodyWaits s a) := by
  cases a with
  | eof => exact @instDecidableOr _ _ inferInstance (Nat.decidableForallFin _)
  | _ => exact .isTrue trivial

instance (s : State) (a : Action) : Decidable (KeepsResults s a) := by
  cases a with
  | closeWake => exact Nat.decidableForallFin _
  | _ => exact .isTrue trivial

/-- What the slot of a call says about the responses received there. -/
structure Explained (tr : List (Transition State Action)) (s : State) (c : CallNo)
    (msgid : UInt32) (p : PendingCall) : Prop where
  event : p.event = p.done
  pastClosed : PastClosed s c msgid → p.done = true
  answered : Answered (client.Received tr c msgid) (Lost s c msgid) p.done p.hasError
  data : (∀ x ∈ tr, KeepsResults x.pre x.label) →
    DataOf (client.Received tr c msgid) (Lost s c msgid) p.done p.hasError p.resultData

variable {tr : List (Transition State Action)}

/-- A call past the test of `closed` holds its slot. -/
theorem PastClosed.claim (h : PastClosed s c msgid) : (table s).claim c = some msgid := by
  obtain ⟨q, hq, hpast⟩ := Option.bind_eq_some_iff.mp h
  show s.calls[c]?.bind CallPoint.held = _
  cases q with
  | woken msgid' => rw [hq, ← hpast]; rfl
  | encoding | sending | waiting | failing | returned => exact nomatch hpast

/-- A call that can learn that the client is closed still can, or has. -/
theorem Lost.step (h : Step s a s') (hlost : Lost s c msgid) : Lost s' c msgid := by
  obtain ⟨hclosed, hpast⟩ := hlost
  refine ⟨(callStep h).2 hclosed, fun hpast' => ?_⟩
  rcases pastClosed_of_step h hpast' with hbefore | ⟨-, -, hopen⟩
  · exact hpast hbefore
  · rw [hclosed] at hopen
    exact nomatch hopen

/-- A slot that a call has just taken. -/
theorem explained_fresh (h : Step s a s') (hclaim : (table s).claim c = none) :
    Explained tr s' c msgid .fresh where
  event := rfl
  pastClosed hpast := by
    -- nobody had claimed the slot, so nobody is past the check with it
    rcases pastClosed_of_step h hpast with hbefore | ⟨hclaim', -⟩
    · rw [hbefore.claim] at hclaim
      exact nomatch hclaim
    · rw [hclaim'] at hclaim
      exact nomatch hclaim
  answered hdone := nomatch hdone
  data _ :=
    { some := fun _ hd => nomatch hd
      none := fun _ hdone _ => nomatch hdone }

/-- A slot whose contents a step leaves alone. -/
theorem Explained.step (h : Explained tr s c msgid (s.pending (slot msgid)))
    (hs : Step s a s') :
    Explained (tr ++ [⟨s, a, s'⟩]) s' c msgid (s.pending (slot msgid)) where
  event := h.event
  pastClosed hpast := by
    rcases pastClosed_of_step hs hpast with hbefore | ⟨-, hevent, -⟩
    · exact h.pastClosed hbefore
    · rw [← h.event, hevent]
  answered := h.answered.mono (fun _ _ hr => hr.concat) (Lost.step hs)
  data hkeeps :=
    (h.data fun x hx => hkeeps x (List.mem_append_left _ hx)).mono (fun _ _ hr => hr.concat)
      (Lost.step hs)

/-- A response in the slot. -/
theorem Explained.receive (h : Explained tr s c msgid p) {r : Response} {copied : Bool}
    (hr : client.Received tr c msgid r copied) : Explained tr s c msgid (p.receive r copied) := by
  rw [PendingCall.receive]
  by_cases hok : r.hasError = false
  · rw [if_pos (by simp [hok])]
    exact ⟨rfl, fun _ => rfl, .receive hr, fun _ => DataOf.receive hr hok⟩
  · have herr : r.hasError = true := by simpa using hok
    rw [if_neg (by simp [herr])]
    exact ⟨rfl, fun _ => rfl, .receive hr, fun hkeeps => (h.data hkeeps).receiveError herr⟩

/-- Waking a call that is done, or that will see that the client is closed. -/
theorem Explained.wake (h : Explained tr s c msgid p)
    (hquiet : p.done = true ∨ s.closed = true) : Explained tr s c msgid p.wake := by
  rw [PendingCall.wake]
  split
  · by_cases hdone : p.done = true
    · have hevent := h.event
      rw [hdone] at hevent
      rw [← hdone, show ({ p with done := p.done, event := p.done } : PendingCall) = p by
        cases p; simp_all]
      exact h
    -- woken on a closed client without an answer
    · have hlost : Lost s c msgid := by
        refine ⟨hquiet.resolve_left hdone, fun hpast => hdone (h.pastClosed hpast)⟩
      exact ⟨rfl, fun _ => rfl, fun _ _ => .inl hlost, fun hkeeps =>
        { some := (h.data hkeeps).some
          none := fun _ _ _ => .inl hlost }⟩
  · exact h

/-- What an action does to the slot of a call that holds it. -/
theorem explained_effect (hs : Step s a s') (hheld : (client.held s)[c]? = some (some msgid))
    (hactive : (s.pending (slot msgid)).active = true) (hcond : NobodyWaits s a)
    (h : Explained tr s c msgid (s.pending (slot msgid))) :
    Explained (tr ++ [⟨s, a, s'⟩]) s' c msgid
      (effect a (slot msgid) (s.pending (slot msgid))) := by
  have hstep := h.step hs
  cases a with
  | receive r copied =>
    simp only [effect]
    split
    · rename_i hslot
      have hreceived : client.received (.receive r copied) = some (r, copied) := by
        show (if r.result.isEmpty then none else some (r, copied)) = _
        rw [hslot.2.2]
        rfl
      exact hstep.receive (.last hreceived hheld hslot.1.symm)
    · exact hstep
  | eof =>
    refine hstep.wake ?_
    rcases hcond with hclosed | hdone
    · exact .inr ((callStep hs).2 hclosed)
    · exact .inl (hdone _ hactive)
  | closeWake =>
    have hclosed : s.closed = true := by
      unfold Step at hs
      simp only [State.next] at hs
      split at hs
      · rename_i hguard
        simp only [Bool.and_eq_true] at hguard
        exact hguard.1
      · exact nomatch hs
    have hwake := hstep.wake (.inr ((callStep hs).2 hclosed))
    refine ⟨hwake.event, hwake.pastClosed, hwake.answered, fun hkeeps => ?_⟩
    -- the result that `close` frees is none
    have hnone := hkeeps ⟨s, .closeWake, s'⟩ (by simp) (slot msgid) hactive
    have hdata : (s.pending (slot msgid)).wake.resultData = none := by
      rw [PendingCall.wake]
      split <;> exact hnone
    have hkept := hwake.data hkeeps
    rw [hdata] at hkept
    exact hkept
  | start | encodeError | acquire | send | sendError | wake | expire | release | collect | close =>
    exact hstep

theorem exclusive_of_run {s : State} (h : Run Step .new tr s) :
    SlotTable.Exclusive slot PendingCall.active (table s) :=
  SlotTable.exclusive_of_run table h table_step rfl fun _ => rfl

/-- What the slot of a call says about the responses received there. -/
theorem held_explained {s : State} (h : Run Step .new tr s)
    (hcond : ∀ x ∈ tr, NobodyWaits x.pre x.label)
    (hheld : (client.held s)[c]? = some (some msgid)) :
    Explained tr s c msgid (s.pending (slot msgid)) := by
  have hrun := h.restrict (C := fun x => NobodyWaits x.pre x.label) hcond
  refine hrun.historyInvariant
    (I := fun tr s => ∀ c msgid, (table s).claim c = some msgid →
      Explained tr s c msgid (s.pending (slot msgid)))
    (fun _ _ hc => by simp [table, State.new, SlotTable.ofList] at hc) ?_ c msgid
    (SlotTable.claim_ofList_iff.mpr hheld)
  intro tr s a s' hrun ih hs c msgid hc
  obtain ⟨hs, hwaits⟩ := hs
  have hx := exclusive_of_run (hrun.mono fun _ _ _ hs => hs.1)
  show Explained _ s' c msgid ((table s').box (slot msgid))
  -- the slot was just taken, or it was held before the step
  rcases (table_step hs).held hx hc with ⟨hnone, hfresh⟩ | ⟨hc, hbox⟩
  · rw [hfresh]
    exact explained_fresh hs hnone
  · rw [hbox]
    exact explained_effect hs (SlotTable.claim_ofList_iff.mp hc) (hx.taken hc) hwaits
      (ih c msgid hc)

/-- What a call has received that has succeeded. -/
def Informed (tr : List (Transition State Action)) (c : CallNo) (msgid : UInt32)
    (d : List UInt8) : Prop :=
  (∃ r copied, client.Received tr c msgid r copied ∧ r.hasError = false) ∧
    ((∀ x ∈ tr, KeepsResults x.pre x.label) →
      ∃ r copied, client.Received tr c msgid r copied ∧ r.hasError = false ∧
        (d = r.result ∨ copied = false))

/-- What was received has been received ever after. -/
theorem Informed.concat {d : List UInt8} {x : Transition State Action}
    (h : Informed tr c msgid d) : Informed (tr ++ [x]) c msgid d := by
  obtain ⟨⟨r, copied, hr, hok⟩, hdata⟩ := h
  refine ⟨⟨r, copied, hr.concat, hok⟩, fun hkeeps => ?_⟩
  obtain ⟨r, copied, hr, hrest⟩ := hdata fun x hx => hkeeps x (List.mem_append_left _ hx)
  exact ⟨r, copied, hr.concat, hrest⟩

/-- A call past the test of `closed` has received what is in its slot. -/
theorem Explained.informed (h : Explained tr s c msgid p) (hpast : PastClosed s c msgid)
    (herr : p.hasError = false) : Informed tr c msgid (p.resultData.getD []) := by
  have hnot : ¬ Lost s c msgid := fun hlost => hlost.2 hpast
  have hdone := h.pastClosed hpast
  refine ⟨(h.answered hdone herr).resolve_left hnot, fun hkeeps => ?_⟩
  have hdata := h.data hkeeps
  rw [hdone, herr] at hdata
  exact hdata.result hnot

/-- A call that succeeds has received a response without an error, and returns its result if
    that was copied and kept. -/
theorem succeeded_received {s : State} {d : List UInt8} (h : Run Step .new tr s)
    (hcond : ∀ x ∈ tr, NobodyWaits x.pre x.label) (hv : Succeeded s c (msgid, d)) :
    Informed tr c msgid d := by
  have hrun := h.restrict (C := fun x => NobodyWaits x.pre x.label) hcond
  refine hrun.historyInvariant
    (I := fun tr s => ∀ c msgid d, Succeeded s c (msgid, d) → Informed tr c msgid d)
    (fun _ _ _ hv => by simp [Succeeded, State.new] at hv) ?_ c msgid d hv
  intro tr s a s' hrun ih hs c msgid d hv
  obtain ⟨hs, -⟩ := hs
  rcases succeeded_of_step hs hv with hv | ⟨hpast, herr, hd⟩
  · exact (ih c msgid d hv).concat
  · dsimp only at hpast herr hd
    rw [hd]
    -- the condition held of every step so far, so the entry is explained by a response
    have hquiet : ∀ x ∈ tr, NobodyWaits x.pre x.label := by
      intro x hx
      obtain ⟨_, _, rfl, -, hstep⟩ := hrun.exists_split hx
      exact hstep.2
    have hexpl := held_explained (hrun.mono fun _ _ _ hs => hs.1) hquiet
      (SlotTable.claim_ofList_iff.mp hpast.claim)
    exact (hexpl.informed hpast herr).concat

/-- A call of the API returns without an error. -/
def ReportsSuccess (result : Except Error (List UInt8)) : Prop :=
  result.isOk = true ∨ (unplace result).isOk = true ∨ (free result).isOk = true

/-- No call of the API returns without an error unless `doCall` does. -/
theorem ReportsSuccess.ok {result : Except Error (List UInt8)} (h : ReportsSuccess result) :
    ∃ d, result = .ok d := by
  cases result with
  | ok d => exact ⟨d, rfl⟩
  | error e =>
    rcases h with h | h | h
    all_goals exact nomatch h

/-- Only a call whose request was answered without an error returns without one. -/
def SuccessAnswered (tr : List (Transition State Action)) (s : State) : Prop :=
  ∀ (c : CallNo) msgid result, s.calls[c]? = some (.returned msgid result) →
    ReportsSuccess result → ∃ r copied, client.Received tr c msgid r copied ∧ r.hasError = false

/-- In a run in which nobody waits when the reader exits, a call that succeeds was answered. -/
theorem successAnswered {s : State} (h : Run Step .new tr s)
    (hcond : ∀ x ∈ tr, NobodyWaits x.pre x.label) : SuccessAnswered tr s := by
  intro c msgid result hc hsuccess
  obtain ⟨d, rfl⟩ := hsuccess.ok
  have hv : Succeeded s c (msgid, d) := by
    rw [Succeeded, hc]
    rfl
  exact (succeeded_received h hcond hv).1

end ZigClient

end Kgd
