import Kgd.ForStd.List
import Kgd.Spec.PendingCalls

/-!
# Calls of the C client

## Key results

- `CClient.table_step`: a step takes, updates or leaves slots of the table
- `CClient.held_data`: what the entry of a call says about the responses received in its slot
- `CClient.success_of_step`: a call returns success when its entry is done without an error
-/

namespace Kgd

namespace CClient

/-- The message id whose slot the call holds. -/
def CallPoint.held : CallPoint → Option UInt32
  | .sending msgid | .sent msgid | .waiting msgid | .failing msgid _ => some msgid
  | .encoding _ | .returned .. => none

def CallPoint.success : CallPoint → Option (UInt32 × List UInt8)
  | .returned msgid (.ok o) => some (msgid, o.bytes)
  | .encoding _ | .sending _ | .sent _ | .waiting _ | .failing .. | .returned _ (.error _) => none

abbrev client : RpcClient where
  State := State
  Action := Action
  step := Step
  new := .new
  held s := s.calls.map CallPoint.held
  received
    | .receive r copied => some (r, copied)
    | _ => none
  written s
    | .send c =>
      match s.calls[c]? with
      | some (.sending msgid) => some msgid
      | _ => none
    | _ => none
  success s := s.calls.map CallPoint.success

/-! ## The table of slots -/

def table (s : State) : SlotTable CallNo UInt32 (Fin maxPending) PendingEntry :=
  .ofList CallPoint.held s.calls s.pending

/-- What an action does to entries that stay active. -/
def effect (s : State) : Action → Fin maxPending → PendingEntry → PendingEntry
  | .receive r copied => fun i e =>
    if i = slot r.msgid ∧ e.active then e.receive r copied else e
  | .wake => fun i e => if s.reader = .waking i ∧ e.active then { e with done := true } else e
  | _ => fun _ e => e

variable {s s' : State} {a : Action} {c : CallNo} {msgid : UInt32} {p q : CallPoint}

/-- Whatever `check` finds, the slot is still held or is left. -/
theorem check_table (hc : s.calls[c]? = some q) (hq : q.held = some msgid) :
    SlotTable.Step slot PendingEntry.active .fresh (table s) (fun _ e => e)
      (table (s.check c msgid)) := by
  rw [State.check]
  split
  · exact .set hc hq.symm
  · split
    · exact .set hc hq.symm
    · split
      · exact .set hc hq.symm
      · exact .setLeave _ hc hq rfl rfl

/-- An action that changes entries and leaves them active as they were. -/
theorem touch_table {f : Fin maxPending → PendingEntry → PendingEntry}
    (hcalls : s'.calls = s.calls) (hpending : s'.pending = fun i => f i (s.pending i))
    (hactive : ∀ i, (f i (s.pending i)).active = (s.pending i).active) :
    SlotTable.Step slot PendingEntry.active .fresh (table s) f (table s') := by
  unfold table
  rw [hcalls]
  exact .ofTouch f hpending hactive

theorem receive_active (e : PendingEntry) (r : Response) (copied : Bool) :
    (e.receive r copied).active = e.active := by
  rw [PendingEntry.receive]
  split
  · split <;> rfl
  · rfl

/-- The reader leaves the response in the slot of its id, if that is active. -/
theorem receive_pending (s : State) (r : Response) (copied : Bool) :
    (if (s.pending (slot r.msgid)).active then
      s.setPending (slot r.msgid) ((s.pending (slot r.msgid)).receive r copied) else s).pending =
      fun i => effect s (.receive r copied) i (s.pending i) := by
  funext i
  simp only [effect]
  -- only an active entry at the slot of the response changes
  by_cases hi : i = slot r.msgid
  · subst hi
    by_cases hactive : (s.pending (slot r.msgid)).active = true
    · rw [if_pos hactive, if_pos ⟨rfl, hactive⟩]
      exact Function.update_self ..
    · rw [if_neg hactive, if_neg fun h => hactive h.2]
  · have hother : ¬ (i = slot r.msgid ∧ (s.pending i).active = true) := fun h => hi h.1
    rw [if_neg hother]
    split
    · exact Function.update_of_ne hi ..
    · rfl

/-- Waking a slot marks it as done, if it is active. -/
theorem wake_pending {j : Fin maxPending} (hreader : s.reader = .waking j) :
    (if (s.pending j).active then s.setPending j { s.pending j with done := true }
      else s).pending = fun i => effect s .wake i (s.pending i) := by
  funext i
  simp only [effect, hreader, Reader.waking.injEq]
  -- only the slot the reader is at changes, and only if it is active
  by_cases hi : i = j
  · subst hi
    by_cases hactive : (s.pending i).active = true
    · rw [if_pos hactive, if_pos ⟨rfl, hactive⟩]
      exact Function.update_self ..
    · rw [if_neg hactive, if_neg fun h => hactive h.2]
  · have hother : ¬ (j = i ∧ (s.pending i).active = true) := fun h => hi h.1.symm
    rw [if_neg hother]
    split
    · exact Function.update_of_ne hi ..
    · rfl

/-- A step takes, updates or leaves slots. -/
theorem table_step (h : Step s a s') :
    SlotTable.Step slot PendingEntry.active .fresh (table s) (effect s a) (table s') := by
  unfold Step at h
  cases a with
  | start =>
    cases h
    exact .concat rfl
  | encodeError c =>
    simp only [State.next] at h
    split at h
    · rename_i hc
      cases h
      exact .set hc rfl
    · exact nomatch h
  | acquire c =>
    simp only [State.next] at h
    split at h
    · split at h
      · rename_i hc _
        cases h
        exact .set hc rfl
      -- the slot was free, so nobody held it
      · rename_i hc hactive
        cases h
        exact .setTake hc rfl rfl (Bool.eq_false_iff.mpr hactive)
    · exact nomatch h
  | send c =>
    simp only [State.next] at h
    split at h
    · rename_i hc
      cases h
      exact .set hc rfl
    · exact nomatch h
  | sendError c =>
    simp only [State.next] at h
    split at h
    · rename_i hc
      cases h
      exact .setLeave _ hc rfl rfl rfl
    · exact nomatch h
  -- the call waits on, or has returned and left its slot
  | check c =>
    simp only [State.next] at h
    split at h
    · rename_i hc
      cases h
      exact check_table hc rfl
    · rename_i hc
      cases h
      exact check_table hc rfl
    · exact nomatch h
  | expire c =>
    simp only [State.next] at h
    split at h
    · split at h
      · exact nomatch h
      · rename_i hc _
        cases h
        exact .setLeave _ hc rfl rfl rfl
    · exact nomatch h
  | release c =>
    simp only [State.next] at h
    split at h
    · rename_i hc
      cases h
      exact .setLeave _ hc rfl rfl rfl
    · exact nomatch h
  | receive r copied =>
    simp only [State.next] at h
    split at h
    · cases h
      -- a response is written into a slot that stays as active as it was
      refine touch_table ?_ (receive_pending s r copied) ?_
      · split <;> rfl
      · intro i
        simp only [effect]
        split
        · exact receive_active _ r copied
        · rfl
    · exact nomatch h
  | eof =>
    simp only [State.next] at h
    split at h
    · cases h
      exact .quiet rfl rfl
    · exact nomatch h
  | wake =>
    simp only [State.next] at h
    split at h
    · rename_i j hreader
      cases h
      refine touch_table ?_ (wake_pending hreader) ?_
      · dsimp only
        split <;> rfl
      · intro i
        simp only [effect]
        split <;> rfl
    · exact nomatch h
  | close =>
    cases h
    exact .quiet rfl rfl

/-! ## What a call has received -/

/-- The entry that the exiting reader is about to wake. -/
def wakes (s : State) : Action → Option (Fin maxPending)
  | .wake =>
    match s.reader with
    | .waking i => some i
    | _ => none
  | _ => none

/-- The exiting reader wakes no call that waits for its response. -/
def NobodyWaits (s : State) (a : Action) : Prop :=
  ∀ i ∈ wakes s a, (s.pending i).active = true → (s.pending i).done = true

instance (s : State) (a : Action) : Decidable (NobodyWaits s a) :=
  @Option.decidableForallMem _ _ (fun _ => inferInstance) (wakes s a)

/-- What the entry of a call says about the responses received in its slot. -/
structure Explained (tr : List (Transition State Action)) (c : CallNo) (msgid : UInt32)
    (e : PendingEntry) :
    Prop where
  data : DataOf (client.Received tr c msgid) False e.done e.hasError e.data
  len : ∀ d, e.data = some d → e.len = d.length

variable {tr : List (Transition State Action)} {e : PendingEntry}

/-- A slot that is new says nothing. -/
theorem explained_fresh : Explained tr c msgid .fresh where
  data :=
    { some := fun _ hd => nomatch hd
      none := fun _ hdone _ => nomatch hdone }
  len _ hd := nomatch hd

/-- What was received explains the slot ever after. -/
theorem Explained.concat {x : Transition State Action} (h : Explained tr c msgid e) :
    Explained (tr ++ [x]) c msgid e where
  data := h.data.mono (fun _ _ hr => hr.concat) id
  len := h.len

/-- A response in the slot. -/
theorem Explained.receive (h : Explained tr c msgid e) {r : Response} {copied : Bool}
    (hr : client.Received tr c msgid r copied) : Explained tr c msgid (e.receive r copied) := by
  rw [PendingEntry.receive]
  -- an error, an empty result, or a result that may not be copied for lack of memory
  by_cases hok : r.hasError = false
  · by_cases hlen : 0 < r.result.length
    · rw [if_pos (by simp [hok, hlen])]
      have hdata : DataOf (client.Received tr c msgid) False true r.hasError
          (if copied then some r.result else none) := .receive hr hok
      cases copied with
      | true =>
        refine ⟨hdata, fun d hd => ?_⟩
        rw [← Option.some.inj hd]
        rfl
      | false => exact ⟨hdata, fun d hd => nomatch hd⟩
    · rw [if_neg (by simp [hlen])]
      have hempty : r.result = [] := List.length_eq_zero_iff.mp (by omega)
      exact ⟨h.data.receiveEmpty hr hok hempty, h.len⟩
  · have herr : r.hasError = true := by simpa using hok
    rw [if_neg (by simp [herr])]
    exact ⟨h.data.receiveError herr, h.len⟩

/-- What an action does to the entry of a call that holds it. -/
theorem explained_effect (hheld : (client.held s)[c]? = some (some msgid))
    (hactive : (s.pending (slot msgid)).active = true) (hcond : NobodyWaits s a)
    (h : Explained tr c msgid (s.pending (slot msgid))) :
    Explained (tr ++ [⟨s, a, s'⟩]) c msgid (effect s a (slot msgid) (s.pending (slot msgid))) := by
  have hconcat := h.concat (x := ⟨s, a, s'⟩)
  cases a with
  | receive r copied =>
    simp only [effect]
    split
    · rename_i hslot
      exact hconcat.receive (.last rfl hheld hslot.1.symm)
    · exact hconcat
  | wake =>
    simp only [effect]
    split
    · rename_i hreader
      -- the entry is done already
      have hdone : (s.pending (slot msgid)).done = true :=
        hcond (slot msgid) (by simp [wakes, hreader.1]) hactive
      rw [← hdone]
      exact hconcat
    · exact hconcat
  | start | encodeError | acquire | send | sendError | check | expire | release | eof | close =>
    exact hconcat

theorem exclusive_of_run {s : State} (h : Run Step .new tr s) :
    SlotTable.Exclusive slot PendingEntry.active (table s) :=
  SlotTable.exclusive_of_run table h table_step rfl fun _ => rfl

/-- What the entry of a call says about the responses received in its slot. -/
theorem held_data {s : State} (h : Run Step .new tr s)
    (hcond : ∀ x ∈ tr, NobodyWaits x.pre x.label)
    (hheld : (client.held s)[c]? = some (some msgid)) :
    Explained tr c msgid (s.pending (slot msgid)) := by
  have hrun := h.restrict (C := fun x => NobodyWaits x.pre x.label) hcond
  refine hrun.historyInvariant
    (I := fun tr s => ∀ c msgid, (table s).claim c = some msgid →
      Explained tr c msgid (s.pending (slot msgid)))
    (fun _ _ hc => by simp [table, State.new, SlotTable.ofList] at hc) ?_ c msgid
    (SlotTable.claim_ofList_iff.mpr hheld)
  intro tr s a s' hrun ih hs c msgid hc
  obtain ⟨hs, hwake⟩ := hs
  have hx := exclusive_of_run (hrun.mono fun _ _ _ hs => hs.1)
  -- the slot was just taken, or it was held before the step
  rcases (table_step hs).held hx hc with ⟨-, hfresh⟩ | ⟨hc, hbox⟩
  · show Explained _ c msgid ((table s').box (slot msgid))
    rw [hfresh]
    exact explained_fresh
  · show Explained _ c msgid ((table s').box (slot msgid))
    rw [hbox]
    exact explained_effect (SlotTable.claim_ofList_iff.mp hc) (hx.taken hc) hwake (ih c msgid hc)

/-! ## Returning success -/

/-- The call has returned success, with this id and this data. -/
def Succeeded (s : State) (c : CallNo) (v : UInt32 × List UInt8) : Prop :=
  s.calls[c]?.bind CallPoint.success = some v

variable {v : UInt32 × List UInt8}

/-- Only `check` lets a call succeed. -/
theorem succeeded_of_step (h : Step s a s') (hv : Succeeded s' c v) :
    Succeeded s c v ∨
      ∃ c' msgid q, s.calls[c']? = some q ∧ q.held = some msgid ∧ s' = s.check c' msgid := by
  unfold Step at h
  cases a with
  | start =>
    cases h
    exact .inl (List.bind_getElem?_of_concat rfl hv)
  -- the one step by which a call can return success
  | check c' =>
    simp only [State.next] at h
    split at h
    · rename_i hc
      cases h
      exact .inr ⟨c', _, _, hc, rfl, rfl⟩
    · rename_i hc
      cases h
      exact .inr ⟨c', _, _, hc, rfl, rfl⟩
    · exact nomatch h
  | encodeError c' | send c' | sendError c' | release c' =>
    simp only [State.next] at h
    split at h
    · cases h
      exact .inl (List.bind_getElem?_of_set rfl hv)
    · exact nomatch h
  | acquire c' =>
    simp only [State.next] at h
    split at h
    · split at h
      all_goals
        cases h
        exact .inl (List.bind_getElem?_of_set rfl hv)
    · exact nomatch h
  | expire c' =>
    simp only [State.next] at h
    split at h
    · split at h
      · exact nomatch h
      · cases h
        exact .inl (List.bind_getElem?_of_set rfl hv)
    · exact nomatch h
  | receive r copied =>
    simp only [State.next] at h
    split at h
    · cases h
      split at hv <;> exact .inl hv
    · exact nomatch h
  | wake =>
    simp only [State.next] at h
    split at h
    · cases h
      split at hv <;> exact .inl hv
    · exact nomatch h
  | eof =>
    simp only [State.next] at h
    split at h
    · cases h
      exact .inl hv
    · exact nomatch h
  | close =>
    cases h
    exact .inl hv

/-- A call returns success when its entry is done without an error, with the data there. -/
theorem succeeded_of_check {c' : CallNo} (hc : s.calls[c']? = some q) (hq : q.held = some msgid)
    (hv : Succeeded (s.check c' msgid) c v) :
    Succeeded s c v ∨
      (table s).claim c = some msgid ∧ (s.pending (slot msgid)).done = true ∧
        (s.pending (slot msgid)).hasError = false ∧
        v = (msgid,
         (⟨(s.pending (slot msgid)).data, (s.pending (slot msgid)).len⟩ : Output).bytes) := by
  simp only [State.check] at hv
  split at hv
  · exact .inl (List.bind_getElem?_of_set rfl hv)
  · rename_i hloop
    split at hv
    · exact .inl (List.bind_getElem?_of_set rfl hv)
    · rename_i hclosed
      split at hv
      · exact .inl (List.bind_getElem?_of_set rfl hv)
      · rename_i herr
        -- the loop has ended and the client is not closed, so the slot is done
        have hdone : (s.pending (slot msgid)).done = true := by
          cases hd : (s.pending (slot msgid)).done <;> cases hcl : s.closed <;>
            simp [hd, hcl] at hloop hclosed ⊢
        by_cases hcc : c' = c
        · subst hcc
          have hlt : c' < s.calls.length := (List.getElem?_eq_some_iff.mp hc).1
          rw [Succeeded, State.setCall, State.setPending, List.getElem?_set_self hlt] at hv
          refine .inr ⟨?_, hdone, by simpa using herr, (Option.some.inj hv).symm⟩
          show s.calls[c']?.bind CallPoint.held = _
          rw [hc, Option.bind_some, hq]
        · rw [Succeeded, State.setCall, State.setPending, List.getElem?_set_ne hcc] at hv
          exact .inl hv

/-- A slot that is done without an error has the result of a response, if that was copied. -/
theorem Explained.bytes (h : Explained tr c msgid e) (hdone : e.done = true)
    (herr : e.hasError = false) :
    ∃ r copied, client.Received tr c msgid r copied ∧ r.hasError = false ∧
      ((⟨e.data, e.len⟩ : Output).bytes = r.result ∨ copied = false) := by
  have hdata := h.data
  rw [hdone, herr] at hdata
  have hbytes : (⟨e.data, e.len⟩ : Output).bytes = e.data.getD [] := by
    show (e.data.getD []).take e.len = _
    cases hd : e.data with
    | none => simp
    | some d => rw [h.len d hd, Option.getD_some, List.take_length]
  rw [hbytes]
  exact hdata.result id

/-- A call that succeeds has received a response without an error, and returns its result if
    that was copied. -/
theorem succeeded_received {s : State} {d : List UInt8} (h : Run Step .new tr s)
    (hcond : ∀ x ∈ tr, NobodyWaits x.pre x.label) (hv : Succeeded s c (msgid, d)) :
    ∃ r copied, client.Received tr c msgid r copied ∧ r.hasError = false ∧
      (d = r.result ∨ copied = false) := by
  have hrun := h.restrict (C := fun x => NobodyWaits x.pre x.label) hcond
  refine hrun.historyInvariant
    (I := fun tr s => ∀ c msgid d, Succeeded s c (msgid, d) →
      ∃ r copied, client.Received tr c msgid r copied ∧ r.hasError = false ∧
        (d = r.result ∨ copied = false))
    (fun c _ _ hv => ?_) ?_ c msgid d hv
  · simp [Succeeded, State.new] at hv
  · intro tr s a s' hrun ih hs c msgid d hv
    obtain ⟨hs, -⟩ := hs
    -- a call that has succeeded before received its response then
    have hbefore : Succeeded s c (msgid, d) →
        ∃ r copied, client.Received (tr ++ [⟨s, a, s'⟩]) c msgid r copied ∧
          r.hasError = false ∧ (d = r.result ∨ copied = false) := by
      intro hv
      obtain ⟨r, copied, hr, hrest⟩ := ih c msgid d hv
      exact ⟨r, copied, hr.concat, hrest⟩
    rcases succeeded_of_step hs hv with hv | ⟨c', msgid', q, hc, hq, rfl⟩
    · exact hbefore hv
    · rcases succeeded_of_check hc hq hv with hv | ⟨hclaim, hdone, herr, heq⟩
      · exact hbefore hv
      · obtain ⟨rfl, rfl⟩ := Prod.mk.inj heq
        have hexpl := held_data (hrun.mono fun _ _ _ hs => hs.1) ?_
          (SlotTable.claim_ofList_iff.mp hclaim)
        · obtain ⟨r, copied, hr, hok, hd⟩ := hexpl.bytes hdone herr
          exact ⟨r, copied, hr.concat, hok, hd⟩
        · intro x hx
          obtain ⟨tr₁, tr₂, rfl, -, hstep⟩ := hrun.exists_split hx
          exact hstep.2

/-- A call of the API returns `KGD_OK`. -/
def ReportsSuccess (result : Except Error Output) : Prop :=
  result.isOk = true ∨ (kgdUnplace result).isOk = true ∨ (kgdFreeHandle result).isOk = true ∨
    (∃ expectHandle outHandle, (kgdUpload expectHandle outHandle result).isOk = true) ∨
    ∃ expectPlacementID outID, (kgdPlace expectPlacementID outID result).isOk = true

/-- No call of the API returns `KGD_OK` unless `do_call` does. -/
theorem ReportsSuccess.ok {result : Except Error Output} (h : ReportsSuccess result) :
    ∃ o, result = .ok o := by
  cases result with
  | ok o => exact ⟨o, rfl⟩
  | error e =>
    rcases h with h | h | h | ⟨_, _, h⟩ | ⟨_, _, h⟩
    all_goals exact nomatch h

/-- Only a call whose request was answered without an error returns `KGD_OK`. -/
def SuccessAnswered (tr : List (Transition State Action)) (s : State) : Prop :=
  ∀ (c : CallNo) msgid result, s.calls[c]? = some (.returned msgid result) →
    ReportsSuccess result → ∃ r copied, client.Received tr c msgid r copied ∧ r.hasError = false

/-- In a run in which nobody waits when the reader exits, a call that succeeds was answered. -/
theorem successAnswered {s : State} (h : Run Step .new tr s)
    (hcond : ∀ x ∈ tr, NobodyWaits x.pre x.label) : SuccessAnswered tr s := by
  intro c msgid result hc hsuccess
  obtain ⟨o, rfl⟩ := hsuccess.ok
  have hv : Succeeded s c (msgid, o.bytes) := by
    rw [Succeeded, hc]
    rfl
  obtain ⟨r, copied, hr, hok, -⟩ := succeeded_received h hcond hv
  exact ⟨r, copied, hr, hok⟩

end CClient

end Kgd
