import Kgd.Spec.CCalls
import Kgd.Spec.ZigCalls

/-!
# When a call is refused

The C and the Zig client refuse a call whose slot is in use. The slot is that of the call's
message id, so it is in use if a call with the same id modulo 64 is outstanding, whatever the
other slots are.

What follows from this alone is proved of any `SlotClient` with the laws; each client then is one.

## Key results

- `SlotClient.Lawful.refusedWhenFull_iff`: which ids a call can ask for a slot with
- `SlotClient.Lawful.refused_early`: one slow call uses up the ids, not the slots
- `refused_when_full_iff`: over all runs of either client
-/

namespace Kgd

/-! ## Outstanding calls -/

namespace RpcClient

/-- The message ids of the calls that hold a slot. -/
def outstanding (L : RpcClient) (s : L.State) : List UInt32 := (L.held s).filterMap id

/-- No outstanding call has an id of the same slot, or all slots are held. -/
def Clashless (L : RpcClient) (s : L.State) (msgid : UInt32) : Prop :=
  (∀ m ∈ L.outstanding s, slot m ≠ slot msgid) ∨ ∀ i, ∃ m ∈ L.outstanding s, slot m = i

end RpcClient

/-- The ids of the first calls have slots of their own. -/
theorem slot_ofNat_ne_zero {n : Nat} (hpos : 0 < n) (hn : n < maxPending) :
    slot (.ofNat n) ≠ slot 0 := by
  intro heq
  have hmax : n < 64 := hn
  have hval : (UInt32.ofNat n).toNat % 64 = 0 := congrArg Fin.val heq
  rw [UInt32.toNat_ofNat'] at hval
  omega

/-! ## Clients with slots -/

/-- A client whose calls ask for the slot of their id. -/
structure SlotClient extends RpcClient where
  Entry : Type
  active : Entry → Bool
  pending : State → Fin maxPending → Entry
  /-- the id of the call that asks for its slot -/
  asks : State → Action → Option UInt32
  /-- the call that asks for a slot is refused -/
  Refused : Transition State Action → Prop
  /-- the id of the next call -/
  nextID : State → UInt32
  /-- the client is open, and its reader reads -/
  Ready : State → Prop

namespace SlotClient

variable (L : SlotClient)

/-- The table of the slots and of the calls that hold them. -/
def table (s : L.State) : SlotTable CallNo UInt32 (Fin maxPending) L.Entry :=
  .ofList id (L.held s) (L.pending s)

/-- The slot is in use. -/
def used (s : L.State) (i : Fin maxPending) : Bool := L.active (L.pending s i)

/-- What both clients do. -/
structure Lawful : Prop where
  exclusive {tr s} (h : Run L.step L.new tr s) : SlotTable.Exclusive slot L.active (L.table s)
  covered {tr s} (h : Run L.step L.new tr s) : SlotTable.Covered slot L.active (L.table s)
  refused_iff {s a s'} (h : L.step s a s') :
    L.Refused ⟨s, a, s'⟩ ↔ ∃ msgid ∈ L.asks s a, L.used s (slot msgid) = true
  /-- the first call can wait for its response -/
  waiting : ∃ tr s, Run L.step L.new tr s ∧ L.Ready s ∧ L.nextID s = 1 ∧ L.outstanding s = [0] ∧
    ∀ i, L.used s i = true ↔ i = slot 0
  /-- a call that gets its slot can be answered -/
  answered {s} (hready : L.Ready s) (hfree : L.used s (slot (L.nextID s)) = false) :
    ∃ tr s', Run L.step s tr s' ∧ L.Ready s' ∧ L.nextID s' = L.nextID s + 1 ∧
      L.outstanding s' = L.outstanding s ∧ L.used s' = L.used s
  /-- a call can be made while its slot is in use -/
  refused {s} (hused : L.used s (slot (L.nextID s)) = true) :
    ∃ tr s' x, Run L.step s tr s' ∧ x ∈ tr ∧ L.outstanding x.pre = L.outstanding s ∧ L.Refused x

namespace Lawful

variable {L} {tr : L.History} {s : L.State} {x : Transition L.State L.Action}

/-- The slots in use are those of the outstanding calls. -/
theorem used_iff (hL : L.Lawful) (h : Run L.step L.new tr s) (i : Fin maxPending) :
    L.used s i = true ↔ ∃ m ∈ L.outstanding s, slot m = i :=
  SlotTable.taken_iff (hL.exclusive h) (hL.covered h) i

/-- As many calls are outstanding as there are slots exactly if all slots are held. -/
theorem full_iff (hL : L.Lawful) (h : Run L.step L.new tr s) :
    (L.outstanding s).length = maxPending ↔ ∀ i, ∃ m ∈ L.outstanding s, slot m = i :=
  SlotTable.length_eq_card_iff (hL.exclusive h)

/-- Only a call whose id clashes is refused without need. -/
theorem refusedWhenFull_iff (hL : L.Lawful) (h : Run L.step L.new tr x.pre)
    (hs : L.step x.pre x.label x.post) :
    (L.Refused x → (L.outstanding x.pre).length = maxPending) ↔
      ∀ msgid ∈ L.asks x.pre x.label, L.Clashless x.pre msgid := by
  have hrefused : L.Refused x ↔ ∃ msgid ∈ L.asks x.pre x.label,
      ∃ m ∈ L.outstanding x.pre, slot m = slot msgid := by
    rw [hL.refused_iff hs]
    simp only [hL.used_iff h]
  rw [hrefused, hL.full_iff h]
  constructor
  · intro hfull msgid hasks
    -- refused means a clash, and clashless allows one only when all slots are used
    by_cases hclash : ∃ m ∈ L.outstanding x.pre, slot m = slot msgid
    · exact Or.inr (hfull ⟨msgid, hasks, hclash⟩)
    · exact Or.inl fun m hm heq => hclash ⟨m, hm, heq⟩
  · intro hclashless hx
    obtain ⟨msgid, hasks, m, hm, heq⟩ := hx
    exact (hclashless msgid hasks).resolve_left fun hnone => hnone m hm heq

/-- `refusedWhenFull_iff`, over a run. -/
theorem refusedWhenFull_run_iff (hL : L.Lawful) (h : Run L.step L.new tr s) :
    (∀ x ∈ tr, L.Refused x → (L.outstanding x.pre).length = maxPending) ↔
      ∀ x ∈ tr, ∀ msgid ∈ L.asks x.pre x.label, L.Clashless x.pre msgid := by
  apply forall₂_congr
  intro x hx
  obtain ⟨_, _, -, hrun, hs⟩ := h.exists_split hx
  exact hL.refusedWhenFull_iff hrun hs

/-! ### One slow call and many fast ones -/

/-- Call 0 waits, and `n` calls after it have been answered. -/
theorem exists_slowCall (hL : L.Lawful) {n : Nat} (hn : n < maxPending) :
    ∃ tr s, Run L.step L.new tr s ∧ L.Ready s ∧ L.nextID s = .ofNat (n + 1) ∧
      L.outstanding s = [0] ∧ ∀ i, L.used s i = true ↔ i = slot 0 := by
  induction n with
  | zero => exact hL.waiting
  | succ n ih =>
    obtain ⟨tr, s, hrun, hready, hnext, hout, hused⟩ := ih (by omega)
    -- the next slot is not the slow call's, so the call gets it and is answered
    have hslot : slot (L.nextID s) ≠ slot 0 := by
      rw [hnext]
      exact slot_ofNat_ne_zero (by omega) (by omega)
    have hfree : L.used s (slot (L.nextID s)) = false :=
      Bool.eq_false_iff.mpr (mt (hused _).mp hslot)
    obtain ⟨tr', s', hrun', hready', hnext', hout', hused'⟩ := hL.answered hready hfree
    refine ⟨tr ++ tr', s', hrun.append hrun', hready', ?_, hout'.trans hout, ?_⟩
    · rw [hnext', hnext]
      simp
    · rw [hused']
      exact hused

/-- Call 0 waits, 63 calls after it have been answered, and the next one is refused. -/
theorem refused_early (hL : L.Lawful) :
    ∃ tr s x, Run L.step L.new tr s ∧ x ∈ tr ∧ (L.outstanding x.pre).length = 1 ∧ L.Refused x := by
  obtain ⟨tr, s, hrun, -, hnext, hout, hused⟩ := hL.exists_slowCall (n := 63) (by decide)
  -- the ids have come round to the slot of call 0
  have hslot : slot (L.nextID s) = slot 0 := by
    rw [hnext]
    rfl
  obtain ⟨tr', s', x, hrun', hx, hsame, hrefused⟩ := hL.refused ((hused _).mpr hslot)
  refine ⟨tr ++ tr', s', x, hrun.append hrun', List.mem_append_right _ hx, ?_, hrefused⟩
  rw [hsame, hout]
  rfl

end Lawful

end SlotClient

/-! ## The C client -/

namespace CClient

/-- The id of the call that asks for its slot. -/
def asks (s : State) : Action → Option UInt32
  | .acquire c =>
    match s.calls[c]? with
    | some (.encoding msgid) => some msgid
    | _ => none
  | _ => none

/-- The call that asks for a slot is refused only if as many calls are outstanding as there are
    slots. -/
def RefusedWhenFull (x : Transition State Action) : Prop :=
  ∀ c msgid, x.label = .acquire c → x.post.calls[c]? = some (.returned msgid (.error .send)) →
    (client.outstanding x.pre).length = maxPending

abbrev slotClient : SlotClient :=
  { client with
    Entry := PendingEntry
    active := PendingEntry.active
    pending := State.pending
    asks := asks
    Refused := fun x => ∃ c msgid, x.label = .acquire c ∧
      x.post.calls[c]? = some (.returned msgid (.error .send))
    nextID := State.nextID
    Ready := fun s => s.reader = .reading ∧ s.closed = false }

variable {s s' : State} {a : Action}

/-- A step refuses a call only when full, in terms of the client's own slots. -/
theorem refusedWhenFull_iff_refused (x : Transition State Action) :
    RefusedWhenFull x ↔
      (slotClient.Refused x → (client.outstanding x.pre).length = maxPending) := by
  simp only [RefusedWhenFull, exists_imp, and_imp]

/-- In every run a slot is held by one call at most. -/
theorem exclusive_slotClient {tr : List (Transition State Action)} (h : Run Step .new tr s) :
    SlotTable.Exclusive slot PendingEntry.active (slotClient.table s) := by
  rw [SlotClient.table, SlotTable.ofList_map]
  exact exclusive_of_run h

/-- In every run a slot that is taken is held by a call. -/
theorem covered_slotClient {tr : List (Transition State Action)} (h : Run Step .new tr s) :
    SlotTable.Covered slot PendingEntry.active (slotClient.table s) := by
  rw [SlotClient.table, SlotTable.ofList_map]
  exact SlotTable.covered_of_run table h table_step fun _ => rfl

/-- A call is refused exactly if its slot is active. -/
theorem refused_iff (h : Step s a s') :
    slotClient.Refused ⟨s, a, s'⟩ ↔
      ∃ msgid ∈ asks s a, (s.pending (slot msgid)).active = true := by
  cases a with
  | acquire c =>
    simp only [Step, State.next] at h
    split at h
    · rename_i msgid hc
      have hasks : asks s (.acquire c) = some msgid := by simp only [asks, hc]
      have hlt : c < s.calls.length := (List.getElem?_eq_some_iff.mp hc).1
      split at h
      -- the entry is in use: the call is turned away
      · rename_i hactive
        cases h
        exact iff_of_true ⟨c, msgid, rfl, List.getElem?_set_self hlt⟩ ⟨msgid, hasks, hactive⟩
      · rename_i hactive
        cases h
        apply iff_of_false
        · intro hrefused
          obtain ⟨c', msgid', hlabel, hc'⟩ := hrefused
          obtain rfl := Action.acquire.inj hlabel
          cases (List.getElem?_set_self hlt).symm.trans hc'
        · intro hused
          obtain ⟨msgid', hmsgid', hused⟩ := hused
          rw [hasks, Option.mem_some_iff] at hmsgid'
          exact hactive (hmsgid' ▸ hused)
    · cases h
  | start | encodeError | send | sendError | check | expire | release | receive | eof | wake
      | close =>
    apply iff_of_false
    · intro hrefused
      obtain ⟨_, _, hlabel, -⟩ := hrefused
      cases hlabel
    · intro hused
      obtain ⟨_, hasks, -⟩ := hused
      cases hasks

/-- Call 0 is made, and waits. -/
theorem waiting_slotClient : ∃ tr s, Run Step .new tr s ∧ slotClient.Ready s ∧ s.nextID = 1 ∧
    slotClient.outstanding s = [0] ∧ ∀ i, slotClient.used s i = true ↔ i = slot 0 := by
  have hrun := Run.of_follow State.next .new [.start, .acquire 0, .send 0] (by decide)
  refine ⟨_, _, hrun, ⟨rfl, rfl⟩, rfl, rfl, fun i => ?_⟩
  show (Function.update State.new.pending (slot 0) PendingEntry.fresh i).active = true ↔ _
  by_cases hi : i = slot 0
  · simp [hi, PendingEntry.fresh]
  · simp [hi, State.new]

/-- A call is answered with nil. -/
theorem foldlM_answered (hreader : s.reader = .reading) (hclosed : s.closed = false)
    (hfree : (s.pending (slot s.nextID)).active = false) :
    [.start, .acquire s.calls.length, .send s.calls.length,
      .receive ⟨s.nextID, false, none, [0xc0]⟩ true, .check s.calls.length].foldlM State.next s =
      some { s with
        nextID := s.nextID + 1
        pending := Function.update s.pending (slot s.nextID) ⟨false, none, 1, true, false⟩
        calls := s.calls ++ [.returned s.nextID (.ok ⟨some [0xc0], 1⟩)] } := by
  simp [State.next, State.setCall, State.setPending, State.check, hreader, hclosed, hfree,
    PendingEntry.receive, PendingEntry.fresh]

/-- A call that starts while its slot is active is refused. -/
theorem step_refused (hused : (s.pending (slot s.nextID)).active = true) :
    Step { s with nextID := s.nextID + 1, calls := s.calls ++ [.encoding s.nextID] }
      (.acquire s.calls.length)
      { s with
        nextID := s.nextID + 1
        calls := s.calls ++ [.returned s.nextID (.error .send)] } := by
  simp [Step, State.next, State.setCall, hused]

/-- The client follows the laws of slots. -/
theorem lawful_slotClient : slotClient.Lawful where
  exclusive := exclusive_slotClient
  covered := covered_slotClient
  refused_iff := refused_iff
  waiting := waiting_slotClient
  answered {s} hready hfree := by
    obtain ⟨tr, hrun⟩ := Run.exists_of_foldlM (foldlM_answered hready.1 hready.2 hfree)
    refine ⟨tr, _, hrun, hready, rfl, ?_, ?_⟩
    · simp [RpcClient.outstanding, CallPoint.held]
    · funext i
      by_cases hi : i = slot s.nextID
      · subst hi
        simpa [SlotClient.used] using hfree.symm
      · simp [SlotClient.used, hi]
  refused {s} hused := by
    have hstart : Step s .start _ := rfl
    refine ⟨_, _, _, (Run.nil.snoc hstart).snoc (step_refused hused), List.mem_concat_self, ?_,
      s.calls.length, s.nextID, rfl, List.getElem?_concat_length⟩
    simp [RpcClient.outstanding, CallPoint.held]

end CClient

/-! ## The Zig client -/

namespace ZigClient

/-- The id of the call that asks for its slot. -/
def asks (s : State) : Action → Option UInt32
  | .acquire c =>
    match s.calls[c]? with
    | some (.encoding msgid) => some msgid
    | _ => none
  | _ => none

/-- The call that asks for a slot is refused only if as many calls are outstanding as there are
    slots. -/
def RefusedWhenFull (x : Transition State Action) : Prop :=
  ∀ c msgid, x.label = .acquire c →
    x.post.calls[c]? = some (.returned msgid (.error .sendFailed)) →
      (client.outstanding x.pre).length = maxPending

abbrev slotClient : SlotClient :=
  { client with
    Entry := PendingCall
    active := PendingCall.active
    pending := State.pending
    asks := asks
    Refused := fun x => ∃ c msgid, x.label = .acquire c ∧
      x.post.calls[c]? = some (.returned msgid (.error .sendFailed))
    nextID := State.nextID
    Ready := fun s => s.reading = true ∧ s.closed = false }

variable {s s' : State} {a : Action}

/-- A step refuses a call only when full, in terms of the client's own slots. -/
theorem refusedWhenFull_iff_refused (x : Transition State Action) :
    RefusedWhenFull x ↔
      (slotClient.Refused x → (client.outstanding x.pre).length = maxPending) := by
  simp only [RefusedWhenFull, exists_imp, and_imp]

/-- In every run a slot is held by one call at most. -/
theorem exclusive_slotClient {tr : List (Transition State Action)} (h : Run Step .new tr s) :
    SlotTable.Exclusive slot PendingCall.active (slotClient.table s) := by
  rw [SlotClient.table, SlotTable.ofList_map]
  exact exclusive_of_run h

/-- In every run a slot that is taken is held by a call. -/
theorem covered_slotClient {tr : List (Transition State Action)} (h : Run Step .new tr s) :
    SlotTable.Covered slot PendingCall.active (slotClient.table s) := by
  rw [SlotClient.table, SlotTable.ofList_map]
  exact SlotTable.covered_of_run table h table_step fun _ => rfl

/-- A call is refused exactly if its slot is active. -/
theorem refused_iff (h : Step s a s') :
    slotClient.Refused ⟨s, a, s'⟩ ↔
      ∃ msgid ∈ asks s a, (s.pending (slot msgid)).active = true := by
  cases a with
  | acquire c =>
    simp only [Step, State.next] at h
    split at h
    · rename_i msgid hc
      have hasks : asks s (.acquire c) = some msgid := by simp only [asks, hc]
      have hlt : c < s.calls.length := (List.getElem?_eq_some_iff.mp hc).1
      split at h
      -- the entry is in use: the call is turned away
      · rename_i hactive
        cases h
        exact iff_of_true ⟨c, msgid, rfl, List.getElem?_set_self hlt⟩ ⟨msgid, hasks, hactive⟩
      · rename_i hactive
        cases h
        apply iff_of_false
        · intro hrefused
          obtain ⟨c', msgid', hlabel, hc'⟩ := hrefused
          obtain rfl := Action.acquire.inj hlabel
          cases (List.getElem?_set_self hlt).symm.trans hc'
        · intro hused
          obtain ⟨msgid', hmsgid', hused⟩ := hused
          rw [hasks, Option.mem_some_iff] at hmsgid'
          exact hactive (hmsgid' ▸ hused)
    · cases h
  | start | encodeError | send | sendError | wake | expire | release | collect | receive | eof
      | close | closeWake =>
    apply iff_of_false
    · intro hrefused
      obtain ⟨_, _, hlabel, -⟩ := hrefused
      cases hlabel
    · intro hused
      obtain ⟨_, hasks, -⟩ := hused
      cases hasks

/-- Call 0 is made, and waits. -/
theorem waiting_slotClient : ∃ tr s, Run Step .new tr s ∧ slotClient.Ready s ∧ s.nextID = 1 ∧
    slotClient.outstanding s = [0] ∧ ∀ i, slotClient.used s i = true ↔ i = slot 0 := by
  have hrun := Run.of_follow State.next .new [.start, .acquire 0, .send 0] (by decide)
  refine ⟨_, _, hrun, ⟨rfl, rfl⟩, rfl, rfl, fun i => ?_⟩
  show (Function.update State.new.pending (slot 0) PendingCall.fresh i).active = true ↔ _
  by_cases hi : i = slot 0
  · simp [hi, PendingCall.fresh]
  · simp [hi, State.new]

/-- A call is answered with nil. -/
theorem foldlM_answered (hreading : s.reading = true) (hclosed : s.closed = false)
    (hfree : (s.pending (slot s.nextID)).active = false) :
    [.start, .acquire s.calls.length, .send s.calls.length,
      .receive ⟨s.nextID, false, none, [0xc0]⟩ true, .wake s.calls.length,
      .collect s.calls.length true].foldlM State.next s =
      some { s with
        nextID := s.nextID + 1
        pending := Function.update s.pending (slot s.nextID) ⟨false, true, false, none, none, true⟩
        calls := s.calls ++ [.returned s.nextID (.ok [0xc0])] } := by
  simp [State.next, State.setCall, State.setPending, State.collect, State.leave, hreading, hclosed,
    hfree, PendingCall.receive, PendingCall.fresh]

/-- A call that starts while its slot is active is refused. -/
theorem step_refused (hused : (s.pending (slot s.nextID)).active = true) :
    Step { s with nextID := s.nextID + 1, calls := s.calls ++ [.encoding s.nextID] }
      (.acquire s.calls.length)
      { s with
        nextID := s.nextID + 1
        calls := s.calls ++ [.returned s.nextID (.error .sendFailed)] } := by
  simp [Step, State.next, State.setCall, hused]

/-- The client follows the laws of slots. -/
theorem lawful_slotClient : slotClient.Lawful where
  exclusive := exclusive_slotClient
  covered := covered_slotClient
  refused_iff := refused_iff
  waiting := waiting_slotClient
  answered {s} hready hfree := by
    obtain ⟨tr, hrun⟩ := Run.exists_of_foldlM (foldlM_answered hready.1 hready.2 hfree)
    refine ⟨tr, _, hrun, hready, rfl, ?_, ?_⟩
    · simp [RpcClient.outstanding, CallPoint.held]
    · funext i
      by_cases hi : i = slot s.nextID
      · subst hi
        simpa [SlotClient.used] using hfree.symm
      · simp [SlotClient.used, hi]
  refused {s} hused := by
    have hstart : Step s .start _ := rfl
    refine ⟨_, _, _, (Run.nil.snoc hstart).snoc (step_refused hused), List.mem_concat_self, ?_,
      s.calls.length, s.nextID, rfl, List.getElem?_concat_length⟩
    simp [RpcClient.outstanding, CallPoint.held]

end ZigClient

/-! ## Both clients -/

/-- In every run of either client, calls are refused only when 64 are outstanding exactly if a
    call that asks for its slot never has the id of an outstanding one modulo 64, unless all
    slots are held. -/
theorem refused_when_full_iff {trC : CClient.client.History} {sC : CClient.State}
    {trZ : ZigClient.client.History} {sZ : ZigClient.State} :
    (Run CClient.Step .new trC sC →
      ((∀ x ∈ trC, CClient.RefusedWhenFull x) ↔
        ∀ x ∈ trC, ∀ msgid ∈ CClient.asks x.pre x.label,
          CClient.client.Clashless x.pre msgid)) ∧
    (Run ZigClient.Step .new trZ sZ →
      ((∀ x ∈ trZ, ZigClient.RefusedWhenFull x) ↔
        ∀ x ∈ trZ, ∀ msgid ∈ ZigClient.asks x.pre x.label,
          ZigClient.client.Clashless x.pre msgid)) := by
  constructor
  · intro h
    simp only [CClient.refusedWhenFull_iff_refused]
    exact CClient.lawful_slotClient.refusedWhenFull_run_iff h
  · intro h
    simp only [ZigClient.refusedWhenFull_iff_refused]
    exact ZigClient.lawful_slotClient.refusedWhenFull_run_iff h

/-- Two calls at a time, with different slots. -/
theorem refused_when_full_iff_apart :
    (∃ tr s, Run CClient.Step .new tr s ∧ CClient.client.outstanding s = [0, 1] ∧
      ((∀ x ∈ tr, CClient.RefusedWhenFull x) ↔
        ∀ x ∈ tr, ∀ msgid ∈ CClient.asks x.pre x.label, CClient.client.Clashless x.pre msgid)) ∧
    (∃ tr s, Run ZigClient.Step .new tr s ∧ ZigClient.client.outstanding s = [0, 1] ∧
      ((∀ x ∈ tr, ZigClient.RefusedWhenFull x) ↔
        ∀ x ∈ tr, ∀ msgid ∈ ZigClient.asks x.pre x.label,
          ZigClient.client.Clashless x.pre msgid)) := by
  have hc := Run.of_follow CClient.State.next .new [.start, .acquire 0, .start, .acquire 1]
    (by decide)
  have hz := Run.of_follow ZigClient.State.next .new [.start, .acquire 0, .start, .acquire 1]
    (by decide)
  have ⟨hcIff, hzIff⟩ := refused_when_full_iff.imp (· hc) (· hz)
  exact ⟨⟨_, _, hc, rfl, hcIff⟩, ⟨_, _, hz, rfl, hzIff⟩⟩

/-- One slow call makes the 65th one fail, although 63 slots are free. -/
theorem refused_with_free_slots :
    ¬ (∀ tr s, Run CClient.Step .new tr s → ∀ x ∈ tr, CClient.RefusedWhenFull x) ∧
    ¬ (∀ tr s, Run ZigClient.Step .new tr s → ∀ x ∈ tr, ZigClient.RefusedWhenFull x) := by
  constructor
  · intro h
    obtain ⟨tr, s, x, hrun, hx, hone, hrefused⟩ := CClient.lawful_slotClient.refused_early
    have hfull := (CClient.refusedWhenFull_iff_refused x).mp (h tr s hrun x hx) hrefused
    exact absurd (hone.symm.trans hfull) (by decide)
  · intro h
    obtain ⟨tr, s, x, hrun, hx, hone, hrefused⟩ := ZigClient.lawful_slotClient.refused_early
    have hfull := (ZigClient.refusedWhenFull_iff_refused x).mp (h tr s hrun x hx) hrefused
    exact absurd (hone.symm.trans hfull) (by decide)

end Kgd
