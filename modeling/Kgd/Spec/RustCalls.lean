import Kgd.Client.Rust
import Kgd.ForStd.OwnerTable
import Kgd.ForStd.Run

/-!
# Calls of the Rust client

## Key results

- `RustClient.pending_empty`: no entry is left behind if no call leaves with its entry
-/

namespace Kgd

namespace RustClient

variable {V : Type}

/-- The call waits for what comes through its channel. -/
def Call.Awaiting (call : Call V) : Prop :=
  call.channel = .empty ∧ (call.point = .sending ∨ call.point = .waiting)

/-- The calls whose senders the reader has taken out of the map. -/
def Reader.held : Reader V → List CallNo
  | .delivering c _ => [c]
  | .draining calls => calls
  | .reading | .exited => []

/-- The sender of the call is neither in the map nor still to be put there. -/
def Detached (s : State V) (c : CallNo) : Prop :=
  (∃ call, s.calls[c]? = some call ∧ call.point ≠ .registering) ∧
    ∀ msgid, s.pending.lookup msgid ≠ some c

/-- The entries are those of calls that wait. -/
structure WF (s : State V) : Prop where
  owned : Owned Call.msgid Call.Awaiting s.pending s.calls
  fresh : ∀ (c : CallNo) call, s.calls[c]? = some call → call.point = .registering →
    call.channel = .empty
  held : ∀ c ∈ s.reader.held, Detached s c

/-- A call that fails to send its request or times out has no entry. -/
def LeavesNothing (s : State V) : Action V → Prop
  | .sendError c | .expire c => ∀ call ∈ s.calls[c]?, s.pending.lookup call.msgid ≠ some c
  | _ => True

def CallPoint.isReturned : CallPoint V → Bool
  | .returned _ => true
  | .registering | .sending | .waiting => false

/-- No call is in progress. -/
def Idle (s : State V) : Prop := ∀ call ∈ s.calls, call.point.isReturned = true

variable {s s' : State V} {a : Action V} {c c' : CallNo} {p : CallPoint V} {call : Call V}
  {msgid : UInt32} {f : Channel V → Channel V} {tr : List (Transition (State V) (Action V))}

theorem calls_setPoint : (s.setPoint c p).calls[c']? =
    s.calls[c']?.map fun call => if c = c' then { call with point := p } else call :=
  List.getElem?_modify ..

theorem calls_setChannel : (s.setChannel c f).calls[c']? =
    s.calls[c']?.map fun call => if c = c' then { call with channel := f call.channel } else call :=
  List.getElem?_modify ..

theorem WF.new : WF (V := V) .new where
  owned := .empty
  fresh _ _ h := nomatch h
  held _ h := nomatch h

theorem Detached.setPoint (h : Detached s c') (hp : p ≠ .registering) :
    Detached (s.setPoint c p) c' := by
  obtain ⟨⟨call, hcall, hpoint⟩, hentry⟩ := h
  refine ⟨?_, hentry⟩
  rw [calls_setPoint, hcall]
  refine ⟨_, rfl, ?_⟩
  split
  · exact hp
  · exact hpoint

theorem Detached.setChannel (h : Detached s c') : Detached (s.setChannel c f) c' := by
  obtain ⟨⟨call, hcall, hpoint⟩, hentry⟩ := h
  refine ⟨?_, hentry⟩
  rw [calls_setChannel, hcall]
  refine ⟨_, rfl, ?_⟩
  split <;> exact hpoint

/-- A call that moves on waits, or has no entry. -/
theorem WF.setPoint (h : WF s) (hp : p ≠ .registering)
    (hentry : (p = .sending ∨ p = .waiting) ∨
      ∀ call ∈ s.calls[c]?, s.pending.lookup call.msgid ≠ some c) : WF (s.setPoint c p) where
  owned := by
    apply h.owned.modify
    intro call hcall hlive hlookup
    -- the call may stay in the table as long as it sends or waits
    rcases hentry with hpoint | hnone
    · exact ⟨rfl, hlive.1, hpoint⟩
    · exact absurd hlookup (hnone call hcall)
  fresh c' call' hcall' hpoint := by
    rw [calls_setPoint, Option.map_eq_some_iff] at hcall'
    obtain ⟨call, hcall, rfl⟩ := hcall'
    by_cases hc : c = c'
    · rw [if_pos hc] at hpoint
      exact absurd hpoint hp
    · rw [if_neg hc] at hpoint ⊢
      exact h.fresh c' call hcall hpoint
  held c' hc' := (h.held c' hc').setPoint hp

/-- A channel is written for a call without an entry. -/
theorem WF.setChannel (h : WF s) (hc : Detached s c) : WF (s.setChannel c f) where
  owned := by
    apply h.owned.modify
    intro call _ _ hlookup
    -- a detached call has no entry any more
    exact absurd hlookup (hc.2 _)
  fresh c' call' hcall' hpoint := by
    rw [calls_setChannel, Option.map_eq_some_iff] at hcall'
    obtain ⟨call, hcall, rfl⟩ := hcall'
    by_cases hcc : c = c'
    · subst hcc
      obtain ⟨⟨call', hcall', hpoint'⟩, -⟩ := hc
      rw [hcall] at hcall'
      obtain rfl := Option.some.inj hcall'
      rw [if_pos rfl] at hpoint
      exact absurd hpoint hpoint'
    · rw [if_neg hcc] at hpoint ⊢
      exact h.fresh c' call hcall hpoint
  held c' hc' := (h.held c' hc').setChannel

/-- A new call has no entry yet. -/
theorem WF.start (h : WF s) : WF { s with
    nextID := s.nextID + 1
    calls := s.calls ++ [⟨s.nextID, .empty, .registering⟩] } where
  owned := h.owned.concat
  fresh c call hcall hpoint := by
    rw [List.getElem?_append] at hcall
    split at hcall
    · exact h.fresh c call hcall hpoint
    -- the new call has an empty channel
    · have hmem := List.mem_of_getElem? hcall
      obtain rfl := List.mem_singleton.mp hmem
      rfl
  held c hc := by
    obtain ⟨⟨call, hcall, hpoint⟩, hentry⟩ := h.held c hc
    refine ⟨⟨call, ?_, hpoint⟩, hentry⟩
    rw [List.getElem?_append_left (List.getElem?_eq_some_iff.mp hcall).1]
    exact hcall

/-- A call that waits has registered. -/
theorem Call.Awaiting.registered (h : call.Awaiting) : call.point ≠ .registering := by
  intro hpoint
  rcases h.2 with heq | heq
  · exact nomatch hpoint.symm.trans heq
  · exact nomatch hpoint.symm.trans heq

/-- The call of an entry is detached once the entry has gone. -/
theorem WF.detach (h : WF s) (hlookup : s.pending.lookup msgid = some c) (reader : Reader V) :
    Detached { s with pending := s.pending.erase msgid, reader := reader } c := by
  obtain ⟨call, hcall, hid, hlive⟩ := h.owned msgid c hlookup
  refine ⟨⟨call, hcall, hlive.registered⟩, fun msgid' hlookup' => ?_⟩
  obtain ⟨call', hcall', hid', -⟩ := h.owned.erase (k := msgid) msgid' c hlookup'
  rw [hcall] at hcall'
  obtain rfl := Option.some.inj hcall'
  -- the entry would stand under the key that has been erased
  obtain rfl : msgid' = msgid := hid'.symm.trans hid
  rw [AList.lookup_erase] at hlookup'
  exact nomatch hlookup'

theorem Detached.erase (h : Detached s c) :
    Detached { s with pending := s.pending.erase msgid } c := by
  refine ⟨h.1, fun msgid' hlookup => ?_⟩
  by_cases hid : msgid' = msgid
  · subst hid
    rw [AList.lookup_erase] at hlookup
    exact nomatch hlookup
  · rw [AList.lookup_erase_ne hid] at hlookup
    exact h.2 msgid' hlookup

theorem WF.erase (h : WF s) : WF { s with pending := s.pending.erase msgid } where
  owned := h.owned.erase
  fresh := h.fresh
  held c hc := (h.held c hc).erase

/-- A call that waits puts its sender into the map. -/
theorem WF.put {pending : AList fun _ : UInt32 => CallNo}
    (h : WF { s with pending := pending.erase call.msgid }) (hcall : s.calls[c]? = some call)
    (hlive : call.Awaiting) (hheld : c ∉ s.reader.held) :
    WF { s with pending := pending.insert call.msgid c } where
  owned := h.owned.insert hcall hlive
  fresh := h.fresh
  held c' hc' := by
    obtain ⟨hcall', hentry⟩ := h.held c' hc'
    refine ⟨hcall', fun msgid hlookup => ?_⟩
    -- the new entry is of a call whose sender the reader does not hold
    by_cases hid : msgid = call.msgid
    · subst hid
      rw [AList.lookup_insert] at hlookup
      obtain rfl := Option.some.inj hlookup
      exact hheld hc'
    · rw [AList.lookup_insert_ne hid, ← AList.lookup_erase_ne hid] at hlookup
      exact hentry msgid hlookup

/-- A call that registers waits. -/
theorem WF.register {channel : Channel V} (h : WF s)
    (hc : s.calls[c]? = some ⟨msgid, channel, .registering⟩) :
    WF ((s.insert msgid c).setPoint c .sending) := by
  obtain rfl : channel = .empty := h.fresh c _ hc rfl
  -- the reader holds senders of calls that have registered
  have hheld : c ∉ s.reader.held := by
    intro hc'
    obtain ⟨⟨call, hcall, hpoint⟩, -⟩ := h.held c hc'
    rw [hc] at hcall
    obtain rfl := Option.some.inj hcall
    exact hpoint rfl
  have hlive : Call.Awaiting (V := V) ⟨msgid, .empty, .sending⟩ := ⟨rfl, .inl rfl⟩
  unfold State.insert
  split
  -- an ID in use: the older call's sender is dropped first
  · rename_i old hold
    have hdetached := h.detach hold s.reader
    -- the older call had registered already
    have hne : old ≠ c := by
      rintro rfl
      obtain ⟨⟨call, hcall, hpoint⟩, -⟩ := hdetached
      rw [hc] at hcall
      obtain rfl := Option.some.inj hcall
      exact hpoint rfl
    have hwf : WF ({ s with pending := s.pending.erase msgid }.setChannel old .drop) :=
      h.erase.setChannel hdetached
    have hcall : ((s.setChannel old .drop).setPoint c .sending).calls[c]? =
        some ⟨msgid, .empty, .sending⟩ := by
      rw [calls_setPoint, calls_setChannel, hc]
      simp [hne]
    have hwf' := hwf.setPoint (c := c) (p := .sending) nofun (.inl (.inl rfl))
    exact hwf'.put hcall hlive hheld
  · have hwf : WF { s with pending := s.pending.erase msgid } := h.erase
    have hcall : (s.setPoint c .sending).calls[c]? = some ⟨msgid, .empty, .sending⟩ := by
      rw [calls_setPoint, hc]
      simp
    have hwf' := hwf.setPoint (c := c) (p := .sending) nofun (.inl (.inl rfl))
    exact hwf'.put hcall hlive hheld

/-- A step at which no call leaves with its entry keeps the entries with calls that wait. -/
theorem WF.step (h : WF s) (hs : Step s a s') (hleaves : LeavesNothing s a) : WF s' := by
  unfold Step at hs
  cases a with
  | start =>
    cases hs
    exact h.start
  | register c =>
    simp only [State.next] at hs
    split at hs
    · rename_i hc
      split at hs
      · cases hs
        exact h.register hc
      · exact nomatch hs
    · exact nomatch hs
  | send c =>
    simp only [State.next] at hs
    split at hs
    · cases hs
      exact h.setPoint nofun (.inl (.inr rfl))
    · exact nomatch hs
  | sendError c | expire c =>
    simp only [State.next] at hs
    split at hs
    · cases hs
      exact h.setPoint nofun (.inr hleaves)
    · exact nomatch hs
  | wake c =>
    simp only [State.next] at hs
    split at hs
    · rename_i channel hc
      split at hs
      · rename_i o ho
        cases hs
        refine h.setPoint nofun (.inr fun call hcall hlookup => ?_)
        -- the channel of a call with an entry is empty
        obtain ⟨call', hcall', -, hempty, -⟩ := h.owned _ c hlookup
        rw [hc] at hcall'
        obtain rfl := Option.some.inj hcall'
        obtain rfl : channel = .empty := hempty
        exact nomatch ho
      · exact nomatch hs
    · exact nomatch hs
  | receive msgid error result =>
    simp only [State.next] at hs
    split at hs
    · cases hs
      refine ⟨h.owned.erase, h.fresh, fun c hc => ?_⟩
      split at hc
      · rename_i hlookup
        obtain rfl := List.mem_singleton.mp hc
        exact h.detach hlookup _
      · exact nomatch hc
    · exact nomatch hs
  | deliver =>
    simp only [State.next] at hs
    split at hs
    · rename_i c msg hreader
      cases hs
      have hdetached := h.held c (by simp [hreader, Reader.held])
      exact WF.setChannel ⟨h.owned, h.fresh, fun _ hc => nomatch hc⟩ hdetached
    · exact nomatch hs
  | eof =>
    simp only [State.next] at hs
    split at hs
    · cases hs
      refine ⟨.empty, h.fresh, fun c hc => ?_⟩
      obtain ⟨e, he, rfl⟩ := List.mem_map.mp hc
      obtain ⟨msgid, c⟩ := e
      obtain ⟨call, hcall, -, hlive⟩ := h.owned msgid c (AList.mem_lookup_iff.mpr he)
      exact ⟨⟨call, hcall, hlive.registered⟩, fun _ hlookup => nomatch hlookup⟩
    · exact nomatch hs
  | drainNext c =>
    simp only [State.next] at hs
    split at hs
    · rename_i calls hreader
      split at hs
      · rename_i hc
        cases hs
        have hheld : ∀ c ∈ calls, Detached s c := fun c hc =>
          h.held c (by simpa [hreader, Reader.held] using hc)
        exact WF.setChannel ⟨h.owned, h.fresh, fun c' hc' => hheld c' (List.mem_of_mem_erase hc')⟩
          (hheld c hc)
      · exact nomatch hs
    · exact nomatch hs
  | exit =>
    simp only [State.next] at hs
    split at hs
    · cases hs
      exact ⟨h.owned, h.fresh, fun _ hc => nomatch hc⟩
    · exact nomatch hs

theorem wf_of_run (h : Run Step .new tr s) (hleaves : ∀ x ∈ tr, LeavesNothing x.pre x.label) :
    WF s :=
  (h.restrict hleaves).invariant .new fun _ _ _ hwf hs => hwf.step hs.1 hs.2

/-- If no call leaves with its entry, the map is empty when no call is in progress. -/
theorem pending_empty (h : Run Step .new tr s) (hleaves : ∀ x ∈ tr, LeavesNothing x.pre x.label)
    (hidle : Idle s) : s.pending = ∅ := by
  apply (wf_of_run h hleaves).owned.eq_empty
  intro call hcall hlive
  have hreturned := hidle call hcall
  rcases hlive.2 with heq | heq
  · rw [heq] at hreturned
    exact nomatch hreturned
  · rw [heq] at hreturned
    exact nomatch hreturned

end RustClient

end Kgd
