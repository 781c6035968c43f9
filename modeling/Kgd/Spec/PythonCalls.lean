import Kgd.Client.Python
import Kgd.ForStd.OwnerTable
import Kgd.ForStd.Run

/-!
# Calls of the Python client

## Key results

- `PythonClient.owned_of_run`: the pending entries are those of the calls in progress
- `PythonClient.tables_empty`: the results are collected if none is stored for another call
-/

namespace Kgd

namespace PythonClient

variable {K V : Type}

abbrev History (K V : Type) := List (Transition (State K V) (Action K V))

/-- The key of the call in the tables. -/
def Call.key (call : Call V) : Key K := .int call.msgID

def CallPoint.isReturned : CallPoint V → Bool
  | .returned _ => true
  | .sending | .waiting | .woken | .leaving _ => false

def Call.InProgress (call : Call V) : Prop := call.point.isReturned = false

/-- No call is in progress. -/
def Idle (s : State K V) : Prop := ∀ call ∈ s.calls, call.point.isReturned = true

/-- A response is stored for a call in progress only, and a call leaves no result behind. -/
def Bookkept (s : State K V) : Action K V → Prop
  | .receive r => r.msgID ∈ s.pending
  | .release c => ∀ call ∈ s.calls[c]?, call.key ∉ s.results
  | _ => True

/-- Every result is that of a call in progress. -/
def ResultsPending (s : State K V) : Prop := ∀ k ∈ s.results, k ∈ s.pending

variable {s s' : State K V} {a : Action K V} {c c' : CallNo} {p : CallPoint V}
  {call : Call V} {k : Key K} {tr : History K V}

theorem calls_setPoint : (s.setPoint c p).calls[c']? =
    s.calls[c']?.map fun call => if c = c' then { call with point := p } else call :=
  List.getElem?_modify ..

theorem calls_setEvent : (s.setEvent c).calls[c']? =
    s.calls[c']?.map fun call => if c = c' then { call with event := true } else call :=
  List.getElem?_modify ..

variable [DecidableEq K]

/-! ## The pending table -/

/-- A call that has not returned keeps its entry. -/
theorem owned_setPoint (h : Owned Call.key Call.InProgress s.pending s.calls)
    (hp : p.isReturned = false) :
    Owned Call.key Call.InProgress (s.setPoint c p).pending (s.setPoint c p).calls :=
  h.modify fun _ _ _ _ => ⟨rfl, hp⟩

/-- Setting an event leaves the entries those of calls in progress. -/
theorem owned_setEvent (h : Owned Call.key Call.InProgress s.pending s.calls) :
    Owned Call.key Call.InProgress (s.setEvent c).pending (s.setEvent c).calls :=
  h.modify fun _ _ hlive _ => ⟨rfl, hlive⟩

/-- Every entry is that of a call in progress, and a step keeps it so. -/
theorem owned_step (h : Owned Call.key Call.InProgress s.pending s.calls) (hs : Step s a s') :
    Owned Call.key Call.InProgress s'.pending s'.calls := by
  unfold Step at hs
  cases a with
  | start =>
    cases hs
    have hcall : (s.calls ++ [⟨s.nextID, false, .sending⟩])[s.calls.length]? =
        some (⟨s.nextID, false, .sending⟩ : Call V) := List.getElem?_concat_length
    exact Owned.insert h.erase.concat hcall rfl
  | send c | sendError c | expire c =>
    simp only [State.next] at hs
    split at hs
    · cases hs
      exact owned_setPoint h rfl
    · exact nomatch hs
  | wake c =>
    simp only [State.next] at hs
    split at hs
    · cases hs
      apply owned_setPoint h
      split <;> rfl
    · exact nomatch hs
  | collect c =>
    simp only [State.next] at hs
    split at hs
    · split at hs
      all_goals
        cases hs
        exact h.modify fun _ _ _ _ => ⟨rfl, rfl⟩
    · exact nomatch hs
  | release c =>
    simp only [State.next] at hs
    split at hs
    · rename_i msgID event o hc
      cases hs
      apply h.erase.modify
      intro call hcall _ hlookup
      -- the entry of the call is the one that has gone
      rw [hc] at hcall
      obtain rfl := Option.some.inj hcall
      rw [Call.key, AList.lookup_erase] at hlookup
      exact nomatch hlookup
    · exact nomatch hs
  | receive r =>
    simp only [State.next] at hs
    split at hs
    · cases hs
      exact h
    · exact nomatch hs
  | setEvent | wakeNext =>
    simp only [State.next] at hs
    split at hs
    · cases hs
      exact owned_setEvent h
    · exact nomatch hs
  | eof | listEvents =>
    simp only [State.next] at hs
    split at hs
    · cases hs
      exact h
    · exact nomatch hs
  | close =>
    cases hs
    exact h

theorem owned_of_run (h : Run Step .new tr s) :
    Owned Call.key Call.InProgress s.pending s.calls :=
  h.invariant (I := fun s => Owned Call.key Call.InProgress s.pending s.calls) .empty
    fun _ _ _ => owned_step

/-! ## The results -/

/-- A step keeps every result that of a call in progress, if it is bookkept. -/
theorem resultsPending_step (h : ResultsPending s) (hs : Step s a s') (hkept : Bookkept s a) :
    ResultsPending s' := by
  unfold Step at hs
  cases a with
  | start =>
    cases hs
    exact fun k hk => (AList.mem_insert _).mpr (.inr (h k hk))
  | send c | sendError c | expire c | wake c =>
    simp only [State.next] at hs
    split at hs
    · cases hs
      exact h
    · exact nomatch hs
  -- a call that takes its result takes the entry out with it
  | collect c =>
    simp only [State.next] at hs
    split at hs
    · split at hs
      · cases hs
        exact fun k hk => h k (AList.mem_erase.mp hk).2
      · cases hs
        exact h
    · exact nomatch hs
  -- only the entry of a call that timed out goes, and by the condition it has no result
  | release c =>
    simp only [State.next] at hs
    split at hs
    · rename_i msgID event o hc
      cases hs
      intro k hk
      have hne : k ≠ .int msgID := by
        rintro rfl
        exact hkept _ hc hk
      exact AList.mem_erase.mpr ⟨hne, h k hk⟩
    · exact nomatch hs
  | receive r =>
    simp only [State.next] at hs
    split at hs
    · cases hs
      intro k hk
      rcases (AList.mem_insert _).mp hk with rfl | hk
      · exact hkept
      · exact h k hk
    · exact nomatch hs
  | setEvent | wakeNext | eof | listEvents =>
    simp only [State.next] at hs
    split at hs
    · cases hs
      exact h
    · exact nomatch hs
  | close =>
    cases hs
    exact h

/-- Without calls in progress both tables are empty, if no result is stored for another call or
    left behind by its own. -/
theorem tables_empty (h : Run Step .new tr s) (hkept : ∀ x ∈ tr, Bookkept x.pre x.label)
    (hidle : Idle s) : s.pending = ∅ ∧ s.results = ∅ := by
  have hpending : s.pending = ∅ := by
    apply (owned_of_run h).eq_empty
    intro call hcall hlive
    exact absurd ((hidle call hcall).symm.trans hlive) nofun
  -- by the condition every result belongs to a call in the table
  have hresults : ResultsPending s := (h.restrict hkept).invariant
    (fun _ hk => absurd hk (AList.notMem_empty _))
    fun _ _ _ hi hs => resultsPending_step hi hs.1 hs.2
  refine ⟨hpending, AList.ext (List.eq_nil_iff_forall_not_mem.mpr fun e he => ?_)⟩
  have hmem : e.1 ∈ s.pending := hresults _ (List.mem_map_of_mem he)
  rw [hpending] at hmem
  exact AList.notMem_empty _ hmem

end PythonClient

end Kgd
