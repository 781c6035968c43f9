import Kgd.Spec.PythonCalls
import Kgd.Spec.RustCalls

/-!
# What calls leave behind

The Rust client keeps the sender of a call in its map until a response with the call's id takes
it out; the Python client stores the result of every response, whoever asked for it. Nothing is
left behind exactly as long as the reader and the call agree on who cleans up.

## Key results

- `tables_empty_when_idle`: over all runs of either client
-/

namespace Kgd

section Instances

variable {K V : Type}

instance (s : RustClient.State V) (a : RustClient.Action V) :
    Decidable (RustClient.LeavesNothing s a) :=
  match a with
  | .sendError c | .expire c =>
    inferInstanceAs (Decidable (∀ call ∈ s.calls[c]?, s.pending.lookup call.msgid ≠ some c))
  | .start | .register _ | .send _ | .wake _ | .receive .. | .deliver | .eof | .drainNext _
    | .exit => isTrue trivial

instance [DecidableEq K] (s : PythonClient.State K V) (a : PythonClient.Action K V) :
    Decidable (PythonClient.Bookkept s a) :=
  match a with
  | .receive r => inferInstanceAs (Decidable (r.msgID ∈ s.pending))
  | .release c => inferInstanceAs (Decidable (∀ call ∈ s.calls[c]?, call.key ∉ s.results))
  | .start | .send _ | .sendError _ | .expire _ | .wake _ | .collect _ | .setEvent | .eof
    | .listEvents | .wakeNext | .close => isTrue trivial

instance (s : RustClient.State V) : Decidable (RustClient.Idle s) :=
  inferInstanceAs (Decidable (∀ call ∈ s.calls, call.point.isReturned = true))

instance (s : PythonClient.State K V) : Decidable (PythonClient.Idle s) :=
  inferInstanceAs (Decidable (∀ call ∈ s.calls, call.point.isReturned = true))

end Instances

/-- When no call is in progress the tables are empty: in every run of the Rust client where no
    call fails to send or times out with its sender in the map, and in every run of the Python
    client where responses are to calls in progress and no call leaves its result behind. -/
theorem tables_empty_when_idle {K V : Type} [DecidableEq K]
    {trR : List (Transition (RustClient.State V) (RustClient.Action V))} {sR : RustClient.State V}
    {trP : PythonClient.History K V} {sP : PythonClient.State K V} :
    (Run RustClient.Step .new trR sR →
      (∀ x ∈ trR, RustClient.LeavesNothing x.pre x.label) →
      RustClient.Idle sR → sR.pending = ∅) ∧
    (Run PythonClient.Step .new trP sP →
      (∀ x ∈ trP, PythonClient.Bookkept x.pre x.label) →
      PythonClient.Idle sP → sP.pending = ∅ ∧ sP.results = ∅) :=
  ⟨RustClient.pending_empty, PythonClient.tables_empty⟩

/-- One call is answered, and the connection ends under a second one. -/
def rustTwoCalls : List (RustClient.Action Unit) :=
  [.start, .register 0, .send 0, .receive 0 none none, .deliver, .wake 0,
    .start, .register 1, .send 1, .eof, .drainNext 1, .wake 1]

def pythonTwoCalls : List (PythonClient.Action Unit Unit) :=
  [.start, .send 0, .receive ⟨.int 0, none, none⟩, .setEvent, .wake 0, .collect 0, .release 0,
    .start, .send 1, .eof, .listEvents, .wakeNext, .wake 1, .release 1]

/-- Of two calls in each client one is answered, and the connection ends under the other. -/
theorem tables_empty_when_idle_eof :
    (∃ tr s, Run RustClient.Step (.new : RustClient.State Unit) tr s ∧ s.calls.length = 2 ∧
      s.pending = ∅) ∧
    (∃ tr s, Run PythonClient.Step (.new : PythonClient.State Unit Unit) tr s ∧
      s.calls.length = 2 ∧ s.pending = ∅ ∧ s.results = ∅) := by
  have hr := Run.of_follow RustClient.State.next .new rustTwoCalls (by decide)
  have hp := Run.of_follow PythonClient.State.next .new pythonTwoCalls (by decide)
  have ⟨hrEmpty, hpEmpty⟩ := tables_empty_when_idle.imp (· hr (by decide) (by decide))
    (· hp (by decide) (by decide))
  exact ⟨⟨_, _, hr, by decide, hrEmpty⟩, ⟨_, _, hp, by decide, hpEmpty⟩⟩

/-- A call times out: the Rust client keeps its sender, the Python client its late response. -/
theorem timeout_leaves_entry :
    ¬ (∀ tr s, Run RustClient.Step (.new : RustClient.State Unit) tr s → RustClient.Idle s →
        s.pending = ∅) ∧
    ¬ (∀ tr s, Run PythonClient.Step (.new : PythonClient.State Unit Unit) tr s →
        PythonClient.Idle s → s.pending = ∅ ∧ s.results = ∅) := by
  constructor
  · intro h
    -- a call times out, and nobody answers it
    have hrun := Run.of_follow RustClient.State.next (.new : RustClient.State Unit)
      [.start, .register 0, .send 0, .expire 0] (by decide)
    have hempty := h _ _ hrun (by decide)
    exact absurd (congrArg AList.keys hempty) (by decide)
  · intro h
    -- the answer comes after the call has left
    have hrun := Run.of_follow PythonClient.State.next (.new : PythonClient.State Unit Unit)
      [.start, .send 0, .expire 0, .release 0, .receive ⟨.int 0, none, none⟩] (by decide)
    have hempty := h _ _ hrun (by decide)
    exact absurd (congrArg AList.keys hempty.2) (by decide)

end Kgd
