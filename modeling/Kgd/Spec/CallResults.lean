import Kgd.Spec.CCalls
import Kgd.Spec.ZigCalls

/-!
# A call gets the answer to its own request, and success is an answer

Of the C and the Zig client, over all runs of calls, timeouts, responses, the end of the
connection and `close`.

## Key results

- `calls_get_own_answers`: unless a slot receives the response to a request of an earlier call
- `success_is_answered`: unless the exiting reader wakes a call that waits
-/

namespace Kgd

/-! ## The answer to its own request -/

/-- Where slots receive no foreign responses and nobody waits at the end, the C client returns the
    result of the call's own response. -/
theorem CClient.ownAnswers {tr : client.History} {s : CClient.State}
    (h : Run CClient.Step .new tr s)
    (hcond : ∀ x ∈ tr, client.Undisturbed x.pre x.label ∧ NobodyWaits x.pre x.label) :
    client.OwnAnswers tr s := by
  intro c msgid d hd
  obtain ⟨r, copied, hr, hok, hdata⟩ :=
    succeeded_received h (fun x hx => (hcond x hx).2) (List.bind_getElem?_eq_some_iff.mpr hd)
  obtain ⟨hid, hcopied⟩ := hr.own fun x hx => (hcond x hx).1
  rw [hcopied] at hdata
  exact ⟨r, copied, hr, hok, hid, hdata.resolve_right nofun⟩

/-- Where slots receive no foreign responses, nobody waits at the end and results are kept, so does
    the Zig client. -/
theorem ZigClient.ownAnswers {tr : client.History} {s : ZigClient.State}
    (h : Run ZigClient.Step .new tr s)
    (hcond : ∀ x ∈ tr, client.Undisturbed x.pre x.label ∧ NobodyWaits x.pre x.label ∧
      KeepsResults x.pre x.label) :
    client.OwnAnswers tr s := by
  intro c msgid d hd
  have hinformed := succeeded_received h (fun x hx => (hcond x hx).2.1)
    (List.bind_getElem?_eq_some_iff.mpr hd)
  obtain ⟨r, copied, hr, hok, hdata⟩ := hinformed.2 fun x hx => (hcond x hx).2.2
  obtain ⟨hid, hcopied⟩ := hr.own fun x hx => (hcond x hx).1
  rw [hcopied] at hdata
  exact ⟨r, copied, hr, hok, hid, hdata.resolve_right nofun⟩

/-- A call that returns success returns the result of the response to its own request, in every
    run where no slot receives the response to another request than that of the call that holds
    it, nor one that cannot be copied, and the connection does not end under a call that
    waits. -/
theorem calls_get_own_answers {trC : CClient.client.History} {sC : CClient.State}
    {trZ : ZigClient.client.History} {sZ : ZigClient.State} :
    (Run CClient.Step .new trC sC →
      (∀ x ∈ trC, CClient.client.Undisturbed x.pre x.label ∧
        CClient.NobodyWaits x.pre x.label) →
      CClient.client.OwnAnswers trC sC) ∧
    (Run ZigClient.Step .new trZ sZ →
      (∀ x ∈ trZ, ZigClient.client.Undisturbed x.pre x.label ∧
        ZigClient.NobodyWaits x.pre x.label ∧ ZigClient.KeepsResults x.pre x.label) →
      ZigClient.client.OwnAnswers trZ sZ) :=
  ⟨CClient.ownAnswers, ZigClient.ownAnswers⟩

/-- The response to request `msgid`: its result is the byte `n`. -/
private def answer (msgid : UInt32) (n : UInt8) : Response := ⟨msgid, false, none, [n]⟩

/-- A call of the C client from its start to its return. -/
private def cCall (c : Nat) : List CClient.Action :=
  [.start, .acquire c, .send c, .check c, .receive (answer (.ofNat c) (.ofNat c)) true, .check c]

/-- A call of the Zig client from its start to its return. -/
private def zigCall (c : Nat) : List ZigClient.Action :=
  [.start, .acquire c, .send c, .receive (answer (.ofNat c) (.ofNat c)) true, .wake c,
    .collect c true]

/-- Two calls, answered in turn. -/
theorem calls_get_own_answers_two :
    (∃ tr s, Run CClient.Step .new tr s ∧
      (CClient.client.success s)[1]? = some (some (1, [1])) ∧
      CClient.client.OwnAnswers tr s) ∧
    (∃ tr s, Run ZigClient.Step .new tr s ∧
      (ZigClient.client.success s)[1]? = some (some (1, [1])) ∧
      ZigClient.client.OwnAnswers tr s) := by
  have hc := Run.of_follow CClient.State.next .new (cCall 0 ++ cCall 1) (by decide)
  have hz := Run.of_follow ZigClient.State.next .new (zigCall 0 ++ zigCall 1) (by decide)
  have ⟨hcOwn, hzOwn⟩ :=
    calls_get_own_answers.imp (· hc (by decide)) (· hz (by decide))
  exact ⟨⟨_, _, hc, by decide, hcOwn⟩, ⟨_, _, hz, by decide, hzOwn⟩⟩

/-- The first call times out, 63 others have their ids and no slot yet, and the response to the
    first request arrives when its slot belongs to the call with id 64. -/
private def cLate : List CClient.Action :=
  List.flatten [[.start, .acquire 0, .send 0, .check 0, .expire 0], List.replicate 64 .start,
    [.acquire 64, .send 64, .check 64, .receive (answer 0 0) true, .check 64]]

private def zigLate : List ZigClient.Action :=
  List.flatten [[.start, .acquire 0, .send 0, .expire 0, .release 0], List.replicate 64 .start,
    [.acquire 64, .send 64, .receive (answer 0 0) true, .wake 64, .collect 64 true]]

/-- The call with id 64 returns the result of request 0. -/
theorem late_answer_mismatched :
    ¬ (∀ tr s, Run CClient.Step .new tr s → CClient.client.OneResponsePerRequest tr →
        CClient.client.OwnAnswers tr s) ∧
    ¬ (∀ tr s, Run ZigClient.Step .new tr s → ZigClient.client.OneResponsePerRequest tr →
        ZigClient.client.OwnAnswers tr s) := by
  constructor
  · intro h
    -- the call with id 64 returns the late response to the one with id 0
    have hlate : ∃ run ∈ Run.follow CClient.State.next .new cLate,
        CClient.client.OneResponsePerRequest run.1 ∧
        (CClient.client.success run.2)[64]? = some (some (64, [0])) ∧
        ∀ x ∈ run.1, ∀ r ∈ CClient.client.received x.label, r.1.msgid ≠ 64 := by decide +kernel
    obtain ⟨run, hrun, hone, hsuccess, hnone⟩ := hlate
    obtain ⟨r, copied, ⟨x, hx, hr, -⟩, -, hid, -⟩ :=
      h _ _ (Run.of_mem_follow hrun) hone 64 64 [0] hsuccess
    exact hnone x hx (r, copied) hr hid
  · intro h
    have hlate : ∃ run ∈ Run.follow ZigClient.State.next .new zigLate,
        ZigClient.client.OneResponsePerRequest run.1 ∧
        (ZigClient.client.success run.2)[64]? = some (some (64, [0])) ∧
        ∀ x ∈ run.1, ∀ r ∈ ZigClient.client.received x.label, r.1.msgid ≠ 64 := by decide +kernel
    obtain ⟨run, hrun, hone, hsuccess, hnone⟩ := hlate
    obtain ⟨r, copied, ⟨x, hx, hr, -⟩, -, hid, -⟩ :=
      h _ _ (Run.of_mem_follow hrun) hone 64 64 [0] hsuccess
    exact hnone x hx (r, copied) hr hid

/-! ## Success is an answer -/

/-- A call returns success only if its slot has received a response without an error, in every
    run where the exiting reader finds no call that waits for its response. -/
theorem success_is_answered {trC : CClient.client.History} {sC : CClient.State}
    {trZ : ZigClient.client.History} {sZ : ZigClient.State} :
    (Run CClient.Step .new trC sC → (∀ x ∈ trC, CClient.NobodyWaits x.pre x.label) →
      CClient.SuccessAnswered trC sC) ∧
    (Run ZigClient.Step .new trZ sZ → (∀ x ∈ trZ, ZigClient.NobodyWaits x.pre x.label) →
      ZigClient.SuccessAnswered trZ sZ) :=
  ⟨CClient.successAnswered, ZigClient.successAnswered⟩

/-- A call is answered before the connection ends, with another that has timed out. -/
theorem success_is_answered_eof :
    (∃ tr s, Run CClient.Step .new tr s ∧
      (CClient.client.success s)[0]? = some (some (0, [0])) ∧ s.reader = .waking 1 ∧
      CClient.SuccessAnswered tr s) ∧
    (∃ tr s, Run ZigClient.Step .new tr s ∧
      (ZigClient.client.success s)[0]? = some (some (0, [0])) ∧ s.reading = false ∧
      ZigClient.SuccessAnswered tr s) := by
  -- one call is answered; the other is given up before the stream ends
  have hc := Run.of_follow CClient.State.next .new
    (List.append (cCall 0) [.start, .acquire 1, .send 1, .check 1, .expire 1, .eof, .wake])
    (by decide)
  have hz := Run.of_follow ZigClient.State.next .new
    (List.append (zigCall 0) [.start, .acquire 1, .send 1, .expire 1, .release 1, .eof])
    (by decide)
  have ⟨hcAnswered, hzAnswered⟩ :=
    success_is_answered.imp (· hc (by decide)) (· hz (by decide))
  exact ⟨⟨_, _, hc, by decide, by decide, hcAnswered⟩,
    ⟨_, _, hz, by decide, by decide, hzAnswered⟩⟩

/-- The connection ends under a call that waits, and the call returns success: so do
    `kgd_unplace` and `unplace`. -/
theorem lost_connection_succeeds :
    ¬ (∀ tr s, Run CClient.Step .new tr s → CClient.SuccessAnswered tr s) ∧
    ¬ (∀ tr s, Run ZigClient.Step .new tr s → ZigClient.SuccessAnswered tr s) := by
  constructor
  · intro h
    -- the reader wakes the call as done, and no response has come
    have hrun := Run.of_follow CClient.State.next .new
      [.start, .acquire 0, .send 0, .check 0, .eof, .wake, .check 0] (by decide)
    obtain ⟨r, copied, ⟨x, hx, hr, -⟩, -⟩ :=
      h _ _ hrun 0 0 (.ok ⟨none, 0⟩) rfl (.inr (.inl rfl))
    have hnone : ∀ x ∈ ((Run.follow CClient.State.next .new [.start, .acquire 0, .send 0, .check 0,
        .eof, .wake, .check 0]).get (by decide)).1,
        CClient.client.received x.label = none := by decide
    rw [hnone x hx] at hr
    exact nomatch hr
  · intro h
    have hrun := Run.of_follow ZigClient.State.next .new
      [.start, .acquire 0, .send 0, .eof, .wake 0, .collect 0 true] (by decide)
    obtain ⟨r, copied, ⟨x, hx, hr, -⟩, -⟩ := h _ _ hrun 0 0 (.ok []) rfl (.inr (.inl rfl))
    have hnone : ∀ x ∈ ((Run.follow ZigClient.State.next .new [.start, .acquire 0, .send 0, .eof,
        .wake 0, .collect 0 true]).get (by decide)).1,
        ZigClient.client.received x.label = none := by decide
    rw [hnone x hx] at hr
    exact nomatch hr

end Kgd
