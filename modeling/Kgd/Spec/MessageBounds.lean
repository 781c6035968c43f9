import Kgd.Spec.Messages

/-!
# Messages of an irregular length

`Serve` only checks that a message has at least three elements; then the handlers read four of a
request and three of a notification. A request of three elements takes its params from what
follows it, and the surplus of a longer message is read as the next message.

## Key results

- `confined_of_guarded`, `guarded_of_confined`: when `Serve` stays within such a message
- `serve_confined_iff`: for every message that is reached in a stream
- `serve_confined_fails`: a stop notification inside a list request
-/

namespace Kgd

open Msgpack (format)

variable {ω : Type} {dec : Decoder} {b : Backend ω} {c c' : Conn ω} {bs rest : Bytes}

/-- The stream starts with an array of at least three elements that is a request or a
    notification by its first element, but does not have the length of one. -/
def Decoder.Irregular (dec : Decoder) (bs : Bytes) : Prop :=
  ∃ arrLen bs₁ msgType bs₂, dec.decodeArrayLen bs = .ok (arrLen, bs₁) ∧ 3 ≤ arrLen ∧
    dec.decodeInt bs₁ = .ok (msgType, bs₂) ∧
    (msgType = 0 ∧ arrLen ≠ 4 ∨ msgType = 2 ∧ arrLen ≠ 3)

/-- What a dispatched message has left unread when its params are decoded. -/
def Entry.unread? : Entry → Option Bytes
  | .dispatch _ _ rest => some rest
  | .start _ | .response .. => none

@[simp] theorem unread?_start : (Entry.start bs).unread? = none := rfl

@[simp] theorem unread?_dispatch (method : String) (params : Option Params) :
    (Entry.dispatch method params bs).unread? = some bs := rfl

/-- `Serve` returns an error, and of what it reads from here on at most the message itself is
    dispatched, with params that are not read past the end of the array. -/
def Rejects (dec : Decoder) (b : Backend ω) (c : Conn ω) (bs : Bytes) : Prop :=
  ∃ fuel log err, serve dec b fuel c bs = (log, some (some err)) ∧
    (log.filterMap Entry.unread?).length ≤ 1 ∧
    ∀ unread ∈ log.filterMap Entry.unread?, ∀ rest, format.skip 1 bs = some rest →
      rest.length ≤ unread.length

/-- `Serve` goes on with the next message at the end of the array. -/
def ConsumesArray (dec : Decoder) (b : Backend ω) (c : Conn ω) (bs : Bytes) : Prop :=
  ∃ log rest c', iteration dec b c bs = (log, .continues rest c') ∧ format.skip 1 bs = some rest

/-- If the message is read up to its params, it has an element for them; and if it is read to
    the end of its params, what follows is neither another message nor the end of the stream. -/
def Decoder.Guarded (dec : Decoder) (bs : Bytes) : Prop :=
  ∀ p, dec.message? bs = some p →
    (p.fields : Int) < p.arrLen ∧
      ∀ rest, dec.skipValues p.extra p.rest = .ok rest →
        dec.message? rest = none ∧ ¬ dec.AtEnd rest

/-! ## The values of an irregular message -/

/-- An irregular message does not have one element for its params. -/
theorem Decoder.Irregular.arrLen_ne {p : Parsed} (hirr : dec.Irregular bs)
    (h : dec.message? bs = some p) : p.arrLen ≠ p.fields + 1 := by
  obtain ⟨arrLen, bs₁, msgType, bs₂, hlen, hge, htype, hne⟩ := hirr
  obtain ⟨arrLen', elements, hlen', -, hcall⟩ := dec.message?_eq_some h
  obtain ⟨rfl, rfl⟩ : arrLen = arrLen' ∧ bs₁ = elements := by simpa [hlen] using hlen'
  -- the length does not fit the type the message has
  rcases hcall with ⟨_, msgID, _, htype', -, hcall⟩ | ⟨_, htype', hcall⟩
  · obtain ⟨rfl, -⟩ : msgType = 0 ∧ _ := by simpa [htype] using htype'
    obtain ⟨harr, hmsgID⟩ := dec.call?_fields hcall
    rw [harr, Parsed.fields, hmsgID]
    simpa using hne
  · obtain ⟨rfl, -⟩ : msgType = 2 ∧ _ := by simpa [htype] using htype'
    obtain ⟨harr, hmsgID⟩ := dec.call?_fields hcall
    rw [harr, Parsed.fields, hmsgID]
    simpa using hne

/-- A longer message ends after the extra params and its surplus elements. -/
theorem skip_of_surplus (law : dec.Lawful) (hirr : dec.Irregular bs) {p : Parsed}
    (h : dec.message? bs = some p) (hlong : (p.fields : Int) < p.arrLen) :
    ∃ k, format.skip 1 bs = format.skip (p.extra + (k + 1)) p.rest := by
  obtain ⟨elements, before, hitem, -, hfields, -, hparams⟩ := law.message h
  have hne := hirr.arrLen_ne h
  obtain ⟨k, hk⟩ : ∃ k, p.arrLen.toNat = p.fields + (1 + (k + 1)) :=
    ⟨p.arrLen.toNat - p.fields - 2, by omega⟩
  refine ⟨k, ?_⟩
  -- the fields that are read, the parameters, and what is left over
  calc format.skip 1 bs = format.skip (p.fields + (1 + (k + 1))) elements := by
        rw [format.skip_of_item hitem 0, hk, Nat.add_zero]
    _ = (format.skip 1 before).bind (format.skip (k + 1)) := by
        rw [PrefixNotation.skip_add, hfields, Option.bind_some, PrefixNotation.skip_add]
    _ = format.skip (p.extra + (k + 1)) p.rest := by
        rw [hparams, ← PrefixNotation.skip_add]

/-- A request without an element for its params ends before them. -/
theorem skip_of_missing (law : dec.Lawful) {p : Parsed} (h : dec.message? bs = some p)
    (hshort : ¬ (p.fields : Int) < p.arrLen) :
    ∃ before, format.skip 1 bs = some before ∧ p.rest.length < before.length := by
  obtain ⟨elements, before, hitem, hge, hfields, hlt, -⟩ := law.message h
  have hle : p.fields ≤ 3 := by
    rw [Parsed.fields]
    split <;> omega
  have harr : p.arrLen.toNat = p.fields := by omega
  refine ⟨before, ?_, hlt⟩
  rw [format.skip_of_item hitem 0, harr]
  exact hfields

/-- Where an iteration leaves off. -/
theorem skipValues_of_continues {p : Parsed} {log : List Entry} (h : dec.message? bs = some p)
    (hiter : iteration dec b c bs = (log, .continues rest c')) :
    dec.skipValues p.extra p.rest = .ok rest := by
  -- had an extra parameter not been skipped, the connection would be closed
  cases hskip : dec.skipValues p.extra p.rest with
  | error err =>
    obtain ⟨text, heq⟩ := iteration_skip_error (b := b) (c := c) h hskip
    rw [heq] at hiter
    exact nomatch (Prod.mk.inj hiter).2
  | ok rest' =>
    obtain ⟨result, -, hend⟩ := iteration_skip_ok (b := b) (c := c) h hskip
    rw [hiter] at hend
    cases hend with
    | inl herror => exact nomatch herror.1
    | inr hok =>
      obtain ⟨c'', heq⟩ := hok
      obtain ⟨rfl, -⟩ := Iteration.continues.inj heq
      rfl

/-- A message that is read up to its params is dispatched. -/
theorem unread_of_serve {p : Parsed} {fuel : Nat} {log : List Entry} {err : Option String}
    (h : dec.message? bs = some p) (hserve : serve dec b fuel c bs = (log, some err)) :
    p.rest ∈ log.filterMap Entry.unread? := by
  cases fuel with
  | zero => exact nomatch (Prod.mk.inj hserve).2
  | succ fuel =>
    -- whether or not the extra params can be skipped
    have hhead : ∃ tail, (iteration dec b c bs).1 =
        .start bs :: .dispatch p.method p.params p.rest :: tail := by
      cases hskip : dec.skipValues p.extra p.rest with
      | error err =>
        obtain ⟨text, heq⟩ := iteration_skip_error (b := b) (c := c) h hskip
        exact ⟨[], by rw [heq]⟩
      | ok rest =>
        obtain ⟨result, hlog, -⟩ := iteration_skip_ok (b := b) (c := c) h hskip
        exact ⟨_, hlog⟩
    obtain ⟨tail, hlog⟩ := hhead
    rw [serve] at hserve
    cases hiter : iteration dec b c bs with
    | mk log₁ r =>
      rw [hiter] at hserve hlog
      simp only at hlog
      subst hlog
      cases r with
      | returns err' =>
        obtain ⟨rfl, -⟩ := Prod.mk.inj hserve
        simp
      | continues rest c' =>
        obtain ⟨rfl, -⟩ := Prod.mk.inj hserve
        simp

/-! ## Staying within it -/

/-- A response leaves nothing unread. -/
theorem unread_responses (p : Parsed) (result : Except String (Option Sent)) :
    (p.responses result).filterMap Entry.unread? = [] := by
  rw [Parsed.responses]
  cases p.msgID <;> rfl

/-- What is left unread of a message and of what follows it. -/
theorem unread_message (bs : Bytes) (p : Parsed) (result : Except String (Option Sent))
    (log : List Entry) :
    (.start bs :: .dispatch p.method p.params p.rest :: (p.responses result ++ log)).filterMap
      Entry.unread? = p.rest :: log.filterMap Entry.unread? := by
  simp [List.filterMap_cons, unread_responses]

/-- `Serve` has dispatched one message, which has not read past the array, and returns an error. -/
theorem rejects_of_dispatch {p : Parsed} {fuel : Nat} {text : String}
    {result : Except String (Option Sent)} {log : List Entry}
    (hserve : serve dec b fuel c bs =
      (.start bs :: .dispatch p.method p.params p.rest :: (p.responses result ++ log),
        some (some text)))
    (hlog : log.filterMap Entry.unread? = [])
    (hunread : ∀ rest, format.skip 1 bs = some rest → rest.length ≤ p.rest.length) :
    Rejects dec b c bs := by
  refine ⟨fuel, _, text, hserve, ?_, ?_⟩
  · rw [unread_message, hlog]
    exact Nat.le_refl 1
  · rw [unread_message, hlog]
    simpa using hunread

/-- An irregular message that is guarded is rejected. -/
theorem rejects_of_guarded (law : dec.Lawful) (hirr : dec.Irregular bs)
    (hguard : dec.Guarded bs) : Rejects dec b c bs := by
  cases h : dec.message? bs with
  | none =>
    obtain ⟨err, heq, hend⟩ := iteration_none (b := b) (c := c) h
    cases err with
    | none =>
      obtain ⟨err, herr, -⟩ := hend.mp rfl
      obtain ⟨_, _, _, _, hlen, -⟩ := hirr
      rw [herr] at hlen
      exact nomatch hlen
    | some text =>
      exact ⟨1, _, text, serve_returns heq 0, Nat.zero_le _, by simp⟩
  | some p =>
    obtain ⟨hlong, hnext⟩ := hguard p h
    obtain ⟨k, hsurplus⟩ := skip_of_surplus law hirr h hlong
    -- the params end before the array does
    have hunread : ∀ rest, format.skip 1 bs = some rest → rest.length ≤ p.rest.length := by
      intro rest hrest
      rw [hsurplus] at hrest
      exact (format.skip_suffix hrest).length_le
    cases hskip : dec.skipValues p.extra p.rest with
    | error err =>
      obtain ⟨text, heq⟩ := iteration_skip_error (b := b) (c := c) h hskip
      exact ⟨1, _, text, serve_returns heq 0, Nat.le_refl 1, by simpa using hunread⟩
    | ok rest =>
      obtain ⟨hnone, hend⟩ := hnext rest hskip
      obtain ⟨result, hlog, hstep⟩ := iteration_skip_ok (b := b) (c := c) h hskip
      cases hiter : iteration dec b c bs with
      | mk log r =>
        rw [hiter] at hlog hstep
        simp only at hlog hstep
        subst hlog
        cases hstep with
        | inl herror =>
          obtain ⟨⟨text, rfl⟩, -⟩ := herror
          have hserve := serve_returns hiter 0
          rw [← List.append_nil (p.responses result)] at hserve
          exact rejects_of_dispatch hserve rfl hunread
        | inr hok =>
          obtain ⟨c', rfl⟩ := hok
          obtain ⟨err, heq, hiff⟩ := iteration_none (b := b) (c := c') hnone
          cases err with
          | none => exact absurd (hiff.mp rfl) hend
          | some text =>
            have hserve := serve_continues hiter 1
            rw [serve_returns heq 0, List.cons_append, List.cons_append] at hserve
            exact rejects_of_dispatch hserve rfl hunread

/-- An irregular message that does not get out of hand is guarded. -/
theorem guarded_of_confined (law : dec.Lawful) (hopen : b.Open) (hirr : dec.Irregular bs)
    (hconf : Rejects dec b c bs ∨ ConsumesArray dec b c bs) : dec.Guarded bs := by
  intro p h
  -- a request of three elements reads its params past its end
  have hlong : (p.fields : Int) < p.arrLen := by
    refine Decidable.byContradiction fun hshort => ?_
    obtain ⟨before, hbefore, hlt⟩ := skip_of_missing law h hshort
    cases hconf with
    | inl hrejects =>
      obtain ⟨fuel, log, err, hserve, -, hunread⟩ := hrejects
      have hle := hunread p.rest (unread_of_serve h hserve) before hbefore
      omega
    | inr hconsumes =>
      obtain ⟨log, rest, c', hiter, hskip⟩ := hconsumes
      obtain rfl : before = rest := Option.some.inj (hbefore.symm.trans hskip)
      have hsuffix := format.skip_suffix (law.skipValues (skipValues_of_continues h hiter))
      have hle := hsuffix.length_le
      omega
  refine ⟨hlong, fun rest hskip => ?_⟩
  obtain ⟨k, hsurplus⟩ := skip_of_surplus law hirr h hlong
  obtain ⟨result, hlog, hstep⟩ := iteration_skip_ok (b := b) (c := c) h hskip
  obtain ⟨c', hnext⟩ : ∃ c', (iteration dec b c bs).2 = .continues rest c' := by
    cases hstep with
    | inl herror => exact absurd hopen herror.2
    | inr hok => exact hok
  have hiter : iteration dec b c bs = (_, _) := Prod.ext hlog hnext
  cases hconf with
  | inr hconsumes =>
    -- the surplus elements are still to come
    obtain ⟨log, rest', c'', hiter', harray⟩ := hconsumes
    have hrest' := skipValues_of_continues h hiter'
    rw [hskip] at hrest'
    obtain rfl : rest = rest' := Except.ok.inj hrest'
    rw [hsurplus, PrefixNotation.skip_add, law.skipValues hskip] at harray
    exact absurd (format.length_skip_lt harray) (Nat.lt_irrefl _)
  | inl hrejects =>
    obtain ⟨fuel, log, err, hserve, hone, -⟩ := hrejects
    obtain ⟨fuel, rfl⟩ : ∃ n, fuel = n + 1 := by
      cases fuel with
      | zero => cases (Prod.mk.inj hserve).2
      | succ n => exact ⟨n, rfl⟩
    rw [serve_continues hiter] at hserve
    obtain ⟨rfl, hret⟩ := Prod.mk.inj hserve
    have hserve' : serve dec b fuel c' rest = (_, some (some err)) := Prod.ext rfl hret
    rw [List.cons_append, List.cons_append, unread_message] at hone
    constructor
    · -- another message would be dispatched as well
      refine Option.eq_none_iff_forall_not_mem.mpr fun q hq => ?_
      have hpos := List.length_pos_of_mem (unread_of_serve hq hserve')
      exact Nat.lt_irrefl 0 (hpos.trans_le (Nat.le_of_succ_le_succ hone))
    · -- and at the end of the stream no error would be returned
      intro hend
      have hnone : dec.message? rest = none := by
        obtain ⟨err', herr', -⟩ := hend
        rw [Decoder.message?, herr']
      obtain ⟨err', heq, hiff⟩ := iteration_none (b := b) (c := c') hnone
      rw [hiff.mpr hend] at heq
      cases fuel with
      | zero => cases hret
      | succ fuel =>
        rw [serve_returns heq] at hret
        cases hret

/-! ## Every message of a stream -/

/-- The loop of `Serve` gets to a message: what it has done before, and what is left of the
    stream. -/
inductive Reaches (dec : Decoder) (b : Backend ω) (c : Conn ω) (stream : Bytes) :
    List Entry → Conn ω → Bytes → Prop
  | first : Reaches dec b c stream [] c stream
  | next {log log' : List Entry} {c₁ c₂ : Conn ω} {bs rest : Bytes} :
    Reaches dec b c stream log c₁ bs → iteration dec b c₁ bs = (log', .continues rest c₂) →
      Reaches dec b c stream (log ++ log') c₂ rest

/-- From there on it serves what is left. -/
theorem serve_of_reaches {stream : Bytes} {log : List Entry}
    (h : Reaches dec b c stream log c' bs) :
    ∃ n, ∀ fuel, serve dec b (n + fuel) c stream =
      (log ++ (serve dec b fuel c' bs).1, (serve dec b fuel c' bs).2) := by
  induction h with
  | first => exact ⟨0, fun fuel => by rw [Nat.zero_add, List.nil_append]⟩
  | next hreach hiter ih =>
    obtain ⟨n, ih⟩ := ih
    refine ⟨n + 1, fun fuel => ?_⟩
    rw [show n + 1 + fuel = n + (fuel + 1) by omega, ih, serve_continues hiter,
      List.append_assoc]

/-- More iterations do not change what `Serve` has done when it returns. -/
theorem serve_mono {fuel : Nat} {log : List Entry} {err : Option String}
    (h : serve dec b fuel c bs = (log, some err)) (k : Nat) :
    serve dec b (fuel + k) c bs = (log, some err) := by
  induction fuel generalizing c bs log with
  | zero => exact nomatch (Prod.mk.inj h).2
  | succ fuel ih =>
    rw [show fuel + 1 + k = fuel + k + 1 by omega]
    -- an iteration takes no fuel of its own
    cases hiter : iteration dec b c bs with
    | mk log₁ r =>
      cases r with
      | returns err' =>
        rw [serve_returns hiter] at h ⊢
        exact h
      | continues rest c' =>
        rw [serve_continues hiter] at h ⊢
        obtain ⟨rfl, herr⟩ := Prod.mk.inj h
        have hrest : serve dec b fuel c' rest = (_, some err) := Prod.ext rfl herr
        rw [ih hrest]

/-- `Serve` returns an error for the stream, and of what it reads from the message on at most
    the message itself is dispatched, with params that are not read past the end of its array;
    or it goes on with the next message at the end of the array. -/
def Confined (dec : Decoder) (b : Backend ω) (c : Conn ω) (stream : Bytes) (log : List Entry)
    (c' : Conn ω) (bs : Bytes) : Prop :=
  (∃ fuel tail err, serve dec b fuel c stream = (log ++ tail, some (some err)) ∧
      (tail.filterMap Entry.unread?).length ≤ 1 ∧
      ∀ unread ∈ tail.filterMap Entry.unread?, ∀ rest, format.skip 1 bs = some rest →
        rest.length ≤ unread.length) ∨
    ConsumesArray dec b c' bs

/-- What is confined in a stream is so from the message on. -/
theorem confined_iff_of_reaches {stream : Bytes} {log : List Entry}
    (h : Reaches dec b c stream log c' bs) :
    Confined dec b c stream log c' bs ↔ Rejects dec b c' bs ∨ ConsumesArray dec b c' bs := by
  obtain ⟨n, hn⟩ := serve_of_reaches h
  refine or_congr_left' fun _ => ⟨?_, ?_⟩
  · rintro ⟨fuel, tail, err, hserve, hrest⟩
    have hmore := serve_mono hserve n
    rw [Nat.add_comm, hn] at hmore
    obtain ⟨hlog, herr⟩ := Prod.mk.inj hmore
    exact ⟨fuel, tail, err, Prod.ext (List.append_cancel_left hlog) herr, hrest⟩
  · rintro ⟨fuel, tail, err, hserve, hrest⟩
    exact ⟨n + fuel, tail, err, by rw [hn, hserve], hrest⟩

/-- In every stream, for every message of an irregular length: that the message is guarded is
    enough on any connection, and needed on one that takes every response. -/
theorem serve_confined_iff (law : dec.Lawful) {stream : Bytes} {log : List Entry}
    (hreach : Reaches dec b c stream log c' bs) (hirr : dec.Irregular bs) :
    (dec.Guarded bs → Confined dec b c stream log c' bs) ∧
      (b.Open → Confined dec b c stream log c' bs → dec.Guarded bs) := by
  rw [confined_iff_of_reaches hreach]
  exact ⟨fun h => Or.inl (rejects_of_guarded law hirr h),
    fun hopen => guarded_of_confined law hopen hirr⟩

theorem short_fixarray (rest : Bytes) :
    Decoder.short.decodeArrayLen (0x90 :: rest) = .ok (0, rest) ∧
      Decoder.short.decodeArrayLen (0x93 :: rest) = .ok (3, rest) ∧
      Decoder.short.decodeArrayLen (0x95 :: rest) = .ok (5, rest) := ⟨rfl, rfl, rfl⟩

theorem short_int (rest : Bytes) :
    Decoder.short.decodeInt (0x00 :: rest) = .ok (0, rest) ∧
      Decoder.short.decodeInt (0x02 :: rest) = .ok (2, rest) := ⟨rfl, rfl⟩

theorem short_uint32 (rest : Bytes) :
    Decoder.short.decodeUint32 (0x01 :: rest) = .ok (1, rest) := rfl

/-- `[0, 1, "list", [], 5]`: the surplus element is no message. -/
theorem serve_confined_iff_surplus :
    Confined .short .stopped .unary [0x95, 0x00, 0x01, 0xa4, 0x6c, 0x69, 0x73, 0x74, 0x90, 0x05]
      [] .unary [0x95, 0x00, 0x01, 0xa4, 0x6c, 0x69, 0x73, 0x74, 0x90, 0x05] := by
  refine (serve_confined_iff Decoder.short_lawful .first
    ⟨5, _, 0, _, rfl, by decide, rfl, Or.inl ⟨rfl, by decide⟩⟩).1 fun p hp => ?_
  have hstring : Decoder.short.decodeString [0xa4, 0x6c, 0x69, 0x73, 0x74, 0x90, 0x05] =
      .ok ("list", [0x90, 0x05]) := by decide
  -- a `list` whose array announces one element more
  have hmsg : Decoder.short.message?
      [0x95, 0x00, 0x01, 0xa4, 0x6c, 0x69, 0x73, 0x74, 0x90, 0x05] =
        some ⟨5, some 1, "list", none, 0, [0x05]⟩ := by
    simp [Decoder.message?, Decoder.call?, Decoder.params?, short_fixarray, short_int,
      short_uint32, hstring]
  obtain rfl := Option.some.inj (hmsg.symm.trans hp)
  refine ⟨by decide, fun rest hskip => ?_⟩
  obtain rfl := Except.ok.inj hskip
  refine ⟨rfl, ?_⟩
  rintro ⟨err, herr, hend⟩
  obtain rfl := Except.error.inj herr
  cases hend

/-- `[0, 1, "list", [], [2, "stop", []]]`: the stop is executed. -/
theorem serve_confined_fails :
    ∃ (dec : Decoder) (b : Backend Unit) (c : Conn Unit) (stream : Bytes), dec.Lawful ∧ b.Open ∧
      dec.Irregular stream ∧ ¬ Confined dec b c stream [] c stream := by
  refine ⟨.short, .stopped, .unary,
    [0x95, 0x00, 0x01, 0xa4, 0x6c, 0x69, 0x73, 0x74, 0x90, 0x93, 0x02, 0xa4, 0x73, 0x74, 0x6f, 0x70,
      0x90], Decoder.short_lawful, fun _ _ _ => rfl,
    ⟨5, _, 0, _, rfl, by decide, rfl, Or.inl ⟨rfl, by decide⟩⟩, fun h => ?_⟩
  -- confined would mean that the element left over is no message of its own; here it is a `stop`
  have hguard := guarded_of_confined Decoder.short_lawful (fun _ _ _ => rfl)
    ⟨5, _, 0, _, rfl, by decide, rfl, Or.inl ⟨rfl, by decide⟩⟩
    ((confined_iff_of_reaches .first).mp h)
  have hlist : Decoder.short.decodeString
      [0xa4, 0x6c, 0x69, 0x73, 0x74, 0x90, 0x93, 0x02, 0xa4, 0x73, 0x74, 0x6f, 0x70, 0x90] =
        .ok ("list", [0x90, 0x93, 0x02, 0xa4, 0x73, 0x74, 0x6f, 0x70, 0x90]) := by decide
  have hstop : Decoder.short.decodeString [0xa4, 0x73, 0x74, 0x6f, 0x70, 0x90] =
      .ok ("stop", [0x90]) := by decide
  have hmsg : Decoder.short.message? [0x95, 0x00, 0x01, 0xa4, 0x6c, 0x69, 0x73, 0x74, 0x90, 0x93,
      0x02, 0xa4, 0x73, 0x74, 0x6f, 0x70, 0x90] =
        some ⟨5, some 1, "list", none, 0, [0x93, 0x02, 0xa4, 0x73, 0x74, 0x6f, 0x70, 0x90]⟩ := by
    simp [Decoder.message?, Decoder.call?, Decoder.params?, short_fixarray, short_int,
      short_uint32, hlist]
  have hnext : Decoder.short.message? [0x93, 0x02, 0xa4, 0x73, 0x74, 0x6f, 0x70, 0x90] =
      some ⟨3, none, "stop", none, 0, []⟩ := by
    simp [Decoder.message?, Decoder.call?, Decoder.params?, short_fixarray, short_int, hstop]
  have hnone := ((hguard _ hmsg).2 _ rfl).1
  rw [hnext] at hnone
  cases hnone

end Kgd
