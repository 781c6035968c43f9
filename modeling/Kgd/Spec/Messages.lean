import Kgd.Daemon.Serve
import Kgd.ForStd.MsgpackFormat

/-!
# What `Serve` reads as a message

The handlers of `Serve` read a message piece by piece and act in between.
`Decoder.message?` reads the pieces without acting; here an iteration of `Serve` is described
by it, and its pieces are related to the msgpack values in the stream.

## Key results

- `iteration_none`, `iteration_skip_error`, `iteration_skip_ok`: the outcomes of an iteration
- `Decoder.Lawful`: what is assumed of the decoder
- `Decoder.Lawful.message`: the msgpack values that a message is read from
-/

namespace Kgd

/-! ## Reading a message -/

/-- A message as far as it is read before it is handled. -/
structure Parsed where
  arrLen : Int
  /-- none for a notification -/
  msgID : Option UInt32
  method : String
  params : Option Params
  /-- the number of params elements that are still to be skipped -/
  extra : Nat
  rest : Bytes

namespace Decoder

variable (dec : Decoder)

/-- The params array up to its first element, which `dispatch` decodes for the method: the
    element, the number of elements after it, and what is left. -/
def params? (method : String) (bs : Bytes) : Option (Option Params × Nat × Bytes) :=
  match dec.decodeArrayLen bs with
  | .error _ => none
  | .ok (paramsLen, bs) =>
    if 0 < paramsLen then
      match dec.decode (Method.target (Method.ofName? method)) bs with
      | .error _ => none
      | .ok (params, rest) => some (some ⟨_, params⟩, paramsLen.toNat - 1, rest)
    else some (none, 0, bs)

/-- The method and the params. -/
def call? (arrLen : Int) (msgID : Option UInt32) (bs : Bytes) : Option Parsed :=
  match dec.decodeString bs with
  | .error _ => none
  | .ok (method, bs) =>
    (dec.params? method bs).map fun (params, extra, rest) =>
      { arrLen, msgID, method, params, extra, rest }

/-- The message that is read has the array's length and the message ID. -/
theorem call?_fields {arrLen : Int} {msgID : Option UInt32} {bs : Bytes} {p : Parsed}
    (h : dec.call? arrLen msgID bs = some p) : p.arrLen = arrLen ∧ p.msgID = msgID := by
  rw [call?] at h
  cases hmethod : dec.decodeString bs with
  | error err => simp [hmethod] at h
  | ok q =>
    simp only [hmethod] at h
    obtain ⟨q', -, rfl⟩ := Option.map_eq_some_iff.mp h
    exact ⟨rfl, rfl⟩

/-- The message at the front of the stream, if the decoder gets as far as to the handling of
    one. -/
def message? (bs : Bytes) : Option Parsed :=
  match dec.decodeArrayLen bs with
  | .error _ => none
  | .ok (arrLen, bs) =>
    if arrLen < 3 then none
    else
      match dec.decodeInt bs with
      | .error _ => none
      | .ok (msgType, bs) =>
        if msgType = 0 then
          match dec.decodeUint32 bs with
          | .error _ => none
          | .ok (msgID, bs) => dec.call? arrLen (some msgID) bs
        else if msgType = 2 then dec.call? arrLen none bs
        else none

/-- A message is read as a request with an ID, or as a notification. -/
theorem message?_eq_some {bs : Bytes} {p : Parsed} (h : dec.message? bs = some p) :
    ∃ arrLen elements, dec.decodeArrayLen bs = .ok (arrLen, elements) ∧ 3 ≤ arrLen ∧
      ((∃ bs₁ msgID bs₂, dec.decodeInt elements = .ok (0, bs₁) ∧
          dec.decodeUint32 bs₁ = .ok (msgID, bs₂) ∧ dec.call? arrLen (some msgID) bs₂ = some p) ∨
        ∃ bs₁, dec.decodeInt elements = .ok (2, bs₁) ∧ dec.call? arrLen none bs₁ = some p) := by
  rw [message?] at h
  -- an array head of three or more, then a type of 0 or 2; every other way returns early
  cases hlen : dec.decodeArrayLen bs with
  | error err => simp [hlen] at h
  | ok q =>
    obtain ⟨arrLen, elements⟩ := q
    simp only [hlen] at h
    by_cases hshort : arrLen < 3
    · simp [hshort] at h
    rw [if_neg hshort] at h
    refine ⟨arrLen, elements, rfl, by omega, ?_⟩
    cases htype : dec.decodeInt elements with
    | error err => simp [htype] at h
    | ok q =>
      obtain ⟨msgType, bs₁⟩ := q
      simp only [htype] at h
      by_cases h0 : msgType = 0
      · subst h0
        cases hid : dec.decodeUint32 bs₁ with
        | error err => simp [hid] at h
        | ok q =>
          obtain ⟨msgID, bs₂⟩ := q
          simp only [hid, if_true] at h
          exact Or.inl ⟨bs₁, msgID, bs₂, rfl, hid, h⟩
      · rw [if_neg h0] at h
        by_cases h2 : msgType = 2
        · subst h2
          rw [if_pos rfl] at h
          exact Or.inr ⟨bs₁, rfl, h⟩
        · simp [h2] at h

/-- The stream ends here. -/
def AtEnd (bs : Bytes) : Prop :=
  ∃ err, dec.decodeArrayLen bs = .error err ∧ err.atEnd = true

end Decoder

variable {ω : Type} {dec : Decoder} {b : Backend ω} {c : Conn ω} {bs : Bytes}

/-! ## Handling it -/

/-- Params that do not decode are an error, with its context. -/
theorem decodeParams_error {t : Target} {context : String} {err : DecodeError}
    {handle : t.Var → Except String (Option Sent) × Conn ω} (h : dec.decode t bs = .error err) :
    decodeParams dec t context bs handle = .error (context ++ ": " ++ err.text) := by
  rw [decodeParams, h]

/-- Params that decode are handed to the handler. -/
theorem decodeParams_ok {t : Target} {context : String} {params : t.Var} {rest : Bytes}
    {handle : t.Var → Except String (Option Sent) × Conn ω}
    (h : dec.decode t bs = .ok (params, rest)) :
    decodeParams dec t context bs handle =
      .ok { params := ⟨t, params⟩, rest, result := (handle params).1,
            conn := (handle params).2 } := by
  rw [decodeParams, h]

/-- Every branch of `dispatch` decodes one value. -/
theorem dispatch_eq (dec : Decoder) (b : Backend ω) (c : Conn ω) (method : String) (bs : Bytes) :
    ∃ context handle, dispatch dec b c method bs =
      decodeParams dec (Method.target (Method.ofName? method)) context bs handle := by
  rw [dispatch]
  cases Method.ofName? method with
  | none => exact ⟨_, _, rfl⟩
  | some m => cases m <;> exact ⟨_, _, rfl⟩

/-- Where no params can be read nothing is dispatched. -/
theorem handleParams_none {method : String} (h : dec.params? method bs = none) :
    ∃ err, handleParams dec b c method bs = ([], .error err) := by
  rw [Decoder.params?] at h
  rw [handleParams]
  cases hlen : dec.decodeArrayLen bs with
  | error err => exact ⟨_, rfl⟩
  | ok p =>
    obtain ⟨paramsLen, bs₁⟩ := p
    simp only [hlen] at h ⊢
    -- without parameters nothing is decoded that could fail
    by_cases hpos : 0 < paramsLen
    · rw [if_pos hpos] at h ⊢
      obtain ⟨context, handle, heq⟩ := dispatch_eq dec b c method bs₁
      cases hdec : dec.decode (Method.target (Method.ofName? method)) bs₁ with
      | error err =>
        rw [heq, decodeParams_error hdec]
        exact ⟨_, rfl⟩
      | ok q => simp [hdec] at h
    · simp [hpos] at h

/-- Where params are read they are dispatched, and then the extra ones skipped. -/
theorem handleParams_some {method : String} {params : Option Params} {extra : Nat} {rest : Bytes}
    (h : dec.params? method bs = some (params, extra, rest)) :
    ∃ result c', handleParams dec b c method bs =
      ([.dispatch method params rest],
        match dec.skipValues extra rest with
        | .error err => .error ("skipping extra param: " ++ err.text)
        | .ok rest' => .ok (result, rest', c')) := by
  rw [Decoder.params?] at h
  rw [handleParams]
  cases hlen : dec.decodeArrayLen bs with
  | error err => simp [hlen] at h
  | ok p =>
    obtain ⟨paramsLen, bs₁⟩ := p
    simp only [hlen] at h ⊢
    -- without elements `dispatch` is not called, and nothing is left to skip
    by_cases hpos : 0 < paramsLen
    · rw [if_pos hpos] at h ⊢
      obtain ⟨context, handle, heq⟩ := dispatch_eq dec b c method bs₁
      cases hdec : dec.decode (Method.target (Method.ofName? method)) bs₁ with
      | error err => simp [hdec] at h
      | ok q =>
        obtain ⟨v, rest₁⟩ := q
        simp only [hdec, Option.some.injEq, Prod.mk.injEq] at h
        obtain ⟨rfl, rfl, rfl⟩ := h
        rw [heq, decodeParams_ok hdec]
        exact ⟨_, _, rfl⟩
    · rw [if_neg hpos] at h ⊢
      obtain ⟨rfl, rfl, rfl⟩ : none = params ∧ 0 = extra ∧ bs₁ = rest := by simpa using h
      exact ⟨_, _, rfl⟩

/-- The response to a request. -/
def Parsed.responses (p : Parsed) (result : Except String (Option Sent)) : List Entry :=
  match p.msgID with
  | some msgID => [.response msgID result]
  | none => []

/-- The connection takes every response. -/
def Backend.Open (b : Backend ω) : Prop :=
  ∀ msgID result w, (b.encode msgID result w).1 = none

/-- A response is sent while the connection is open. -/
theorem sendResponse_of_open (hopen : b.Open) (msgID : UInt32)
    (result : Except String (Option Sent)) : ∃ c', sendResponse b c msgID result = .ok c' := by
  have hsent := hopen msgID result c.world
  rw [sendResponse]
  cases hencode : b.encode msgID result c.world with
  | mk err w =>
    rw [hencode] at hsent
    simp only at hsent
    rw [hsent]
    exact ⟨_, rfl⟩

/-- The end of an iteration that has handled a message and skipped the rest of its params. -/
def Finishes (b : Backend ω) (p : Parsed) (rest : Bytes)
    (r : List Entry × Except String (Bytes × Conn ω)) : Prop :=
  ∃ result, r.1 = .dispatch p.method p.params p.rest :: p.responses result ∧
    ((∃ err, r.2 = .error err) ∧ ¬ b.Open ∨ ∃ c', r.2 = .ok (rest, c'))

/-- A notification without a method or params is an error. -/
theorem handleNotification_none {arrLen : Int} (h : dec.call? arrLen none bs = none) :
    ∃ err, handleNotification dec b c bs = ([], .error err) := by
  rw [Decoder.call?] at h
  rw [handleNotification]
  cases hmethod : dec.decodeString bs with
  | error err => exact ⟨_, rfl⟩
  | ok q =>
    simp only [hmethod, Option.map_eq_none_iff] at h
    obtain ⟨err, heq⟩ := handleParams_none (b := b) (c := c) h
    simp only [heq]
    exact ⟨_, rfl⟩

/-- A notification with params is dispatched, and then the extra ones skipped. -/
theorem handleNotification_some {arrLen : Int} {p : Parsed}
    (h : dec.call? arrLen none bs = some p) :
    match dec.skipValues p.extra p.rest with
    | .error _ => ∃ err, handleNotification dec b c bs =
        ([.dispatch p.method p.params p.rest], .error err)
    | .ok rest => Finishes b p rest (handleNotification dec b c bs) := by
  rw [Decoder.call?] at h
  rw [handleNotification]
  cases hmethod : dec.decodeString bs with
  | error err => simp [hmethod] at h
  | ok q =>
    simp only [hmethod] at h ⊢
    obtain ⟨q', hparams, rfl⟩ := Option.map_eq_some_iff.mp h
    obtain ⟨result, c', heq⟩ := handleParams_some (b := b) (c := c) hparams
    rw [heq]
    -- the handler has run in either case
    cases hskip : dec.skipValues q'.2.1 q'.2.2 with
    | error err => exact ⟨_, rfl⟩
    | ok rest => exact ⟨result, rfl, Or.inr ⟨c', rfl⟩⟩

/-- A request without a method or params is an error. -/
theorem handleRequest_none {arrLen : Int} {msgID : UInt32} {bs₁ : Bytes}
    (hid : dec.decodeUint32 bs = .ok (msgID, bs₁))
    (h : dec.call? arrLen (some msgID) bs₁ = none) :
    ∃ err, handleRequest dec b c bs = ([], .error err) := by
  rw [Decoder.call?] at h
  rw [handleRequest, hid]
  cases hmethod : dec.decodeString bs₁ with
  | error err => exact ⟨_, by simp only [hmethod]; rfl⟩
  | ok q =>
    simp only [hmethod, Option.map_eq_none_iff] at h ⊢
    obtain ⟨err, heq⟩ := handleParams_none (b := b) (c := c) h
    simp only [heq]
    exact ⟨_, rfl⟩

/-- A request with params is dispatched, the extra ones skipped, and the response sent. -/
theorem handleRequest_some {arrLen : Int} {msgID : UInt32} {bs₁ : Bytes} {p : Parsed}
    (hid : dec.decodeUint32 bs = .ok (msgID, bs₁))
    (h : dec.call? arrLen (some msgID) bs₁ = some p) :
    match dec.skipValues p.extra p.rest with
    | .error _ => ∃ err, handleRequest dec b c bs =
        ([.dispatch p.method p.params p.rest], .error err)
    | .ok rest => Finishes b p rest (handleRequest dec b c bs) := by
  rw [Decoder.call?] at h
  rw [handleRequest, hid]
  cases hmethod : dec.decodeString bs₁ with
  | error err => simp [hmethod] at h
  | ok q =>
    simp only [hmethod] at h ⊢
    obtain ⟨q', hparams, rfl⟩ := Option.map_eq_some_iff.mp h
    obtain ⟨result, c', heq⟩ := handleParams_some (b := b) (c := c) hparams
    rw [heq]
    cases hskip : dec.skipValues q'.2.1 q'.2.2 with
    | error err => exact ⟨_, rfl⟩
    | ok rest =>
      -- the response is written after the extra params are skipped
      refine ⟨result, rfl, ?_⟩
      cases hsend : sendResponse b c' msgID result with
      | ok c'' => exact Or.inr ⟨c'', by simp [hsend, Except.map]⟩
      | error err =>
        refine Or.inl ⟨⟨err, by simp [hsend, Except.map]⟩, fun hopen => ?_⟩
        obtain ⟨c'', hok⟩ := sendResponse_of_open (c := c') hopen msgID result
        rw [hok] at hsend
        exact nomatch hsend

/-! ## Iterations of `Serve` -/

/-- Without a message `Serve` returns, and it returns nil only at the end of the stream. -/
theorem iteration_none (h : dec.message? bs = none) :
    ∃ err, iteration dec b c bs = ([.start bs], .returns err) ∧ (err = none ↔ dec.AtEnd bs) := by
  rw [Decoder.message?] at h
  rw [iteration, Decoder.AtEnd]
  cases hlen : dec.decodeArrayLen bs with
  | error err =>
    -- the only error that `Serve` turns into nil
    refine ⟨_, rfl, ?_⟩
    cases hend : err.atEnd <;> simp [hend]
  | ok q =>
    simp only [hlen] at h ⊢
    by_cases hshort : q.1 < 3
    · exact ⟨_, by rw [if_pos hshort], by simp⟩
    · rw [if_neg hshort] at h ⊢
      cases htype : dec.decodeInt q.2 with
      | error err => exact ⟨_, rfl, by simp⟩
      | ok q' =>
        simp only [htype] at h ⊢
        by_cases h0 : q'.1 = 0
        · simp only [h0, if_true] at h ⊢
          cases hid : dec.decodeUint32 q'.2 with
          | error err => exact ⟨_, by rw [handleRequest, hid]; rfl, by simp⟩
          | ok q'' =>
            simp only [hid] at h
            obtain ⟨err, heq⟩ := handleRequest_none (b := b) (c := c) hid h
            exact ⟨_, by rw [heq]; rfl, by simp⟩
        · simp only [h0, if_false] at h ⊢
          by_cases h2 : q'.1 = 2
          · simp only [h2, if_true] at h ⊢
            obtain ⟨err, heq⟩ := handleNotification_none (b := b) (c := c) h
            exact ⟨_, by rw [heq]; rfl, by simp⟩
          · simp only [h2, if_false] at h ⊢
            exact ⟨_, rfl, by simp⟩

/-- What an iteration does with a message before it looks at what the handler returned. -/
theorem iteration_some {p : Parsed} (h : dec.message? bs = some p) :
    ∃ context r, iteration dec b c bs = (.start bs :: r.1, .ofExcept context r.2) ∧
      match dec.skipValues p.extra p.rest with
      | .error _ => ∃ err, r = ([.dispatch p.method p.params p.rest], .error err)
      | .ok rest => Finishes b p rest r := by
  obtain ⟨arrLen, elements, hlen, hlong, hcall⟩ := dec.message?_eq_some h
  have hshort : ¬ arrLen < 3 := by omega
  rw [iteration]
  rcases hcall with ⟨bs₁, msgID, bs₂, htype, hid, hcall⟩ | ⟨bs₁, htype, hcall⟩
  · simp only [hlen, hshort, if_false, htype, if_true]
    exact ⟨_, _, rfl, handleRequest_some hid hcall⟩
  · have h0 : ¬ (2 : Int) = 0 := by decide
    simp only [hlen, hshort, if_false, htype, h0, if_true]
    exact ⟨_, _, rfl, handleNotification_some hcall⟩

/-- Extra params that cannot be skipped end `Serve` without a response. -/
theorem iteration_skip_error {p : Parsed} {err : DecodeError} (h : dec.message? bs = some p)
    (hskip : dec.skipValues p.extra p.rest = .error err) :
    ∃ text, iteration dec b c bs =
      ([.start bs, .dispatch p.method p.params p.rest], .returns (some text)) := by
  obtain ⟨context, r, heq, hr⟩ := iteration_some (b := b) (c := c) h
  rw [hskip] at hr
  obtain ⟨text, rfl⟩ := hr
  exact ⟨_, heq⟩

/-- A message that is read to its end is dispatched and answered, and `Serve` goes on behind
    it, unless the response cannot be written. -/
theorem iteration_skip_ok {p : Parsed} {rest : Bytes} (h : dec.message? bs = some p)
    (hskip : dec.skipValues p.extra p.rest = .ok rest) :
    ∃ result, (iteration dec b c bs).1 =
        .start bs :: .dispatch p.method p.params p.rest :: p.responses result ∧
      ((∃ text, (iteration dec b c bs).2 = .returns (some text)) ∧ ¬ b.Open ∨
        ∃ c', (iteration dec b c bs).2 = .continues rest c') := by
  obtain ⟨context, r, heq, hr⟩ := iteration_some (b := b) (c := c) h
  rw [hskip] at hr
  obtain ⟨result, hlog, hend⟩ := hr
  rw [heq]
  refine ⟨result, by rw [hlog], ?_⟩
  -- the response could not be sent, or the loop goes on
  cases hend with
  | inl herror =>
    obtain ⟨⟨err, herr⟩, hopen⟩ := herror
    exact Or.inl ⟨⟨_, by rw [herr]; rfl⟩, hopen⟩
  | inr hok =>
    obtain ⟨c', hc'⟩ := hok
    exact Or.inr ⟨c', by rw [hc']; rfl⟩

/-- An iteration that returns ends `Serve`. -/
theorem serve_returns {log : List Entry} {err : Option String}
    (h : iteration dec b c bs = (log, .returns err)) (fuel : Nat) :
    serve dec b (fuel + 1) c bs = (log, some err) := by
  rw [serve, h]

/-- An iteration that goes on is followed by the rest of the stream. -/
theorem serve_continues {log : List Entry} {rest : Bytes} {c' : Conn ω}
    (h : iteration dec b c bs = (log, .continues rest c')) (fuel : Nat) :
    serve dec b (fuel + 1) c bs =
      (log ++ (serve dec b fuel c' rest).1, (serve dec b fuel c' rest).2) := by
  rw [serve, h]

/-! ## The values it is read from -/

/-- A decoder call that reads one value, whatever follows it. -/
structure ReadsValue {α : Type} (read : Bytes → Except DecodeError (α × Bytes)) : Prop where
  skip : ∀ {bs a rest}, read bs = .ok (a, rest) → Msgpack.format.skip 1 bs = some rest
  append : ∀ {bs a rest} (more), read bs = .ok (a, rest) → read (bs ++ more) = .ok (a, rest ++ more)

/-- A decoder call that reads the head of an array and returns the number of its elements. It
    reads nil as an array without elements, of the length -1. -/
structure ReadsArrayLen (read : Bytes → Except DecodeError (Int × Bytes)) : Prop where
  item : ∀ {bs n rest}, read bs = .ok (n, rest) →
    Msgpack.format.item bs = some (n.toNat, rest)
  append : ∀ {bs n rest} (more), read bs = .ok (n, rest) → read (bs ++ more) = .ok (n, rest ++ more)

/-- Every call of the decoder reads exactly one value, or the head of one array, or fails. -/
structure Decoder.Lawful (dec : Decoder) : Prop where
  decodeArrayLen : ReadsArrayLen dec.decodeArrayLen
  decodeInt : ReadsValue dec.decodeInt
  decodeUint32 : ReadsValue dec.decodeUint32
  decodeString : ReadsValue dec.decodeString
  decode : ∀ t, ReadsValue (dec.decode t)

open Msgpack (format)

/-- The number of elements before the params: the type, the msgid and the method. -/
def Parsed.fields (p : Parsed) : Nat := if p.msgID.isSome then 3 else 2

namespace Decoder.Lawful

/-- What a lawful decoder skips are values. -/
theorem skipValues (law : dec.Lawful) {n : Nat} {rest : Bytes}
    (h : dec.skipValues n bs = .ok rest) : format.skip n bs = some rest := by
  induction n generalizing bs with
  | zero => rw [PrefixNotation.skip_zero, Except.ok.inj h]
  | succ n ih =>
    rw [Decoder.skipValues] at h
    cases hdec : dec.decode .ignored bs with
    | error err => simp [hdec] at h
    | ok q =>
      simp only [hdec] at h
      -- a parameter that is ignored is skipped as one value
      rw [Nat.add_comm, PrefixNotation.skip_add, (law.decode .ignored).skip hdec]
      exact ih h

/-- What is read of params is of the one value that the params array is. -/
theorem params (law : dec.Lawful) {method : String} {params : Option Params} {extra : Nat}
    {rest : Bytes} (h : dec.params? method bs = some (params, extra, rest)) :
    rest.length < bs.length ∧ format.skip 1 bs = format.skip extra rest := by
  rw [Decoder.params?] at h
  cases hlen : dec.decodeArrayLen bs with
  | error err => simp [hlen] at h
  | ok q =>
    obtain ⟨paramsLen, bs₁⟩ := q
    have hitem := law.decodeArrayLen.item hlen
    have hlt := format.length_item_lt hitem
    simp only [hlen] at h
    rw [format.skip_of_item hitem 0]
    -- the handler reads one element of the params; the others are what `extra` counts
    by_cases hpos : 0 < paramsLen
    · rw [if_pos hpos] at h
      cases hdec : dec.decode (Method.target (Method.ofName? method)) bs₁ with
      | error err => simp [hdec] at h
      | ok q =>
        simp only [hdec, Option.some.injEq, Prod.mk.injEq] at h
        obtain ⟨-, rfl, rfl⟩ := h
        have hskip := (law.decode _).skip hdec
        have hlt' := format.length_skip_lt hskip
        refine ⟨by omega, ?_⟩
        rw [show paramsLen.toNat + 0 = 1 + (paramsLen.toNat - 1) by omega,
          PrefixNotation.skip_add, hskip, Option.bind_some]
    · rw [if_neg hpos] at h
      obtain ⟨-, rfl, rfl⟩ : none = params ∧ 0 = extra ∧ bs₁ = rest := by simpa using h
      rw [show paramsLen.toNat + 0 = 0 by omega]
      exact ⟨hlt, rfl⟩

/-- What is read of a call are its method and its params. -/
theorem call (law : dec.Lawful) {arrLen : Int} {msgID : Option UInt32} {p : Parsed}
    (h : dec.call? arrLen msgID bs = some p) :
    ∃ before, format.skip 1 bs = some before ∧
      p.rest.length < before.length ∧ format.skip 1 before = format.skip p.extra p.rest := by
  rw [Decoder.call?] at h
  cases hmethod : dec.decodeString bs with
  | error err => simp [hmethod] at h
  | ok q =>
    simp only [hmethod] at h
    obtain ⟨q', hparams, rfl⟩ := Option.map_eq_some_iff.mp h
    exact ⟨q.2, law.decodeString.skip hmethod, law.params hparams⟩

/-- A message is read from the head of an array, the elements before the params, and a value
    for the params of which the extra elements are left. -/
theorem message (law : dec.Lawful) {p : Parsed} (h : dec.message? bs = some p) :
    ∃ elements before, format.item bs = some (p.arrLen.toNat, elements) ∧ 3 ≤ p.arrLen ∧
      format.skip p.fields elements = some before ∧ p.rest.length < before.length ∧
      format.skip 1 before = format.skip p.extra p.rest := by
  obtain ⟨arrLen, elements, hlen, hlong, hcall⟩ := dec.message?_eq_some h
  have hitem := law.decodeArrayLen.item hlen
  rcases hcall with ⟨bs₁, msgID, bs₂, htype, hid, hcall⟩ | ⟨bs₁, htype, hcall⟩
  · -- the type, the msgid and the method
    obtain ⟨rfl, hmsgID⟩ := call?_fields dec hcall
    obtain ⟨before, hbefore, hrest⟩ := law.call hcall
    have hfields : format.skip p.fields elements = some before := by
      rw [Parsed.fields, hmsgID]
      show format.skip (1 + (1 + 1)) elements = some before
      rw [PrefixNotation.skip_add, law.decodeInt.skip htype, Option.bind_some,
        PrefixNotation.skip_add, law.decodeUint32.skip hid, Option.bind_some, hbefore]
    exact ⟨elements, before, hitem, hlong, hfields, hrest⟩
  · -- the type and the method
    obtain ⟨rfl, hmsgID⟩ := call?_fields dec hcall
    obtain ⟨before, hbefore, hrest⟩ := law.call hcall
    have hfields : format.skip p.fields elements = some before := by
      rw [Parsed.fields, hmsgID]
      show format.skip (1 + 1) elements = some before
      rw [PrefixNotation.skip_add, law.decodeInt.skip htype, Option.bind_some, hbefore]
    exact ⟨elements, before, hitem, hlong, hfields, hrest⟩

end Decoder.Lawful

/-! ## A decoder and a connection -/

namespace Decoder

/-- A call that reads a code, as many bytes as the code says, and makes a value of them. -/
def onCode {α : Type} (read : UInt8 → Option (Nat × (Bytes → α))) :
    Bytes → Except DecodeError (α × Bytes)
  | [] => .error ⟨"EOF", true⟩
  | code :: rest =>
    match read code with
    | some (n, value) =>
      if n ≤ rest.length then .ok (value (rest.take n), rest.drop n)
      else .error ⟨"unexpected EOF", false⟩
    | none => .error ⟨"msgpack: invalid code", false⟩

/-- A decoder for arrays of up to 15 elements, integers from 0 to 127 and strings of up to 31
    characters; what is ignored may also be nil. -/
def short : Decoder where
  decodeArrayLen := onCode fun code =>
    if code = 0xc0 then some (0, fun _ => -1)
    else if 0x90 ≤ code.toNat ∧ code.toNat < 0xa0 then some (0, fun _ => (code.toNat - 0x90 : Nat))
    else none
  decodeInt := onCode fun code =>
    if code.toNat < 0x80 then some (0, fun _ => code.toNat) else none
  decodeUint32 := onCode fun code =>
    if code.toNat < 0x80 then some (0, fun _ => UInt32.ofNat code.toNat) else none
  decodeString := onCode fun code =>
    if 0xa0 ≤ code.toNat ∧ code.toNat < 0xc0 then
      some (code.toNat - 0xa0, fun s => String.ofList (s.map fun b => Char.ofNat b.toNat))
    else none
  decode
    | .ignored => onCode fun code =>
      if code.toNat < 0x80 ∨ code = 0xc0 then some (0, fun _ => ()) else none
    | _ => onCode fun _ => none

/-- What is read after a code is read of as many bytes as it asks for. -/
theorem onCode_ok {α : Type} {read : UInt8 → Option (Nat × (Bytes → α))} {a : α} {rest : Bytes}
    (h : onCode read bs = .ok (a, rest)) :
    ∃ code tail n value, bs = code :: tail ∧ read code = some (n, value) ∧ n ≤ tail.length ∧
      a = value (tail.take n) ∧ rest = tail.drop n := by
  cases bs with
  | nil => exact nomatch h
  | cons code tail =>
    rw [onCode] at h
    cases hread : read code with
    | none => simp [hread] at h
    | some r =>
      obtain ⟨n, value⟩ := r
      simp only [hread] at h
      split at h
      -- enough bytes follow the code
      · rename_i hle
        simp only [Except.ok.injEq, Prod.mk.injEq] at h
        exact ⟨code, tail, n, value, rfl, hread, hle, h.1.symm, h.2.symm⟩
      · exact nomatch h

/-- What is read after a code is read whatever follows. -/
theorem onCode_append {α : Type} {read : UInt8 → Option (Nat × (Bytes → α))} {a : α} {rest : Bytes}
    (more : Bytes) (h : onCode read bs = .ok (a, rest)) :
    onCode read (bs ++ more) = .ok (a, rest ++ more) := by
  obtain ⟨code, tail, n, value, rfl, hread, hle, rfl, rfl⟩ := onCode_ok h
  have hlen : n ≤ (tail ++ more).length := by rw [List.length_append]; omega
  simp only [List.cons_append, onCode, hread, hlen, if_true]
  rw [List.take_append_of_le_length hle, List.drop_append_of_le_length hle]

/-- What is read after a code with a fixed shape is one value. -/
theorem readsValue_onCode {α : Type} {read : UInt8 → Option (Nat × (Bytes → α))}
    (hread : ∀ code n value, read code = some (n, value) → Msgpack.shape code = .fixed n 0) :
    ReadsValue (onCode read) where
  skip h := by
    obtain ⟨code, tail, n, value, rfl, hcode, hle, -, rfl⟩ := onCode_ok h
    exact Msgpack.skip_of_shape (hread code n value hcode) hle
  append := onCode_append

/-- The small decoder follows the laws of the library. -/
theorem short_lawful : short.Lawful where
  decodeArrayLen := by
    refine ⟨fun {bs len rest} h => ?_, onCode_append⟩
    obtain ⟨code, tail, n, value, rfl, hcode, hle, rfl, rfl⟩ := onCode_ok h
    -- a nil reads as an array of length -1 and takes one byte
    by_cases hnil : code = 0xc0
    · obtain ⟨rfl, rfl⟩ := Prod.mk.inj (Option.some.inj ((if_pos hnil).symm.trans hcode))
      rw [hnil]
      exact Msgpack.item_of_shape Msgpack.shape_nil (Nat.zero_le _)
    · rw [if_neg hnil] at hcode
      split at hcode
      · rename_i harray
        obtain ⟨rfl, rfl⟩ := Prod.mk.inj (Option.some.inj hcode)
        exact Msgpack.item_of_shape (Msgpack.shape_fixarray harray.1 harray.2) (Nat.zero_le _)
      · exact nomatch hcode
  decodeInt := by
    refine readsValue_onCode fun code n value hcode => ?_
    split at hcode
    · obtain ⟨rfl, -⟩ := Prod.mk.inj (Option.some.inj hcode)
      exact Msgpack.shape_fixint ‹_›
    · exact nomatch hcode
  decodeUint32 := by
    refine readsValue_onCode fun code n value hcode => ?_
    split at hcode
    · obtain ⟨rfl, -⟩ := Prod.mk.inj (Option.some.inj hcode)
      exact Msgpack.shape_fixint ‹_›
    · exact nomatch hcode
  decodeString := by
    refine readsValue_onCode fun code n value hcode => ?_
    split at hcode
    · rename_i hstr
      obtain ⟨rfl, -⟩ := Prod.mk.inj (Option.some.inj hcode)
      exact Msgpack.shape_fixstr hstr.1 hstr.2
    · exact nomatch hcode
  decode t := by
    cases t with
    | ignored =>
      refine readsValue_onCode fun code n value hcode => ?_
      split at hcode
      · rename_i hignored
        obtain ⟨rfl, -⟩ := Prod.mk.inj (Option.some.inj hcode)
        cases hignored with
        | inl hint => exact Msgpack.shape_fixint hint
        | inr hnil => exact hnil ▸ Msgpack.shape_nil
      · exact nomatch hcode
    -- this decoder refuses every record
    | hello | upload | place | unplace | free | registerWin | updateScroll | unregisterWin =>
      show ReadsValue (onCode fun _ => none)
      exact readsValue_onCode fun _ _ _ hcode => nomatch hcode

end Decoder

/-- A daemon whose engine has stopped. -/
def Backend.stopped : Backend Unit where
  sendAndWait _ _ w := (.error "engine stopped", w)
  sendEvent _ w := (some "engine stopped", w)
  server := false
  registerSession _ clientID w := (clientID, w)
  updateClientID _ _ w := w
  encode _ _ w := (none, w)

/-- A connection before its first message. -/
def Conn.unary : Conn Unit := { ID := "u", stateless := false, sessionID := "", world := () }

end Kgd
