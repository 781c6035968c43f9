import Kgd.Client.CMessages
import Kgd.Spec.MpackReader

/-!
# Messages the C client acts on

A message should be acted on only if it is well-formed: a callback gets what its notification's
parameters decode to, and a call gets the error flag or the result of its response.
`process_message` does not look at the error of its reader before it calls back or completes a
slot.

## Key results

- `CClient.processMessage_notification`, `CClient.processMessage_response`,
  `CClient.processMessage_other`: what is done with a message
- `CClient.processMessage_next`: what it is to the calls
- `CClient.readErrorMap_left_iff`: when the loop over an error map leaves the function
- `CClient.wellBehaved_iff`: the messages that are handled as they should be
-/

namespace Kgd

namespace CClient

open Mpack Msgpack

/-! ## Well-formed messages -/

/-- An array of so many elements that starts with the type; `buf` follows. -/
def HasType (data : List UInt8) (n : Nat) (type : Int32) (buf : List UInt8) : Prop :=
  3 ≤ n ∧ ∃ buf', (expectArrayMax 8).parse data = .ok (n, buf') ∧
    expectInt.parse buf' = .ok (type, buf)

/-- A notification with a first parameter, at `buf`, and others. -/
def IsNotification (data : List UInt8) (kind : Kind) (remaining : Nat) (buf : List UInt8) :
    Prop :=
  ∃ n buf₁ method buf₂, HasType data n 2 buf₁ ∧ (expectCstr 64).parse buf₁ = .ok (method, buf₂) ∧
    method.bytes = utf8 kind.method ∧
    (expectArrayMax 16).parse buf₂ = .ok (remaining + 1, buf)

/-- A response to a request; the error field is at `buf`, if there is one. -/
def IsResponse (data : List UInt8) (n : Nat) (msgid : UInt32) (buf : List UInt8) : Prop :=
  ∃ buf₁, HasType data n 1 buf₁ ∧ expectU32.parse buf₁ = .ok (msgid, buf)

/-- An error field and a result, each one whole value. -/
structure HasFields (n : Nat) (buf err result : List UInt8) : Prop where
  four : 4 ≤ n
  errWhole : Mpack.format.IsValue err
  resultWhole : Mpack.format.IsValue result
  bytes : ∃ tail, buf = err ++ (result ++ tail)

/-- The color has the channels as they were read. -/
def Channels.Is (c : Channels) (color : Color) : Prop :=
  c.r.toInt = color.r.toNat ∧ c.g.toInt = color.g.toNat ∧ c.b.toInt = color.b.toNat

/-- The arguments are the decoded fields. -/
def Params.PassedTo : Params → CallbackCall → Prop
  | .evicted handle, .evicted handle' => handle' = handle
  | .topology cols rows cw ch, .topology cols' rows' cw' ch' =>
    cols' = cols ∧ rows' = rows ∧ cw' = cw ∧ ch' = ch
  | .visibility pid visible, .visibility pid' visible' => pid' = pid ∧ visible' = visible
  | .theme fg bg, .theme fg' bg' => fg.Is fg' ∧ bg.Is bg'
  | _, _ => False

/-- The error flag, or exactly the bytes of the result. -/
def PendingEntry.complete (e : PendingEntry) (err result : List UInt8) : PendingEntry :=
  if err = [0xc0] then
    { e with hasError := false, done := true, data := some result, len := result.length }
  else { e with hasError := true, done := true }

/-- A message is acted on only if it is well-formed. -/
inductive WellBehaved (cbs : Callbacks) (pending : Fin maxPending → PendingEntry)
    (data : List UInt8) (o : Outcome) : Prop
  /-- the callback of a notification whose parameters are read without an error -/
  | notified {kind remaining buf params rest call} :
    IsNotification data kind remaining buf → cbs kind = true →
    (kind.readParams remaining).parse buf = .ok (params, rest) → params.PassedTo call →
    o.calls = [call] → o.pending = pending → o.signaled = none → WellBehaved cbs pending data o
  /-- the slot of a response that has its fields -/
  | completed {n msgid buf err result} :
    IsResponse data n msgid buf → HasFields n buf err result →
    (pending (slot msgid)).active = true →
    o.pending = Function.update pending (slot msgid)
      ((pending (slot msgid)).complete err result) →
    o.signaled = some (slot msgid) → o.calls = [] → WellBehaved cbs pending data o
  | nothing : o.pending = pending → o.signaled = none → o.calls = [] →
    WellBehaved cbs pending data o

/-! ## What is done with a message -/

section

variable {data buf buf' : List UInt8} {n n' : Nat} {type type' : Int32} {kind kind' : Kind}
  {remaining remaining' : Nat} {msgid msgid' : UInt32}

/-- A message has one type. -/
theorem HasType.unique (h : HasType data n type buf) (h' : HasType data n' type' buf') :
    n = n' ∧ type = type' ∧ buf = buf' := by
  obtain ⟨-, b, harr, htype⟩ := h
  obtain ⟨-, b', harr', htype'⟩ := h'
  obtain ⟨rfl, rfl⟩ := Prod.mk.inj (Except.ok.inj (harr.symm.trans harr'))
  obtain ⟨rfl, rfl⟩ := Prod.mk.inj (Except.ok.inj (htype.symm.trans htype'))
  exact ⟨rfl, rfl, rfl⟩

/-- A response has one message ID. -/
theorem IsResponse.unique (h : IsResponse data n msgid buf) (h' : IsResponse data n' msgid' buf') :
    n = n' ∧ msgid = msgid' ∧ buf = buf' := by
  obtain ⟨b, htype, hid⟩ := h
  obtain ⟨b', htype', hid'⟩ := h'
  obtain ⟨rfl, -, rfl⟩ := htype.unique htype'
  obtain ⟨rfl, rfl⟩ := Prod.mk.inj (Except.ok.inj (hid.symm.trans hid'))
  exact ⟨rfl, rfl, rfl⟩

/-- The kinds of notifications are known from their methods. -/
theorem method_inj (h : utf8 kind.method = utf8 kind'.method) : kind = kind' := by
  revert h
  cases kind <;> cases kind' <;> decide

/-- A notification has one kind. -/
theorem IsNotification.unique (h : IsNotification data kind remaining buf)
    (h' : IsNotification data kind' remaining' buf') :
    kind = kind' ∧ remaining = remaining' ∧ buf = buf' := by
  obtain ⟨n, b₁, method, b₂, htype, hmethod, hkind, harr⟩ := h
  obtain ⟨n', b₁', method', b₂', htype', hmethod', hkind', harr'⟩ := h'
  obtain ⟨rfl, -, rfl⟩ := htype.unique htype'
  obtain ⟨rfl, rfl⟩ := Prod.mk.inj (Except.ok.inj (hmethod.symm.trans hmethod'))
  obtain ⟨heq, rfl⟩ := Prod.mk.inj (Except.ok.inj (harr.symm.trans harr'))
  exact ⟨method_inj (hkind.symm.trans hkind'), Nat.succ.inj heq, rfl⟩

/-- A notification is no response. -/
theorem IsNotification.not_response (h : IsNotification data kind remaining buf) :
    ¬ IsResponse data n msgid buf' := by
  intro h'
  obtain ⟨n', b₁, method, b₂, htype, -⟩ := h
  obtain ⟨b, htype', -⟩ := h'
  have htwo := (htype.unique htype').2.1
  exact absurd htwo (by decide)

variable (pending : Fin maxPending → PendingEntry) (copied : Bool) {cbs : Callbacks}

/-- A message with a type is handled by its type. -/
theorem processMessage_of_type (h : HasType data n type buf) :
    processMessage pending cbs copied data =
      if type = 1 then
        match expectU32.parse buf with
        | .error _ => .nothing pending
        | .ok (msgid, buf) => processResponse pending copied msgid buf
      else if type = 2 then processNotification pending cbs buf
      else .nothing pending := by
  obtain ⟨hn, b, harr, htype⟩ := h
  simp only [processMessage, harr, htype]
  exact if_neg (by omega)

/-- A message without a type changes nothing. -/
theorem processMessage_of_no_type (h : ∀ n type buf, ¬ HasType data n type buf) :
    processMessage pending cbs copied data = .nothing pending := by
  rw [processMessage]
  split
  · rfl
  · rename_i n b harr
    split
    · rfl
    · rename_i hn
      split
      · rfl
      -- past all the early returns the message has a type
      · rename_i type b' htype
        exact absurd ⟨by omega, b, harr, htype⟩ (h n type b')

/-- A response goes to its slot. -/
theorem processMessage_response (h : IsResponse data n msgid buf) :
    processMessage pending cbs copied data = processResponse pending copied msgid buf := by
  obtain ⟨b, htype, hid⟩ := h
  rw [processMessage_of_type pending copied htype, if_pos rfl, hid]

/-- The comparisons find the kind, in whatever order they are made. -/
theorem find_kind {method : List UInt8} (hmethod : method = utf8 kind.method)
    (hcb : cbs kind = true) :
    [Kind.evicted, .topology, .visibility, .theme].find? (fun kind =>
      decide (method = utf8 kind.method) && cbs kind) = some kind := by
  have hkind : (decide (method = utf8 kind.method) && cbs kind) = true := by
    rw [decide_eq_true hmethod, hcb, Bool.and_self]
  -- the search is over all kinds, and their methods differ
  have hmem : kind ∈ [Kind.evicted, .topology, .visibility, .theme] := by
    cases kind <;> decide
  cases hfind : [Kind.evicted, .topology, .visibility, .theme].find? fun kind =>
      decide (method = utf8 kind.method) && cbs kind with
  | none => exact absurd hkind (List.find?_eq_none.mp hfind kind hmem)
  | some kind' =>
    have hkind' := List.find?_some hfind
    rw [Bool.and_eq_true, decide_eq_true_iff] at hkind'
    rw [method_inj (hkind'.1.symm.trans hmethod)]

/-- The callback is called with whatever has been read. -/
theorem processMessage_notification (h : IsNotification data kind remaining buf)
    (hcb : cbs kind = true) :
    processMessage pending cbs copied data =
      ⟨pending, none, [((kind.readParams remaining).run (some buf)).1.call], none⟩ := by
  obtain ⟨n, b₁, method, b₂, htype, hmethod, hkind, harr⟩ := h
  rw [processMessage_of_type pending copied htype, if_neg (by decide), if_pos rfl]
  simp only [processNotification, hmethod, harr, find_kind hkind hcb]

/-- What is neither a response nor a notification with a callback changes nothing. -/
theorem processMessage_other
    (hn : ∀ kind remaining buf, IsNotification data kind remaining buf → ¬ cbs kind = true)
    (hr : ∀ n msgid buf, ¬ IsResponse data n msgid buf) :
    processMessage pending cbs copied data = .nothing pending := by
  by_cases htyped : ∃ n type buf, HasType data n type buf
  · obtain ⟨n, type, b, htype⟩ := htyped
    rw [processMessage_of_type pending copied htype]
    split
    · rename_i hone
      subst hone
      split
      · rfl
      · rename_i msgid b' hid
        exact absurd ⟨b, htype, hid⟩ (hr n msgid b')
    · split
      · rename_i htwo
        subst htwo
        -- a method none of the kinds has, or one nobody registered for
        rw [processNotification]
        split
        · rfl
        · rename_i method b' hmethod
          split
          · rfl
          · rfl
          · rename_i remaining b'' harr
            split
            · rename_i kind hfind
              have hkind := List.find?_some hfind
              rw [Bool.and_eq_true, decide_eq_true_iff] at hkind
              exact absurd hkind.2
                (hn kind remaining b'' ⟨n, b, method, b', htype, hmethod, hkind.1, harr⟩)
            · rfl
      · rfl
  · exact processMessage_of_no_type pending copied fun n type b h => htyped ⟨n, type, b, h⟩

end

/-! ## Leaving an error map -/

/-- The value of a key in an error map: a text that fits, or any value. -/
def errorValue (key : CString 32) : ByteReader Unit Unit :=
  if key.bytes = utf8 "message" then do
    let _ ← (expectCstr 256).parse
    return
  else discard.parse

/-- Among the next entries of an error map there is one whose key is not a short string, and
    everything before it is read. -/
inductive HasBadKey : Nat → List UInt8 → Prop
  | here {n buf} : (∀ r, (expectCstr 32).parse buf ≠ .ok r) → HasBadKey (n + 1) buf
  | later {n buf key rest rest'} : (expectCstr 32).parse buf = .ok (key, rest) →
    ByteReader.leftover (errorValue key rest) = some rest' → HasBadKey n rest' →
    HasBadKey (n + 1) buf

/-- The error field is a map with such a key. -/
def IsBadError (buf : List UInt8) : Prop :=
  ∃ ecount rest, parseTag buf = .ok (.map ecount, rest) ∧ HasBadKey ecount rest

/-- Without a value there is no error map to read. -/
theorem readErrorMap_none (n : Nat) (msg : Option (List UInt8)) :
    readErrorMap n msg none = (msg, some none) := by
  cases n <;> rfl

/-- Past a key, the loop goes on with what follows the value. -/
theorem readErrorMap_key {buf rest : List UInt8} {key : CString 32}
    (hkey : (expectCstr 32).parse buf = .ok (key, rest)) (n : Nat) (msg : Option (List UInt8)) :
    ∃ msg', readErrorMap (n + 1) msg (some buf) =
      readErrorMap n msg' (ByteReader.leftover (errorValue key rest)) := by
  rw [errorValue]
  simp only [readErrorMap, hkey]
  split
  -- the text under `message` is kept
  · cases htext : (expectCstr 256).parse rest with
    | error e =>
      rw [ByteReader.leftover_bind_of_none (by rw [htext]; rfl)]
      exact ⟨msg, rfl⟩
    | ok r =>
      refine ⟨some r.1.bytes, ?_⟩
      have hrest : ByteReader.leftover ((expectCstr 256).parse rest) = some r.2 := by
        rw [htext]
        rfl
      rw [ByteReader.leftover_bind hrest fun _ => rfl]
      rfl
  -- any other value is skipped
  · cases hskip : discard.parse rest with
    | error e =>
      rw [StickyReader.run_of_parse_error hskip]
      exact ⟨msg, rfl⟩
    | ok r =>
      rw [StickyReader.run_of_parse hskip]
      exact ⟨msg, rfl⟩

/-- The function is left in the loop exactly at such a key. -/
theorem readErrorMap_left_iff {n : Nat} {msg : Option (List UInt8)} {buf : List UInt8} :
    (readErrorMap n msg (some buf)).2 = none ↔ HasBadKey n buf := by
  induction n generalizing msg buf with
  | zero => exact iff_of_false nofun nofun
  | succ n ih =>
    cases hkey : (expectCstr 32).parse buf with
    | error e =>
      have hbad : ∀ r, (expectCstr 32).parse buf ≠ .ok r := fun r h => nomatch hkey.symm.trans h
      simp only [readErrorMap, hkey]
      exact iff_of_true trivial (.here hbad)
    | ok r =>
      obtain ⟨msg', hloop⟩ := readErrorMap_key hkey n msg
      rw [hloop]
      -- the key was read, so a bad one can only come later
      have hinv : HasBadKey (n + 1) buf → ∃ rest',
          ByteReader.leftover (errorValue r.1 r.2) = some rest' ∧ HasBadKey n rest' := by
        intro h
        cases h with
        | here hbad => exact absurd hkey (hbad r)
        | later hkey' hvalue h =>
          obtain rfl := Except.ok.inj (hkey.symm.trans hkey')
          exact ⟨_, hvalue, h⟩
      cases hvalue : ByteReader.leftover (errorValue r.1 r.2) with
      | none =>
        rw [readErrorMap_none]
        apply iff_of_false nofun
        intro h
        obtain ⟨rest', hrest, -⟩ := hinv h
        exact nomatch hvalue.symm.trans hrest
      | some rest' =>
        rw [ih]
        constructor
        · exact .later hkey hvalue
        · intro h
          obtain ⟨rest'', hrest, hbad⟩ := hinv h
          obtain rfl := Option.some.inj (hvalue.symm.trans hrest)
          exact hbad

/-! ## Responses -/

section

variable {buf : List UInt8}

/-- A tag is read by the parser of tags. -/
theorem readTag_parse : readTag.parse = parseTag := StickyReader.parse_ofParse _ _

/-- The reader is in error behind an error exactly if the error is bad. -/
theorem readError_left_iff :
    (readError (readTag.run (some buf)).1 (readTag.run (some buf)).2).2 = none ↔
      IsBadError buf := by
  cases htag : readTag.parse buf with
  | error e =>
    -- a tag that is not there reads as nil and leaves nothing
    have hnil : readTag.run (some buf) = (.nil, none) := by
      rw [readTag_parse] at htag
      simp only [readTag, StickyReader.ofParse, htag]
    rw [hnil]
    apply iff_of_false
    · exact Option.some_ne_none _
    · intro h
      obtain ⟨ecount, rest, hmap, -⟩ := h
      cases (readTag_parse ▸ htag).symm.trans hmap
  | ok r =>
    rw [StickyReader.run_of_parse htag]
    have hunique : IsBadError buf ↔ ∃ ecount, r.1 = .map ecount ∧ HasBadKey ecount r.2 := by
      rw [readTag_parse] at htag
      constructor
      · intro h
        obtain ⟨ecount, rest, hmap, hbad⟩ := h
        obtain rfl := Except.ok.inj (htag.symm.trans hmap)
        exact ⟨ecount, rfl, hbad⟩
      · intro h
        obtain ⟨ecount, hmap, hbad⟩ := h
        exact ⟨ecount, r.2, htag.trans (by rw [← hmap]), hbad⟩
    rw [hunique]
    cases hr : r.1 with
    | map ecount =>
      show (readErrorMap ecount none (some r.2)).2 = none ↔ _
      rw [readErrorMap_left_iff]
      constructor
      · intro hbad
        exact ⟨ecount, rfl, hbad⟩
      · intro h
        obtain ⟨ecount', heq, hbad⟩ := h
        rwa [Tag.map.inj heq]
    -- nothing but a map is walked
    | nil | bool | uint | int | float | double | str | bin | array =>
      apply iff_of_false
      · exact Option.some_ne_none _
      · intro h
        obtain ⟨ecount, heq, -⟩ := h
        cases heq

variable (pending : Fin maxPending → PendingEntry) (copied : Bool) {msgid : UInt32}

/-- A response with a bad error changes nothing. -/
theorem processResponse_bad (msgid : UInt32) (h : IsBadError buf) :
    ∃ msg, processResponse pending copied msgid buf = ⟨pending, none, [], msg⟩ := by
  have hleft := readError_left_iff.mpr h
  simp only [processResponse]
  split
  · exact ⟨_, rfl⟩
  · rename_i hread
    rw [hread] at hleft
    exact nomatch hleft

/-- A response to nobody changes nothing. -/
theorem processResponse_inactive (buf : List UInt8)
    (h : ¬ (pending (slot msgid)).active = true) :
    ∃ msg, processResponse pending copied msgid buf = ⟨pending, none, [], msg⟩ := by
  simp only [processResponse]
  split
  · exact ⟨_, rfl⟩
  · rw [if_neg h]
    exact ⟨_, rfl⟩

/-- The slot is completed with the reader in whatever state it is. -/
theorem processResponse_active (msgid : UInt32) (hbad : ¬ IsBadError buf)
    (h : (pending (slot msgid)).active = true) :
    ∃ msg rd, (readError (readTag.run (some buf)).1 (readTag.run (some buf)).2).2 = some rd ∧
      processResponse pending copied msgid buf =
        ⟨Function.update pending (slot msgid) ((pending (slot msgid)).receive
            ⟨msgid, (readTag.run (some buf)).1 ≠ .nil, msg, resultBytes rd⟩ copied),
          some (slot msgid), [], msg⟩ := by
  have hleft := mt readError_left_iff.mp hbad
  simp only [processResponse]
  split
  · rename_i hread
    rw [hread] at hleft
    exact absurd rfl hleft
  · rename_i msg rd hread
    rw [if_pos h]
    exact ⟨msg, rd, congrArg Prod.snd hread, rfl⟩

/-- The bytes of the result are those of one value, whatever follows. -/
theorem resultBytes_append {result : List UInt8} (h : Mpack.format.IsValue result)
    (tail : List UInt8) : resultBytes (some (result ++ tail)) = result := by
  have hskip : discard.parse (result ++ tail) = .ok ((), tail) := by
    rw [discard_parse_iff, PrefixNotation.skip_append _ tail h, List.nil_append]
  simp only [resultBytes, hskip]
  rw [List.length_append, Nat.add_sub_cancel]
  exact List.take_left

/-- The error field of a response that has its fields is read. -/
theorem readTag_error {n : Nat} {err result : List UInt8} (h : HasFields n buf err result) :
    ∃ tag rest, readTag.run (some buf) = (tag, some rest) ∧ (tag = .nil ↔ err = [0xc0]) ∧
      parseTag buf = .ok (tag, rest) := by
  obtain ⟨tail, rfl⟩ := h.bytes
  obtain ⟨tag, rest, htag⟩ := exists_parseTag (PrefixNotation.skip_append _ (result ++ tail)
    h.errWhole)
  have hrun := StickyReader.run_of_parse (readTag_parse ▸ htag : readTag.parse _ = _)
  exact ⟨tag, rest, hrun, parseTag_value h.errWhole htag, htag⟩

/-- Past nil, exactly the result is measured. -/
theorem resultBytes_of_nil {n : Nat} {result : List UInt8} (h : HasFields n buf [0xc0] result)
    {rd : Option (List UInt8)}
    (hrd : (readError (readTag.run (some buf)).1 (readTag.run (some buf)).2).2 = some rd) :
    resultBytes rd = result := by
  obtain ⟨tag, rest, hrun, hnil, htag⟩ := readTag_error h
  obtain rfl := hnil.mpr rfl
  obtain ⟨tail, rfl⟩ := h.bytes
  rw [List.singleton_append, parseTag_nil] at htag
  obtain ⟨-, rfl⟩ := Prod.mk.inj (Except.ok.inj htag)
  rw [hrun] at hrd
  obtain rfl : some (result ++ tail) = rd := Option.some.inj hrd
  exact resultBytes_append h.resultWhole tail

/-- What is recorded of a response that has its fields. -/
theorem receive_complete {n : Nat} {err result : List UInt8} (h : HasFields n buf err result)
    {rd : Option (List UInt8)} (e : PendingEntry) (msg : Option (List UInt8))
    (hrd : (readError (readTag.run (some buf)).1 (readTag.run (some buf)).2).2 = some rd) :
    e.receive ⟨msgid, (readTag.run (some buf)).1 ≠ .nil, msg, resultBytes rd⟩ copied =
      e.complete err result ↔ (err = [0xc0] → copied = true) := by
  obtain ⟨tag, rest, hrun, hnil, -⟩ := readTag_error h
  by_cases herr : err = [0xc0]
  · subst herr
    -- a value has a byte at least, so the result is copied when there is no error
    have hpos : 0 < result.length :=
      List.length_pos_of_ne_nil (PrefixNotation.ne_nil_of_isValue h.resultWhole)
    rw [resultBytes_of_nil h hrd, hrun, hnil.mpr rfl]
    cases copied <;> simp [PendingEntry.receive, PendingEntry.complete, hpos]
  · have hne : tag ≠ .nil := mt hnil.mp herr
    rw [hrun]
    simp [PendingEntry.receive, PendingEntry.complete, hne, herr]

/-- A message is, to the calls, one response that is received, or nothing at all. -/
theorem processMessage_next (s : State) (hs : s.reader = .reading) (cbs : Callbacks)
    (data : List UInt8) :
    (processMessage s.pending cbs copied data).pending = s.pending ∨
      ∃ r, s.next (.receive r copied) =
        some { s with pending := (processMessage s.pending cbs copied data).pending } := by
  by_cases hr : ∃ n msgid buf, IsResponse data n msgid buf
  · obtain ⟨n, msgid, buf, hresp⟩ := hr
    rw [processMessage_response s.pending copied hresp]
    -- a bad error map is reported and completes nobody
    by_cases hbad : IsBadError buf
    · obtain ⟨msg, hrun⟩ := processResponse_bad s.pending copied msgid hbad
      exact .inl (by rw [hrun])
    by_cases hactive : (s.pending (slot msgid)).active = true
    · obtain ⟨msg, rd, -, hrun⟩ := processResponse_active s.pending copied msgid hbad hactive
      refine .inr ⟨⟨msgid, (readTag.run (some buf)).1 ≠ .nil, msg, resultBytes rd⟩, ?_⟩
      rw [hrun]
      simp only [State.next, hs, if_pos hactive, State.setPending]
    · obtain ⟨msg, hrun⟩ := processResponse_inactive s.pending copied buf hactive
      exact .inl (by rw [hrun])
  · by_cases hn : ∃ kind remaining buf, IsNotification data kind remaining buf ∧ cbs kind = true
    · obtain ⟨kind, remaining, buf, hnot, hcb⟩ := hn
      exact .inl (by rw [processMessage_notification s.pending copied hnot hcb])
    · exact .inl (by
        rw [processMessage_other s.pending copied
          (fun kind remaining buf h hcb => hn ⟨kind, remaining, buf, h, hcb⟩)
          (fun n msgid buf h => hr ⟨n, msgid, buf, h⟩)]
        rfl)

end

/-! ## Colors -/

/-- The channels fit `uint16_t`. -/
def Channels.InRange (c : Channels) : Prop :=
  (0 ≤ c.r.toInt ∧ c.r.toInt < 65536) ∧ (0 ≤ c.g.toInt ∧ c.g.toInt < 65536) ∧
    (0 ≤ c.b.toInt ∧ c.b.toInt < 65536)

/-- Of the parameters, only the channels of colors are cast. -/
def Params.InRange : Params → Prop
  | .theme fg bg => fg.InRange ∧ bg.InRange
  | _ => True

/-- A channel is kept by the cast exactly if it has 16 bits. -/
theorem channel_eq_iff (c : Int32) :
    c.toInt = c.toUInt32.toUInt16.toNat ↔ 0 ≤ c.toInt ∧ c.toInt < 65536 := by
  have hcast : c.toUInt32.toUInt16.toNat = c.toBitVec.toNat % 65536 :=
    UInt32.toNat_toUInt16 c.toUInt32
  have hint : c.toInt = if 2 * c.toBitVec.toNat < 2 ^ 32 then (c.toBitVec.toNat : Int)
      else c.toBitVec.toNat - 2 ^ 32 := BitVec.toInt_eq_toNat_cond c.toBitVec
  have hlt := c.toBitVec.isLt
  rw [hcast]
  split at hint <;> omega

/-- The callback is called with the params exactly if they are in range. -/
theorem passedTo_call_iff (params : Params) : params.PassedTo params.call ↔ params.InRange := by
  cases params with
  | evicted => exact iff_of_true rfl trivial
  | topology => exact iff_of_true ⟨rfl, rfl, rfl, rfl⟩ trivial
  | visibility => exact iff_of_true ⟨rfl, rfl⟩ trivial
  | theme fg bg =>
    have hcolor : ∀ c : Channels, c.Is c.color ↔ c.InRange := fun c =>
      and_congr (channel_eq_iff c.r) (and_congr (channel_eq_iff c.g) (channel_eq_iff c.b))
    exact and_congr (hcolor fg) (hcolor bg)

/-! ## The messages that are handled as they should be -/

/-- The parameters of a notification that there is a callback for are read without an error, and
    its colors lose nothing in the cast. -/
def ParamsDecode (cbs : Callbacks) (data : List UInt8) : Prop :=
  ∀ kind remaining buf, IsNotification data kind remaining buf → cbs kind = true →
    ∃ params rest, (kind.readParams remaining).parse buf = .ok (params, rest) ∧ params.InRange

/-- A response to a pending call is left because of a bad key in its error, or it has both fields
    and a result is copied. -/
def ResponseDecodes (pending : Fin maxPending → PendingEntry) (copied : Bool)
    (data : List UInt8) : Prop :=
  ∀ n msgid buf, IsResponse data n msgid buf → (pending (slot msgid)).active = true →
    IsBadError buf ∨ ∃ err result, HasFields n buf err result ∧ (err = [0xc0] → copied = true)

section

variable {cbs : Callbacks} {pending : Fin maxPending → PendingEntry} {copied : Bool}
  {data buf : List UInt8}

/-- A notification is handled well exactly if it has its params, in range. -/
theorem notification_wellBehaved_iff {kind : Kind} {remaining : Nat}
    (h : IsNotification data kind remaining buf) (hcb : cbs kind = true) :
    WellBehaved cbs pending data
      ⟨pending, none, [((kind.readParams remaining).run (some buf)).1.call], none⟩ ↔
      ∃ params rest, (kind.readParams remaining).parse buf = .ok (params, rest) ∧
        params.InRange := by
  constructor
  · intro hw
    cases hw with
    | notified h' hcb' hparse hpassed hcall =>
      obtain ⟨rfl, rfl, rfl⟩ := h.unique h'
      rw [StickyReader.run_of_parse hparse] at hcall
      obtain rfl := List.singleton_inj.mp hcall
      exact ⟨_, _, hparse, (passedTo_call_iff _).mp hpassed⟩
    -- a response signals, and this outcome signals nobody
    | completed _ _ _ _ hsignaled => exact nomatch hsignaled
    | nothing _ _ hcall => exact nomatch hcall
  · intro hdecode
    obtain ⟨params, rest, hparse, hrange⟩ := hdecode
    rw [StickyReader.run_of_parse hparse]
    exact .notified h hcb hparse ((passedTo_call_iff params).mpr hrange) rfl rfl rfl

/-- A response to a call that waits is handled well exactly if its error is bad, or it has an error
    and a result, which is copied if the error is nil. -/
theorem response_wellBehaved_iff {n : Nat} {msgid : UInt32} (h : IsResponse data n msgid buf)
    (hactive : (pending (slot msgid)).active = true) :
    WellBehaved cbs pending data (processResponse pending copied msgid buf) ↔
      IsBadError buf ∨
        ∃ err result, HasFields n buf err result ∧ (err = [0xc0] → copied = true) := by
  -- what the loop could not read is dropped, which is as the specification has it
  by_cases hbad : IsBadError buf
  · obtain ⟨msg, hrun⟩ := processResponse_bad pending copied msgid hbad
    rw [hrun]
    exact iff_of_true (.nothing rfl rfl rfl) (.inl hbad)
  obtain ⟨msg, rd, hrd, hrun⟩ := processResponse_active pending copied msgid hbad hactive
  rw [hrun]
  constructor
  · intro hw
    cases hw with
    | notified _ _ _ _ hcall => exact nomatch hcall
    | completed h' hfields _ hpending =>
      obtain ⟨rfl, rfl, rfl⟩ := h.unique h'
      -- the entry at the slot is what the two specifications have to agree on
      have hentry := congrFun hpending (slot msgid)
      simp only [Function.update_self] at hentry
      exact .inr ⟨_, _, hfields, (receive_complete copied hfields _ _ hrd).mp hentry⟩
    | nothing _ hsignaled => exact nomatch hsignaled
  · intro hdecode
    obtain ⟨err, result, hfields, hcopied⟩ := hdecode.resolve_left hbad
    rw [(receive_complete copied hfields _ _ hrd).mpr hcopied]
    exact .completed h hfields hactive rfl rfl rfl

/-- `process_message` acts only on well-formed messages, exactly of those whose parameters or
    fields are read. -/
theorem wellBehaved_iff (cbs : Callbacks) (pending : Fin maxPending → PendingEntry)
    (copied : Bool) (data : List UInt8) :
    WellBehaved cbs pending data (processMessage pending cbs copied data) ↔
      ParamsDecode cbs data ∧ ResponseDecodes pending copied data := by
  by_cases hn : ∃ kind remaining buf, IsNotification data kind remaining buf ∧ cbs kind = true
  · obtain ⟨kind, remaining, buf, hnot, hcb⟩ := hn
    rw [processMessage_notification pending copied hnot hcb, notification_wellBehaved_iff hnot hcb]
    constructor
    · intro hdecode
      refine ⟨fun kind' remaining' buf' h' _ => ?_, fun n msgid buf' h' => ?_⟩
      · obtain ⟨rfl, rfl, rfl⟩ := hnot.unique h'
        exact hdecode
      · exact absurd h' hnot.not_response
    · intro hcond
      exact hcond.1 kind remaining buf hnot hcb
  -- no callback is registered for it, so nothing is said about its parameters
  have hparams : ParamsDecode cbs data :=
    fun kind remaining buf h hcb => absurd ⟨kind, remaining, buf, h, hcb⟩ hn
  by_cases hr : ∃ n msgid buf, IsResponse data n msgid buf
  · obtain ⟨n, msgid, buf, hresp⟩ := hr
    rw [processMessage_response pending copied hresp]
    by_cases hactive : (pending (slot msgid)).active = true
    · rw [response_wellBehaved_iff hresp hactive]
      constructor
      · intro hdecode
        refine ⟨hparams, fun n' msgid' buf' h' _ => ?_⟩
        obtain ⟨rfl, rfl, rfl⟩ := hresp.unique h'
        exact hdecode
      · intro hcond
        exact hcond.2 n msgid buf hresp hactive
    · obtain ⟨msg, hrun⟩ := processResponse_inactive pending copied buf hactive
      rw [hrun]
      refine iff_of_true (.nothing rfl rfl rfl) ⟨hparams, fun n' msgid' buf' h' hactive' => ?_⟩
      obtain ⟨rfl, rfl, rfl⟩ := hresp.unique h'
      exact absurd hactive' hactive
  · rw [processMessage_other pending copied
      (fun kind remaining buf h hcb => hn ⟨kind, remaining, buf, h, hcb⟩)
      (fun n msgid buf h => hr ⟨n, msgid, buf, h⟩)]
    exact iff_of_true (.nothing rfl rfl rfl)
      ⟨hparams, fun n msgid buf h => absurd ⟨n, msgid, buf, h⟩ hr⟩

end

/-! ## A notification without its fields -/

/-- The notification `evicted` with nil for its parameters. -/
def nilEvicted : List UInt8 := [0x93, 0x02, 0xa7] ++ utf8 "evicted" ++ [0x91, 0xc0]

/-- The message is a notification without params. -/
theorem isNotification_nilEvicted : IsNotification nilEvicted .evicted 0 [0xc0] := by
  refine ⟨3, [0xa7] ++ utf8 "evicted" ++ [0x91, 0xc0], ⟨utf8 "evicted", by decide⟩,
    [0x91, 0xc0], ⟨by decide, [0x02, 0xa7] ++ utf8 "evicted" ++ [0x91, 0xc0], ?_, ?_⟩, ?_, rfl, ?_⟩
  all_goals rfl

/-- The callback is called with handle 0, which is nowhere in the message. -/
theorem called_without_handle :
    (processMessage (fun _ => ⟨false, none, 0, false, false⟩) (fun _ => true) true
      nilEvicted).calls = [.evicted 0] ∧
    ¬ WellBehaved (fun _ => true) (fun _ => ⟨false, none, 0, false, false⟩) nilEvicted
      (processMessage (fun _ => ⟨false, none, 0, false, false⟩) (fun _ => true) true
        nilEvicted) := by
  have hcalls : (processMessage (fun _ => ⟨false, none, 0, false, false⟩) (fun _ => true) true
      nilEvicted).calls = [.evicted 0] := rfl
  refine ⟨hcalls, fun h => ?_⟩
  cases h with
  | notified h' _ hparse =>
    obtain ⟨rfl, rfl, rfl⟩ := isNotification_nilEvicted.unique h'
    exact nomatch hparse
  | completed _ _ _ _ _ hnone => exact nomatch hcalls.symm.trans hnone
  | nothing _ _ hnone => exact nomatch hcalls.symm.trans hnone

end CClient

end Kgd
