import Kgd.ForStd.MsgpackEncode
import Kgd.Spec.GoReadback
import Kgd.Spec.OCamlCodec
import Kgd.Spec.ZigCodec

/-!
# Messages that a client cannot read

The Zig and the OCaml client do not know 64-bit integers, which the daemon writes for an `int`
that does not fit in 32 bits. They take such a message for an incomplete one and wait.

## Key results

- `DaemonMessage.narrow_encode`: which messages have a 64-bit integer
- `messages_consumed_iff`: a stream of messages is consumed exactly if there is none in it
- `wide_row_not_consumed`: a placement in row 2^32
-/

namespace Kgd

open Msgpack

/-- The integer fits in 32 bits, signed or unsigned. -/
def FitsThirtyTwo (n : Int64) : Prop := -2147483648 ≤ n.toInt ∧ n.toInt < 4294967296

/-- The length fields of msgpack hold the lengths. -/
def Sent.Sized : Sent → Prop
  | .hello r => (utf8 r.clientID).length < 4294967296
  | .list placements => placements.length < 4294967296 ∧
      ∀ p ∈ placements, (utf8 p.clientID).length < 4294967296
  | .upload _ | .place _ | .status _ | .notification _ => True

/-- The length fields of msgpack hold the lengths. -/
def DaemonMessage.Sized : DaemonMessage → Prop
  | .response _ (.error message) => (utf8 message).length < 4294967296
  | .response _ (.ok none) => True
  | .response _ (.ok (some result)) => result.Sized
  | .notification _ => True

/-- The integer fields of a message. -/
def DaemonMessage.ints : DaemonMessage → List Int64
  | .response _ (.ok (some result)) => result.ints
  | .response _ (.error _) | .response _ (.ok none) => []
  | .notification n => (Sent.notification n).ints

/-- What is written to the connection. -/
def DaemonMessage.bytes (m : DaemonMessage) : List UInt8 := m.encode.bytes

/-! ## Structs -/

/-- The names of fields. -/
def fieldNames : List String :=
  ["r", "g", "b", "client_id", "cols", "rows", "cell_width", "cell_height", "in_tmux", "fg", "bg",
    "placement_id", "handle", "visible", "row", "col", "clients", "placements", "images",
    "message"]

theorem utf8_fieldNames : ∀ key ∈ fieldNames, (utf8 key).length < 4294967296 := by
  decide

/-- Fields with valid values are valid entries. -/
theorem validEntries_fields {fields : List (String × Value)}
    (h : ∀ f ∈ fields, f.1 ∈ fieldNames ∧ f.2.Valid) :
    Value.ValidEntries (fields.map fun (key, v) => (.str key, v)) := by
  induction fields with
  | nil => trivial
  | cons f fields ih =>
    obtain ⟨hkey, hv⟩ := h f List.mem_cons_self
    exact ⟨utf8_fieldNames _ hkey, hv, ih fun g hg => h g (List.mem_cons_of_mem f hg)⟩

/-- A struct with valid fields is valid. -/
theorem valid_encodeStruct {fields : List (String × Value)} (hlen : fields.length < 4294967296)
    (h : ∀ f ∈ fields, f.1 ∈ fieldNames ∧ f.2.Valid) : (encodeStruct fields).Valid :=
  ⟨by rwa [List.length_map], validEntries_fields h⟩

/-- A struct is narrow exactly if its fields are. -/
@[simp] theorem narrow_encodeStruct (fields : List (String × Value)) :
    (encodeStruct fields).narrow = fields.all fun f => f.2.narrow := by
  show Value.narrowEntries _ = _
  induction fields with
  | nil => rfl
  | cons f fields ih =>
    rw [List.map_cons, List.all_cons, ← ih]
    rfl

theorem validElems_map {α : Type} {f : α → Value} {as : List α} (h : ∀ a ∈ as, (f a).Valid) :
    Value.ValidElems (as.map f) := by
  induction as with
  | nil => trivial
  | cons a as ih =>
    exact ⟨h a List.mem_cons_self, ih fun b hb => h b (List.mem_cons_of_mem a hb)⟩

theorem narrowElems_map {α : Type} (f : α → Value) (as : List α) :
    Value.narrowElems (as.map f) = as.all fun a => (f a).narrow := by
  induction as with
  | nil => rfl
  | cons a as ih =>
    rw [List.map_cons, List.all_cons, ← ih]
    rfl

/-! ## Messages -/

theorem Color.valid_encode (c : Color) : c.encode.Valid := by
  apply valid_encodeStruct (by simp)
  simp [fieldNames, Value.Valid]

/-- A placement with a client ID that fits is a valid value. -/
theorem PlacementInfo.valid_encode {p : PlacementInfo}
    (h : (utf8 p.clientID).length < 4294967296) : p.encode.Valid := by
  apply valid_encodeStruct (by simp)
  simp [fieldNames, Value.Valid, valid_encodeInt, h]

theorem Notification.valid_encode (n : Notification) : n.encode.Valid := by
  cases n with
  | evicted | topologyChanged | visibilityChanged | themeChanged =>
    apply valid_encodeStruct (by simp)
    simp [fieldNames, Value.Valid, valid_encodeInt, Color.valid_encode]

theorem Sent.valid_encode {s : Sent} (h : s.Sized) : s.encode.Valid := by
  match s with
  | .hello r =>
    have hid : (utf8 r.clientID).length < 4294967296 := h
    apply valid_encodeStruct (by simp)
    simp [fieldNames, Value.Valid, valid_encodeInt, Color.valid_encode, hid]
  | .upload handle | .place placementID | .list [] | .status r =>
    apply valid_encodeStruct (by simp)
    simp [fieldNames, Value.Valid, valid_encodeInt]
  | .list (p :: ps) =>
    -- of a list each client ID has to be short enough
    have helems : (Value.array ((p :: ps).map fun p => p.encodeWith encodeInt)).Valid :=
      ⟨by simpa using h.1, validElems_map fun p hp => p.valid_encode (h.2 p hp)⟩
    apply valid_encodeStruct (by simp)
    simpa [fieldNames] using helems
  | .notification n => exact n.valid_encode

theorem utf8_method (n : Notification) : (utf8 n.method).length < 4294967296 := by
  have hnames : ∀ name ∈ ["evicted", "topology_changed", "visibility_changed", "theme_changed"],
      (utf8 name).length < 4294967296 := by decide
  apply hnames
  cases n <;> simp [Notification.method]

/-- A message whose strings fit is a valid value. -/
theorem DaemonMessage.valid_encode {m : DaemonMessage} (h : m.Sized) : m.encode.Valid := by
  match m with
  | .response msgID (.error message) =>
    -- an error is a map with its text
    have herror : (encodeStruct [("message", .str message)]).Valid := by
      apply valid_encodeStruct (by simp)
      have hmessage : (utf8 message).length < 4294967296 := h
      simpa [fieldNames, Value.Valid] using hmessage
    exact ⟨by simp, valid_encodeInt 1, trivial, herror, trivial, trivial⟩
  | .response msgID (.ok none) =>
    exact ⟨by simp, valid_encodeInt 1, trivial, trivial, trivial, trivial⟩
  | .response msgID (.ok (some result)) =>
    exact ⟨by simp, valid_encodeInt 1, trivial, trivial, result.valid_encode h, trivial⟩
  | .notification n =>
    exact ⟨by simp, valid_encodeInt 2, utf8_method n, ⟨by simp, n.valid_encode, trivial⟩, trivial⟩

@[simp] theorem Color.narrow_encode (c : Color) : c.encode.narrow = true := by
  simp [Color.encode, Value.narrow]

/-- An int is narrow exactly if it fits 32 bits. -/
theorem narrow_encodeInt_iff (n : Int64) : (encodeInt n).narrow = true ↔ FitsThirtyTwo n :=
  narrow_encodeInt n

/-- A value that is sent has a 64-bit integer exactly if one of its integers does not fit. -/
theorem Sent.narrow_encode (s : Sent) :
    s.encode.narrow = true ↔ ∀ n ∈ s.ints, FitsThirtyTwo n := by
  match s with
  | .hello r =>
    simp [Sent.encode, Sent.encodeWith, HelloResult.encodeWith, Sent.ints, Value.narrow,
      narrow_encodeInt_iff]
  | .upload handle => simp [Sent.encode, Sent.encodeWith, Sent.ints, Value.narrow]
  | .place placementID => simp [Sent.encode, Sent.encodeWith, Sent.ints, Value.narrow]
  | .list [] => simp [Sent.encode, Sent.encodeWith, Sent.ints, Value.narrow]
  | .list (p :: ps) =>
    -- a list is wide as soon as one position in it is
    have helems : Value.narrow (.array ((p :: ps).map fun p => p.encodeWith encodeInt)) = true ↔
        ∀ p' ∈ p :: ps, FitsThirtyTwo p'.row ∧ FitsThirtyTwo p'.col := by
      rw [Value.narrow, narrowElems_map, List.all_eq_true]
      simp [PlacementInfo.encodeWith, Value.narrow, narrow_encodeInt_iff]
    rw [Sent.encode, Sent.encodeWith, narrow_encodeStruct, List.all_cons, List.all_nil,
      Bool.and_true, helems]
    rw [Sent.ints, List.forall_mem_flatMap]
    simp
  | .status r =>
    simp [Sent.encode, Sent.encodeWith, StatusResult.encodeWith, Sent.ints, narrow_encodeInt_iff]
  | .notification n =>
    cases n <;>
      simp [Sent.encode, Sent.encodeWith, Notification.encodeWith, Sent.ints, Value.narrow,
        narrow_encodeInt_iff]

/-- A message has a 64-bit integer exactly if one of its integers does not fit. -/
theorem DaemonMessage.narrow_encode (m : DaemonMessage) :
    m.encode.narrow = true ↔ ∀ n ∈ m.ints, FitsThirtyTwo n := by
  -- the type is a fixint, and IDs are 32 bits wide
  have hresponse : (encodeInt 1).narrow = true := rfl
  have hnotification : (encodeInt 2).narrow = true := rfl
  match m with
  | .response msgID (.error message) | .response msgID (.ok none) =>
    simp [DaemonMessage.encode, DaemonMessage.ints, Value.narrow, Value.narrowElems, hresponse]
  | .response msgID (.ok (some result)) =>
    rw [DaemonMessage.ints, ← result.narrow_encode]
    simp [DaemonMessage.encode, Value.narrow, Value.narrowElems, hresponse]
  | .notification n =>
    rw [DaemonMessage.ints, ← Sent.narrow_encode]
    simp [DaemonMessage.encode, Sent.encode, Sent.encodeWith, Notification.encode, Value.narrow,
      Value.narrowElems, hnotification]

/-! ## Streams of messages -/

/-- A reader that does not know 64-bit integers consumes a message exactly if its integers fit. -/
theorem DaemonMessage.skip_bytes {m : DaemonMessage} (h : m.Sized) (rest : List UInt8) :
    Value.basicFormat.skip 1 (m.bytes ++ rest) = if m.encode.narrow then some rest else none :=
  Value.skip_bytes (m.valid_encode h) rest

/-- All the messages are taken, or those before the first one that has a 64-bit integer. -/
theorem split_messages {ms : List DaemonMessage} (hms : ∀ m ∈ ms, m.Sized) (rest : List UInt8) :
    ((∀ m ∈ ms, m.encode.narrow = true) ∧
      ms.map (·.bytes) <+: (Value.basicFormat.split ((ms.map (·.bytes)).flatten ++ rest)).1) ∨
    ∃ m before after, ms = before ++ m :: after ∧ m.encode.narrow = false ∧
      (Value.basicFormat.split ((ms.map (·.bytes)).flatten ++ rest)).1 =
        before.map (·.bytes) := by
  induction ms with
  | nil => exact Or.inl ⟨List.forall_mem_nil _, List.nil_prefix⟩
  | cons m ms ih =>
    have hskip := m.skip_bytes (hms m List.mem_cons_self) ((ms.map (·.bytes)).flatten ++ rest)
    rw [List.map_cons, List.flatten_cons, List.append_assoc]
    -- the readers never get past the first wide message
    cases hnarrow : m.encode.narrow with
    | false =>
      rw [hnarrow] at hskip
      refine Or.inr ⟨m, [], ms, rfl, hnarrow, ?_⟩
      rw [PrefixNotation.split_of_none _ hskip, List.map_nil]
    | true =>
      rw [hnarrow] at hskip
      have hsplit := PrefixNotation.split_of_some _ hskip
      rw [List.length_append, Nat.add_sub_cancel, List.take_left] at hsplit
      rw [hsplit]
      rcases ih fun m' hm' => hms m' (List.mem_cons_of_mem m hm') with hall | hwide
      · exact Or.inl ⟨List.forall_mem_cons.mpr ⟨hnarrow, hall.1⟩,
          (List.prefix_cons_inj m.bytes).mpr hall.2⟩
      · obtain ⟨wide, before, after, rfl, hwide, hbefore⟩ := hwide
        exact Or.inr ⟨wide, m :: before, after, rfl, hwide, by rw [hbefore, List.map_cons]⟩

/-- All the messages are taken from the stream exactly if their integers fit. -/
theorem taken_iff {α : Type} {ms : List DaemonMessage} (hms : ∀ m ∈ ms, m.Sized)
    (rest : List UInt8) (f : List UInt8 → α) :
    ms.map (fun m => f m.bytes) <+:
      (Value.basicFormat.split ((ms.map (·.bytes)).flatten ++ rest)).1.map f ↔
    ∀ m ∈ ms, ∀ n ∈ m.ints, FitsThirtyTwo n := by
  have hmap : ms.map (fun m => f m.bytes) = (ms.map (·.bytes)).map f := by
    rw [List.map_map]
    rfl
  constructor
  · intro hstart
    rcases split_messages hms rest with ⟨hall, -⟩ | ⟨wide, before, after, rfl, -, hbefore⟩
    · exact fun m hm => m.narrow_encode.mp (hall m hm)
    · -- more messages would have been taken than there are
      have hlen := hstart.length_le
      rw [hbefore] at hlen
      simp at hlen
  · intro hfits
    rcases split_messages hms rest with ⟨-, hall⟩ | ⟨wide, before, after, rfl, hwide, -⟩
    · rw [hmap]
      exact hall.map f
    -- no message is wide, by assumption
    · have hnarrow := wide.narrow_encode.mpr (hfits wide (by simp))
      rw [hwide] at hnarrow
      exact nomatch hnarrow

/-! ## Incomplete or unknown -/

/-- Some code is not known on the way through the first value. -/
def MeetsUnknown (data : List UInt8) : Prop := PrefixNotation.Blocked format basic 1 data

/-- A basic code has a shape. -/
theorem shape_of_basic {code : UInt8} (h : basic code = true) : shape code ≠ .invalid := by
  have hall : ∀ c < 256, basic (.ofNat c) = true →
      (match shape (.ofNat c) with | .invalid => false | _ => true) = true := by decide +kernel
  intro hinvalid
  have hcode := hall code.toNat code.toNat_lt
  rw [UInt8.ofNat_toNat, hinvalid] at hcode
  exact nomatch hcode h

/-- What is not complete yet can be, as far as the basic codes go. -/
theorem basic_fillable : format.Fillable basic 0 := fillable rfl fun _ => shape_of_basic

/-- `tryMeasure` finds a message exactly if there is a value of the basic format. -/
theorem tryMeasure_isSome (data : List UInt8) :
    (ZigClient.tryMeasure data).isSome = (Value.basicFormat.skip 1 data).isSome := by
  rw [ZigClient.tryMeasure_eq, Option.isSome_map]

/-- `decode` succeeds where there is a value. -/
theorem decode_isOk_iff (data : List UInt8) :
    (∃ v next, OCamlClient.decode data 0 = .ok (v, next)) ↔
      (Value.basicFormat.skip 1 data).isSome = true := by
  rw [← OCamlClient.decodeFuel_skip _ _ (Nat.le_refl _), OCamlClient.decode, List.drop_zero]
  cases OCamlClient.decodeFuel data.length data with
  | ok p => exact ⟨fun _ => rfl, fun _ => ⟨p.1, data.length - p.2.length, rfl⟩⟩
  | error e =>
    constructor
    · rintro ⟨v, next, h⟩
      cases h
    · intro h
      cases h

/-- A message is consumed exactly if all its integers fit in 32 bits, and what is reported as
    incomplete can be completed exactly if no unknown code is met. -/
theorem messages_consumed_iff {ms : List DaemonMessage} (hms : ∀ m ∈ ms, m.Sized)
    {rest : List UInt8} {reads : List (List UInt8)} (hne : ∀ bytes ∈ reads, bytes ≠ [])
    (hreads : reads.flatten = (ms.map (·.bytes)).flatten ++ rest) (data : List UInt8) :
    (ms.map (·.bytes) <+: (ZigClient.readLoop reads).processed ↔
      ∀ m ∈ ms, ∀ n ∈ m.ints, FitsThirtyTwo n) ∧
    (ms.map (fun m => OCamlClient.dispatch (OCamlClient.valueOf m.bytes)) <+:
        (OCamlClient.readLoop reads).handled ↔
      ∀ m ∈ ms, ∀ n ∈ m.ints, FitsThirtyTwo n) ∧
    (ZigClient.tryMeasure data = none →
      ((∃ more, (ZigClient.tryMeasure (data ++ more)).isSome = true) ↔ ¬ MeetsUnknown data)) ∧
    ∀ err, OCamlClient.decode data 0 = .error err →
      ((∃ more v next, OCamlClient.decode (data ++ more) 0 = .ok (v, next)) ↔
        ¬ MeetsUnknown data) := by
  refine ⟨?_, ?_, fun hdata => ?_, fun err hdata => ?_⟩
  -- both readers cut the stream by the same format and differ in what they do with a message
  · rw [ZigClient.readLoop_eq hne, hreads]
    have htaken := taken_iff hms rest id
    rwa [List.map_id] at htaken
  · rw [OCamlClient.readLoop_eq hne, hreads]
    exact taken_iff hms rest fun b => OCamlClient.dispatch (OCamlClient.valueOf b)
  -- what is short can be completed, what meets an unknown code cannot
  · have hnone : Value.basicFormat.skip 1 data = none := by
      have hsome := tryMeasure_isSome data
      rw [hdata] at hsome
      exact Option.not_isSome_iff_eq_none.mp (by rw [← hsome]; exact Bool.false_ne_true)
    simp only [tryMeasure_isSome]
    exact basic_fillable.exists_skip_iff hnone
  · have hnone : Value.basicFormat.skip 1 data = none := by
      apply Option.not_isSome_iff_eq_none.mp
      rw [← decode_isOk_iff, hdata]
      intro ⟨v, next, h⟩
      exact nomatch h
    simp only [decode_isOk_iff]
    exact basic_fillable.exists_skip_iff hnone

/-- A list of one placement in row 2^32. -/
def wideRow : DaemonMessage := .response 3 (.ok (some (.list [⟨1, "a", 1, true, 4294967296, 0⟩])))

/-- The list is not taken from a stream, and no further bytes help. -/
theorem wide_row_not_consumed :
    wideRow.Sized ∧
    (ZigClient.readLoop [wideRow.bytes]).processed = [] ∧
    (OCamlClient.readLoop [wideRow.bytes]).handled = [] ∧
    ∀ more, ZigClient.tryMeasure (wideRow.bytes ++ more) = none ∧
      ∃ err, OCamlClient.decode (wideRow.bytes ++ more) 0 = .error err := by
  have hsized : wideRow.Sized := by
    refine ⟨by decide, ?_⟩
    intro p hp
    obtain rfl := List.mem_singleton.mp hp
    show (utf8 "a").length < 4294967296
    decide
  have hwide : wideRow.encode.narrow = false := by decide
  -- a row beyond 32 bits is written as a 64-bit integer, whose code neither reader knows
  have hskip : ∀ more, Value.basicFormat.skip 1 (wideRow.bytes ++ more) = none := by
    intro more
    rw [wideRow.skip_bytes hsized, hwide]
    rfl
  have hsplit : Value.basicFormat.split [wideRow.bytes].flatten = ([], wideRow.bytes) := by
    rw [List.flatten_singleton]
    exact PrefixNotation.split_of_none _ (List.append_nil wideRow.bytes ▸ hskip [])
  have hne : ∀ bytes ∈ [wideRow.bytes], bytes ≠ [] := by
    intro bytes hbytes
    obtain rfl := List.mem_singleton.mp hbytes
    exact List.ne_nil_of_length_pos (by decide)
  refine ⟨hsized, ?_, ?_, fun more => ⟨?_, ?_⟩⟩
  · rw [ZigClient.readLoop_eq hne, hsplit]
  · rw [OCamlClient.readLoop_eq hne, hsplit]
    rfl
  · rw [ZigClient.tryMeasure_eq, hskip more, Option.map_none]
  · exact OCamlClient.decode_eq_error (hskip more)

/-- A notification, followed by the start of a response. -/
theorem messages_consumed_evicted :
    [DaemonMessage.bytes (.notification (.evicted 7))] <+:
      (ZigClient.readLoop
        [DaemonMessage.bytes (.notification (.evicted 7)) ++ [0x94, 0x01]]).processed ∧
    ¬ MeetsUnknown [0x94, 0x01] := by
  have hms : ∀ m ∈ [DaemonMessage.notification (.evicted 7)], m.Sized := by
    intro m hm
    exact List.mem_singleton.mp hm ▸ trivial
  have hne : ∀ bytes ∈ [DaemonMessage.bytes (.notification (.evicted 7)) ++ [0x94, 0x01]],
      bytes ≠ [] := by
    intro bytes hbytes
    obtain rfl := List.mem_singleton.mp hbytes
    simp
  have hreads : [DaemonMessage.bytes (.notification (.evicted 7)) ++ [0x94, 0x01]].flatten =
      ([DaemonMessage.notification (.evicted 7)].map (·.bytes)).flatten ++ [0x94, 0x01] := by
    simp
  have hconsumed := messages_consumed_iff hms hne hreads [0x94, 0x01]
  constructor
  · apply hconsumed.1.mpr
    intro m hm n hn
    obtain rfl := List.mem_singleton.mp hm
    exact absurd hn List.not_mem_nil
  -- one way to complete it
  · have hmeasure : ZigClient.tryMeasure ([0x94, 0x01] ++ [0x02, 0x03, 0xc0]) = some 5 := by
      decide
    exact (hconsumed.2.2.1 (by decide)).mp ⟨[0x02, 0x03, 0xc0], by rw [hmeasure]; rfl⟩

end Kgd
