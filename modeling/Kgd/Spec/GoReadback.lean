import Kgd.Daemon.Wire
import Kgd.Client.Go

/-!
# What the Go client reads back

The client's `intVal` has no case for `uint16` and `int16`, the types that a decoder gives to
an integer whose smallest form takes 16 bits, and to every color channel. These fields are read
as zero; everything else is read as it was sent.

The daemon and the client use the same msgpack library, which is any `Library` with the laws
`Library.Lawful`.

## Key results

- `GoClient.intVal_encodeInt`: which integers are read back
- `GoClient.received_iff`: which results and notifications are
- `GoClient.received_fails`: a terminal of 300 columns
-/

namespace Kgd

open Msgpack

/-- The integer fields of a sent value. -/
def Sent.ints : Sent → List Int64
  | .hello r => [r.cols, r.rows, r.cellWidth, r.cellHeight]
  | .list placements => placements.flatMap fun p => [p.row, p.col]
  | .status r => [r.clients, r.placements, r.images, r.cols, r.rows]
  | .notification (.topologyChanged cols rows cellWidth cellHeight) =>
    [cols, rows, cellWidth, cellHeight]
  | .upload _ | .place _ | .notification (.evicted _) | .notification (.visibilityChanged ..)
  | .notification (.themeChanged ..) => []

/-- The colors of a sent value. -/
def Sent.colors : Sent → List Color
  | .hello r => [r.fg, r.bg]
  | .notification (.themeChanged fg bg) => [fg, bg]
  | .upload _ | .place _ | .list _ | .status _ | .notification (.evicted _)
  | .notification (.topologyChanged ..) | .notification (.visibilityChanged ..) => []

/-- The integer takes exactly 16 bits in its smallest form. -/
def SixteenBit (n : Int64) : Prop :=
  256 ≤ n.toInt ∧ n.toInt ≤ 65535 ∨ -32768 ≤ n.toInt ∧ n.toInt ≤ -129

/-- No integer of the value takes exactly 16 bits, and its colors are black. -/
def Sent.Readable (s : Sent) : Prop :=
  (∀ n ∈ s.ints, ¬ SixteenBit n) ∧ ∀ c ∈ s.colors, c = default

namespace GoClient

/-- What the client makes of a sent value. -/
def received (lib : Library) (s : Sent) : Option Sent :=
  (lib.decodeInterface (s.encodeWith lib.encodeInt)).bind fun a =>
    match s with
    | .hello _ => some (.hello (connect a))
    | .upload _ => (upload a).map .upload
    | .place _ => (place a).map .place
    | .list _ => some (.list (list a))
    | .status _ => some (.status (status a))
    | .notification n => (handleNotification n.method a).map .notification

variable {lib : Library} {m : GoAnyMap} {key : String}

/-! ## Structs -/

/-- The fields of a struct with their values decoded. -/
def decodeFields (lib : Library) (fields : List (String × Value)) : GoAnyMap :=
  fields.filterMap fun f => (lib.decodeInterface f.2).map (f.1, ·)

/-- The fields of a map are decoded one by one. -/
theorem decodeFields_cons (key : String) {v : Value} {a : Any}
    (ha : lib.decodeInterface v = some a) (fields : List (String × Value)) :
    decodeFields lib ((key, v) :: fields) = (key, a) :: decodeFields lib fields := by
  simp [decodeFields, ha]

/-- Where every value can be decoded, no field is left out. -/
theorem forall₂_decodeFields (fields : List (String × Value))
    (hfields : ∀ f ∈ fields, (lib.decodeInterface f.2).isSome) :
    List.Forall₂ (fun f e => f.1 = e.1 ∧ lib.decodeInterface f.2 = some e.2) fields
      (decodeFields lib fields) := by
  induction fields with
  | nil => exact .nil
  | cons f fields ih =>
    obtain ⟨key, v⟩ := f
    obtain ⟨a, ha⟩ := Option.isSome_iff_exists.mp (hfields _ List.mem_cons_self)
    rw [decodeFields_cons key ha]
    exact .cons ⟨rfl, ha⟩ (ih fun g hg => hfields g (List.mem_cons_of_mem _ hg))

/-- A field that is looked up is decoded by itself. -/
theorem lookup_decodeFields (fields : List (String × Value))
    (hfields : ∀ f ∈ fields, (lib.decodeInterface f.2).isSome) (key : String) :
    (decodeFields lib fields).lookup key = (fields.lookup key).bind lib.decodeInterface := by
  induction fields with
  | nil => rfl
  | cons f fields ih =>
    obtain ⟨name, v⟩ := f
    obtain ⟨a, ha⟩ := Option.isSome_iff_exists.mp (hfields _ List.mem_cons_self)
    -- every field decodes, so the names stay in step with the values
    have htail := ih fun g hg => hfields g (List.mem_cons_of_mem _ hg)
    rw [decodeFields_cons name ha, List.lookup_cons, List.lookup_cons]
    cases key == name with
    | true => exact ha.symm
    | false => exact htail

/-- A struct comes back as a map of its decoded fields. -/
theorem decode_struct (hlib : lib.Lawful) (fields : List (String × Value))
    (hfields : ∀ f ∈ fields, (lib.decodeInterface f.2).isSome) :
    ∃ m, lib.decodeInterface (encodeStruct fields) = some (.map m) ∧
      ∀ key, index m key = (fields.reverse.lookup key).bind lib.decodeInterface := by
  refine ⟨decodeFields lib fields, hlib.byCode.map (forall₂_decodeFields fields hfields), ?_⟩
  intro key
  rw [index, decodeFields, ← List.filterMap_reverse]
  exact lookup_decodeFields _ (fun f hf => hfields f (List.mem_reverse.mp hf)) key

/-! ## Fields -/

/-- An integer that is not of sixteen bits is read as it is. -/
theorem intVal_of_int? {a : Any} {k : Int64} (ha : index m key = some a)
    (h16 : a.isSixteen = false) (hk : a.int? = some k.toInt) : intVal m key = k := by
  apply Int64.toInt_inj.mp
  rw [intVal, ha]
  have hmax := k.toInt_lt
  cases a with
  -- the two types the readers do not look for
  | uint16 | int16 => exact absurd h16 (by simp [Any.isSixteen])
  | nil | bool | string | slice | map => exact absurd hk (by simp [Any.int?])
  | int64 n => exact Option.some.inj hk
  | int8 n | int32 n =>
    rw [← Option.some.inj hk]
    simp
  | uint8 n | uint32 n | uint64 n =>
    have hn := Option.some.inj hk
    show BitVec.toInt _ = _
    rw [BitVec.toInt_eq_toNat_of_lt] <;> simp <;> omega

/-- An integer of sixteen bits is read as 0. -/
theorem intVal_of_isSixteen {a : Any} (ha : index m key = some a) (h16 : a.isSixteen = true) :
    intVal m key = 0 := by
  rw [intVal, ha]
  cases a with
  | uint16 | int16 => rfl
  | nil | bool | uint8 | uint32 | uint64 | int8 | int32 | int64 | string | slice | map =>
    exact absurd h16 (by simp [Any.isSixteen])

/-- An `int` is read back, unless it takes exactly 16 bits. -/
theorem intVal_encodeInt (hlib : lib.Lawful) {n : Int64}
    (hn : index m key = lib.decodeInterface (lib.encodeInt n)) :
    intVal m key = n ↔ ¬ SixteenBit n := by
  obtain ⟨a, ha, hint, hiff⟩ := hlib.decode_encodeInt n
  rw [ha] at hn
  change _ ↔ SixteenBit n at hiff
  cases h16 : a.isSixteen with
  | false =>
    have hval := intVal_of_int? hn h16 hint
    have hnot : ¬ SixteenBit n := fun h => absurd (hiff.mpr h) (by simp [h16])
    exact ⟨fun _ => hnot, fun _ => hval⟩
  | true =>
    have hsixteen := hiff.mp h16
    have hval := intVal_of_isSixteen hn h16
    -- zero is not a 16-bit integer
    have hne : 0 ≠ n := by
      intro h
      rw [← h] at hsixteen
      rcases hsixteen with h | h <;> exact absurd h (by decide)
    rw [hval]
    exact ⟨fun h => absurd h hne, fun h => absurd hsixteen h⟩

theorem uint32Val_uint32 (hlib : lib.Lawful) {n : UInt32}
    (hn : index m key = lib.decodeInterface (.uint32 n)) : uint32Val m key = n := by
  rw [uint32Val, hn, hlib.byCode.uint32]

theorem boolVal_bool (hlib : lib.Lawful) {b : Bool}
    (hb : index m key = lib.decodeInterface (.bool b)) : boolVal m key = b := by
  rw [boolVal, hb, hlib.byCode.bool]

theorem stringVal_str (hlib : lib.Lawful) {s : String}
    (hs : index m key = lib.decodeInterface (.str s)) : stringVal m key = s := by
  rw [stringVal, hs, hlib.byCode.str]

/-- The channels of a color have 16 bits and are read as zero. -/
theorem colorVal_encode (hlib : lib.Lawful) {c : Color}
    (hc : index m key = lib.decodeInterface c.encode) : colorVal m key = c ↔ c = default := by
  obtain ⟨e, he, hindex⟩ := decode_struct hlib
    [("r", .uint16 c.r), ("g", .uint16 c.g), ("b", .uint16 c.b)] (by simp [hlib.byCode.uint16])
  -- a channel is written as a 16-bit integer, which reads as zero
  have hzero : ∀ key n, index e key = lib.decodeInterface (.uint16 n) → intVal e key = 0 := by
    intro key n hn
    rw [hlib.byCode.uint16] at hn
    exact intVal_of_isSixteen hn rfl
  have hval : colorVal m key = default := by
    rw [colorVal, hc, Color.encode, he]
    show colorFromMap e = default
    rw [colorFromMap, hzero "r" c.r (hindex "r"), hzero "g" c.g (hindex "g"),
      hzero "b" c.b (hindex "b")]
    rfl
  rw [hval]
  exact eq_comm

/-- An int is decoded, in whatever form it is written. -/
theorem isSome_decode_encodeInt (hlib : lib.Lawful) (n : Int64) :
    (lib.decodeInterface (lib.encodeInt n)).isSome := by
  obtain ⟨a, ha, -⟩ := hlib.decode_encodeInt n
  rw [ha]
  rfl

/-- A color is decoded. -/
theorem isSome_decode_color (hlib : lib.Lawful) (c : Color) :
    (lib.decodeInterface c.encode).isSome := by
  obtain ⟨e, he, -⟩ := decode_struct hlib
    [("r", .uint16 c.r), ("g", .uint16 c.g), ("b", .uint16 c.b)] (by simp [hlib.byCode.uint16])
  rw [Color.encode, he]
  rfl

/-! ## Results and notifications -/

/-- The result of hello comes through exactly if its numbers are readable. -/
theorem received_hello_iff (hlib : lib.Lawful) (r : HelloResult) :
    received lib (.hello r) = some (.hello r) ↔ (Sent.hello r).Readable := by
  obtain ⟨clientID, cols, rows, cellWidth, cellHeight, inTmux, fg, bg⟩ := r
  obtain ⟨m, hm, hindex⟩ := decode_struct hlib
    [("client_id", .str clientID), ("cols", lib.encodeInt cols), ("rows", lib.encodeInt rows),
     ("cell_width", lib.encodeInt cellWidth), ("cell_height", lib.encodeInt cellHeight),
     ("in_tmux", .bool inTmux), ("fg", fg.encode), ("bg", bg.encode)]
    (by simp [isSome_decode_encodeInt hlib, isSome_decode_color hlib, hlib.byCode.str,
      hlib.byCode.bool])
  -- each field is found under its key and read by its own reader
  have hclientID := stringVal_str hlib (hindex "client_id")
  have hcols := intVal_encodeInt hlib (hindex "cols")
  have hrows := intVal_encodeInt hlib (hindex "rows")
  have hcellWidth := intVal_encodeInt hlib (hindex "cell_width")
  have hcellHeight := intVal_encodeInt hlib (hindex "cell_height")
  have hinTmux := boolVal_bool hlib (hindex "in_tmux")
  have hfg := colorVal_encode hlib (hindex "fg")
  have hbg := colorVal_encode hlib (hindex "bg")
  rw [received, Sent.encodeWith, HelloResult.encodeWith, hm]
  simp [connect, Sent.Readable, Sent.ints, Sent.colors, hclientID, hcols, hrows, hcellWidth,
    hcellHeight, hinTmux, hfg, hbg, and_assoc]

/-- A placement of the list comes through exactly if its row and column are readable. -/
theorem decode_placementInfo (hlib : lib.Lawful) (p : PlacementInfo) :
    ∃ a q, lib.decodeInterface (p.encodeWith lib.encodeInt) = some a ∧ placementInfo? a = some q ∧
      (q = p ↔ ¬ SixteenBit p.row ∧ ¬ SixteenBit p.col) := by
  obtain ⟨placementID, clientID, handle, visible, row, col⟩ := p
  obtain ⟨m, hm, hindex⟩ := decode_struct hlib
    [("placement_id", .uint32 placementID), ("client_id", .str clientID),
     ("handle", .uint32 handle), ("visible", .bool visible), ("row", lib.encodeInt row),
     ("col", lib.encodeInt col)]
    (by simp [isSome_decode_encodeInt hlib, hlib.byCode.str, hlib.byCode.bool,
      hlib.byCode.uint32])
  have hplacementID := uint32Val_uint32 hlib (hindex "placement_id")
  have hclientID := stringVal_str hlib (hindex "client_id")
  have hhandle := uint32Val_uint32 hlib (hindex "handle")
  have hvisible := boolVal_bool hlib (hindex "visible")
  -- the position is all that may not come back
  have hrow := intVal_encodeInt hlib (hindex "row")
  have hcol := intVal_encodeInt hlib (hindex "col")
  refine ⟨.map m, _, hm, rfl, ?_⟩
  simp [hplacementID, hclientID, hhandle, hvisible, hrow, hcol]

/-- The placements of a list come through one by one. -/
theorem decode_placements (hlib : lib.Lawful) (placements : List PlacementInfo) :
    ∃ as, List.Forall₂ (fun v a => lib.decodeInterface v = some a)
        (placements.map fun p => p.encodeWith lib.encodeInt) as ∧
      (as.filterMap placementInfo? = placements ↔
        ∀ p ∈ placements, ¬ SixteenBit p.row ∧ ¬ SixteenBit p.col) := by
  induction placements with
  | nil => exact ⟨[], .nil, by simp⟩
  | cons p placements ih =>
    obtain ⟨a, q, ha, hq, hqp⟩ := decode_placementInfo hlib p
    obtain ⟨as, has, hiff⟩ := ih
    refine ⟨a :: as, .cons ha has, ?_⟩
    rw [List.filterMap_cons_some hq, List.cons_eq_cons, hqp, hiff, List.forall_mem_cons]

/-- A list is readable if the row and column of each placement are. -/
theorem readable_list_iff (placements : List PlacementInfo) :
    (Sent.list placements).Readable ↔
      ∀ p ∈ placements, ¬ SixteenBit p.row ∧ ¬ SixteenBit p.col := by
  constructor
  · intro h p hp
    have hmem : ∀ n ∈ [p.row, p.col], n ∈ (Sent.list placements).ints := fun n hn =>
      List.mem_flatMap.mpr ⟨p, hp, hn⟩
    exact ⟨h.1 _ (hmem _ (by simp)), h.1 _ (hmem _ (by simp))⟩
  · intro h
    refine ⟨fun n hn => ?_, nofun⟩
    -- an integer of the list is the row or the column of a placement
    obtain ⟨p, hp, hmem⟩ := List.mem_flatMap.mp hn
    simp only [List.mem_cons, List.not_mem_nil, or_false] at hmem
    cases hmem with
    | inl hrow => exact hrow ▸ (h p hp).1
    | inr hcol => exact hcol ▸ (h p hp).2

/-- The result of list comes through exactly if its numbers are readable. -/
theorem received_list_iff (hlib : lib.Lawful) (placements : List PlacementInfo) :
    received lib (.list placements) = some (.list placements) ↔
      (Sent.list placements).Readable := by
  cases placements with
  | nil =>
    -- nil is no slice, so the client finds no placements
    obtain ⟨m, hm, hindex⟩ := decode_struct hlib [("placements", .nil)] (by simp [hlib.byCode.nil])
    have hplacements : index m "placements" = some .nil :=
      (hindex "placements").trans hlib.byCode.nil
    have hreceived : received lib (.list []) = some (.list []) := by
      rw [received, Sent.encodeWith, hm]
      simp only [Option.bind_some, list, hplacements]
    exact ⟨fun _ => ⟨nofun, nofun⟩, fun _ => hreceived⟩
  | cons p ps =>
    obtain ⟨as, has, hiff⟩ := decode_placements hlib (p :: ps)
    have hdecode := hlib.byCode.array has
    obtain ⟨m, hm, hindex⟩ := decode_struct hlib
      [("placements", .array ((p :: ps).map fun p => p.encodeWith lib.encodeInt))]
      (List.forall_mem_singleton.mpr (Option.isSome_iff_exists.mpr ⟨_, hdecode⟩))
    have hplacements : index m "placements" = some (.slice as) :=
      (hindex "placements").trans hdecode
    rw [received, Sent.encodeWith, hm]
    simp only [Option.bind_some, list, hplacements, Option.some_inj, Sent.list.injEq, hiff]
    exact (readable_list_iff _).symm

theorem received_status_iff (hlib : lib.Lawful) (r : StatusResult) :
    received lib (.status r) = some (.status r) ↔ (Sent.status r).Readable := by
  obtain ⟨clients, placements, images, cols, rows⟩ := r
  obtain ⟨m, hm, hindex⟩ := decode_struct hlib
    [("clients", lib.encodeInt clients), ("placements", lib.encodeInt placements),
     ("images", lib.encodeInt images), ("cols", lib.encodeInt cols), ("rows", lib.encodeInt rows)]
    (by simp [isSome_decode_encodeInt hlib])
  have hclients := intVal_encodeInt hlib (hindex "clients")
  have hplacements := intVal_encodeInt hlib (hindex "placements")
  have himages := intVal_encodeInt hlib (hindex "images")
  have hcols := intVal_encodeInt hlib (hindex "cols")
  have hrows := intVal_encodeInt hlib (hindex "rows")
  rw [received, Sent.encodeWith, StatusResult.encodeWith, hm]
  simp [status, Sent.Readable, Sent.ints, Sent.colors, hclients, hplacements, himages, hcols,
    hrows]

theorem received_upload (hlib : lib.Lawful) (handle : UInt32) :
    received lib (.upload handle) = some (.upload handle) := by
  obtain ⟨m, hm, hindex⟩ := decode_struct hlib [("handle", .uint32 handle)]
    (by simp [hlib.byCode.uint32])
  have hhandle := uint32Val_uint32 hlib (hindex "handle")
  rw [received, Sent.encodeWith, hm]
  simp [upload, hhandle]

theorem received_place (hlib : lib.Lawful) (placementID : UInt32) :
    received lib (.place placementID) = some (.place placementID) := by
  obtain ⟨m, hm, hindex⟩ := decode_struct hlib [("placement_id", .uint32 placementID)]
    (by simp [hlib.byCode.uint32])
  have hplacementID := uint32Val_uint32 hlib (hindex "placement_id")
  rw [received, Sent.encodeWith, hm]
  simp [place, hplacementID]

/-- A notification comes through exactly if its numbers are readable. -/
theorem received_notification_iff (hlib : lib.Lawful) (n : Notification) :
    received lib (.notification n) = some (.notification n) ↔ (Sent.notification n).Readable := by
  cases n with
  -- the two handle fields always survive; the integers and colors decide the others
  | evicted handle =>
    obtain ⟨m, hm, hindex⟩ := decode_struct hlib [("handle", .uint32 handle)]
      (by simp [hlib.byCode.uint32])
    have hhandle := uint32Val_uint32 hlib (hindex "handle")
    rw [received, Sent.encodeWith, Notification.encodeWith, hm]
    simp [Notification.method, handleNotification, Sent.Readable, Sent.ints, Sent.colors, hhandle]
  | topologyChanged cols rows cellWidth cellHeight =>
    obtain ⟨m, hm, hindex⟩ := decode_struct hlib
      [("cols", lib.encodeInt cols), ("rows", lib.encodeInt rows),
       ("cell_width", lib.encodeInt cellWidth), ("cell_height", lib.encodeInt cellHeight)]
      (by simp [isSome_decode_encodeInt hlib])
    have hcols := intVal_encodeInt hlib (hindex "cols")
    have hrows := intVal_encodeInt hlib (hindex "rows")
    have hcellWidth := intVal_encodeInt hlib (hindex "cell_width")
    have hcellHeight := intVal_encodeInt hlib (hindex "cell_height")
    rw [received, Sent.encodeWith, Notification.encodeWith, hm]
    simp [Notification.method, handleNotification, Sent.Readable, Sent.ints, Sent.colors, hcols,
      hrows, hcellWidth, hcellHeight]
  | visibilityChanged placementID visible =>
    obtain ⟨m, hm, hindex⟩ := decode_struct hlib
      [("placement_id", .uint32 placementID), ("visible", .bool visible)]
      (by simp [hlib.byCode.uint32, hlib.byCode.bool])
    have hplacementID := uint32Val_uint32 hlib (hindex "placement_id")
    have hvisible := boolVal_bool hlib (hindex "visible")
    rw [received, Sent.encodeWith, Notification.encodeWith, hm]
    simp [Notification.method, handleNotification, Sent.Readable, Sent.ints, Sent.colors,
      hplacementID, hvisible]
  | themeChanged fg bg =>
    obtain ⟨m, hm, hindex⟩ := decode_struct hlib [("fg", fg.encode), ("bg", bg.encode)]
      (by simp [isSome_decode_color hlib])
    have hfg := colorVal_encode hlib (hindex "fg")
    have hbg := colorVal_encode hlib (hindex "bg")
    rw [received, Sent.encodeWith, Notification.encodeWith, hm]
    simp [Notification.method, handleNotification, Sent.Readable, Sent.ints, Sent.colors, hfg, hbg]

/-- Whatever the library does within its laws, the client reads a value as it was sent exactly if no
    integer of it takes 16 bits and its colors are black. -/
theorem received_iff (hlib : lib.Lawful) (s : Sent) : received lib s = some s ↔ s.Readable := by
  cases s with
  | hello r => exact received_hello_iff hlib r
  | upload handle => exact ⟨fun _ => ⟨nofun, nofun⟩, fun _ => received_upload hlib handle⟩
  | place placementID => exact ⟨fun _ => ⟨nofun, nofun⟩, fun _ => received_place hlib placementID⟩
  | list placements => exact received_list_iff hlib placements
  | status r => exact received_status_iff hlib r
  | notification n => exact received_notification_iff hlib n

/-- A terminal of 80 columns, whose cells are 10 by 20 pixels. -/
theorem received_iff_topology :
    received library (.notification (.topologyChanged 80 24 10 20)) =
      some (.notification (.topologyChanged 80 24 10 20)) := by
  apply (received_iff lawful_library _).mpr
  constructor
  · intro n hn
    simp only [Sent.ints, List.mem_cons, List.not_mem_nil, or_false] at hn
    rcases hn with rfl | rfl | rfl | rfl <;> rw [SixteenBit] <;> decide
  · exact nofun

/-- A terminal gets 300 columns: the client is told that it has none. -/
theorem received_fails : ¬ ∀ s, received library s = some s := by
  intro h
  exact absurd (h (.notification (.topologyChanged 300 50 10 20))) (by decide)

end GoClient

end Kgd
