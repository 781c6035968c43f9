import Kgd.Spec.ByteStream
import Kgd.Spec.TransmitChunks

/-!
# A terminal that reads bytes

`Screen` is a terminal at the other end of the wire: it reads cursor moves and graphics
commands off a stream of bytes, puts the chunks of a transmission together, and keeps images and
placements. `Screen.call` says what a graphics call should do to it, and the bytes that the
TTY backend writes for the call do that.

An image that is not stored cannot be placed, and a new image under an old ID takes the place of
the old one and of its placements. The protocol reads an ID of 0 as none: images and placements
without an ID are not read, and a deletion without one is about the whole image.

## Key results

- `Escape.next?_render`, `Escape.next?_cursor`: commands are read off the front of a stream
- `Screen.read_sequences`: the bytes of one call
- `Screen.read_calls`: the bytes of any sequence of calls
-/

namespace Kgd

/-! ## Commands in a stream -/

namespace Apc

/-- Read one command, and what follows it. -/
def next? (bs : Bytes) : Option (Apc × Bytes) :=
  match bs with
  | 0x1b :: 0x5f :: 0x47 :: bs =>
    (KeyValue.splitAt? semicolon bs).bind fun (control, bs) =>
      (KeyValue.splitAt? ESC bs).bind fun (payload, bs) =>
        match bs with
        | 0x5c :: rest =>
          (KeyValue.fields? comma equals control).map fun keys => (⟨keys, payload⟩, rest)
        | _ => none
  | _ => none

/-- A command at the front of a stream is read, and what follows is left. -/
theorem next?_render {apc : Apc} (hne : apc.keys ≠ []) (hplain : Plain apc.keys)
    (hpayload : ESC ∉ apc.payload) (rest : Bytes) :
    next? (apc.render ++ rest) = some (apc, rest) := by
  -- no field holds the separator, and the control data holds no semicolon
  have hsep : ∀ p ∈ apc.keys, comma ∉ KeyValue.field equals p := by
    intro p hp
    obtain ⟨⟨-, hkey, -⟩, hvalue, -⟩ := hplain p hp
    simp only [KeyValue.field, List.mem_append, List.mem_cons, not_or]
    exact ⟨hkey, by decide, hvalue⟩
  have hcontrol : semicolon ∉ [comma].intercalate (apc.keys.map (KeyValue.field equals)) := by
    apply KeyValue.not_mem_intercalate (by decide)
    intro l hl
    obtain ⟨p, hp, rfl⟩ := List.mem_map.mp hl
    obtain ⟨⟨-, -, hkey⟩, -, hvalue⟩ := hplain p hp
    simp only [KeyValue.field, List.mem_append, List.mem_cons, not_or]
    exact ⟨hkey, by decide, hvalue⟩
  have hkeys : KeyValue.fields? comma equals
      ([comma].intercalate (apc.keys.map (KeyValue.field equals))) = some apc.keys :=
    KeyValue.fields?_join hne (fun p hp => (hplain p hp).1.1) hsep
  have htext : apc.render ++ rest = 0x1b :: 0x5f :: 0x47 ::
      ([comma].intercalate (apc.keys.map (KeyValue.field equals)) ++
        semicolon :: (apc.payload ++ ESC :: 0x5c :: rest)) := by
    simp only [render, List.append_assoc, List.cons_append, List.nil_append]
  rw [htext]
  simp only [next?]
  rw [KeyValue.splitAt?_append hcontrol, Option.bind_some, KeyValue.splitAt?_append hpayload,
    Option.bind_some, hkeys]
  rfl

end Apc

/-- What the backend writes: cursor moves and graphics commands. -/
inductive Escape
  | move (row col : Int)
  | graphics (apc : Apc)
  deriving DecidableEq, Repr

namespace Escape

/-- Read one escape sequence, and what follows it. -/
def next? (bs : Bytes) : Option (Escape × Bytes) :=
  match readCursor? bs with
  | some (row, col, rest) => some (.move row col, rest)
  | none => (Apc.next? bs).map fun (apc, rest) => (.graphics apc, rest)

/-- A cursor movement is read back. -/
theorem next?_cursor (row col : Int) (rest : Bytes) :
    next? ([0x1b, 0x5b] ++ bytes row.repr ++ Apc.semicolon :: (bytes col.repr ++ 72 :: rest)) =
      some (.move row col, rest) := by
  rw [next?, PlaceCommand.readCursor?_append]

/-- A graphics command is read back, whatever follows it. -/
theorem next?_render {apc : Apc} (hne : apc.keys ≠ []) (hplain : Apc.Plain apc.keys)
    (hpayload : ESC ∉ apc.payload) (rest : Bytes) :
    next? (apc.render ++ rest) = some (.graphics apc, rest) := by
  have hcursor : readCursor? (apc.render ++ rest) = none := rfl
  rw [next?, hcursor, Apc.next?_render hne hplain hpayload]
  rfl

/-- A sequence is not empty. -/
theorem length_lt_of_next? {bs rest : Bytes} {e : Escape} (h : next? bs = some (e, rest)) :
    rest.length < bs.length := by
  unfold next? at h
  split at h
  · rename_i row col rest' hcursor
    obtain ⟨-, rfl⟩ := Prod.mk.inj (Option.some.inj h)
    unfold readCursor? at hcursor
    split at hcursor
    · simp only [Option.bind_eq_some_iff, Option.map_eq_some_iff, Prod.exists, Prod.mk.injEq]
        at hcursor
      -- each half of the position ends at a byte of its own
      obtain ⟨row', bs₁, hrow, col', bs₂, hcol, _, -, _, -, -, -, rfl⟩ := hcursor
      have hlt := KeyValue.length_lt_of_splitAt? hrow
      have hlt' := KeyValue.length_lt_of_splitAt? hcol
      simp only [List.length_cons]
      omega
    · cases hcursor
  · obtain ⟨⟨apc, rest'⟩, happ, heq⟩ := Option.map_eq_some_iff.mp h
    obtain ⟨-, rfl⟩ := Prod.mk.inj heq
    unfold Apc.next? at happ
    split at happ
    · simp only [Option.bind_eq_some_iff, Prod.exists] at happ
      obtain ⟨control, bs₁, hcontrol, payload, bs₂, hpayload, happ⟩ := happ
      have hlt := KeyValue.length_lt_of_splitAt? hcontrol
      have hlt' := KeyValue.length_lt_of_splitAt? hpayload
      split at happ
      · simp only [Option.map_eq_some_iff, Prod.mk.injEq] at happ
        obtain ⟨_, -, -, rfl⟩ := happ
        simp only [List.length_cons] at hlt' ⊢
        omega
      · cases happ
    · cases happ

end Escape

/-! ## The terminal -/

/-- An image as the terminal keeps it. -/
structure Picture where
  format : Int
  /-- width and height, where they are given -/
  size : Option (Int × Int)
  data : Data
  deriving DecidableEq, Repr

/-- What the first command of a transmission says of the image. -/
def Apc.picture? (first : Apc) (payload : Bytes) : Option (Int × Picture) := do
  let imageID ← first.int? "i"
  let format ← first.int? "f"
  let data ← Base64.decode? payload
  let size := (first.int? "s").bind fun width => (first.int? "v").map fun height => (width, height)
  return (imageID, { format, size, data })

/-- A terminal, by what it has read so far. -/
structure Screen where
  /-- row and column -/
  cursor : Int × Int
  /-- the first command of a transmission that is not complete, and the payload so far -/
  pending : Option (Apc × Bytes)
  images : Int → Option Picture
  /-- screen position of each displayed (image, placement) pair -/
  shown : Int → Int → Option (Int × Int)

namespace Screen

/-- A terminal that has read nothing. -/
def blank : Screen :=
  { cursor := (1, 1), pending := none, images := fun _ => none, shown := fun _ _ => none }

/-- Display or remove one pair. -/
def setShown (s : Screen) (imageID placementID : Int) (pos : Option (Int × Int)) : Screen :=
  { s with shown := fun i p => if i = imageID ∧ p = placementID then pos else s.shown i p }

/-- Replace or remove an image, and with it everything that shows it. -/
def setImage (s : Screen) (imageID : Int) (picture : Option Picture) : Screen :=
  { s with
    images := fun i => if i = imageID then picture else s.images i
    shown := fun i p => if i = imageID then none else s.shown i p }

/-- Display a pair, if the image is known. -/
def place (s : Screen) (r : PlaceReading) : Option Screen :=
  if r.imageID = 0 ∨ r.placementID = 0 then none
  else if (s.images r.imageID).isSome then
    some (s.setShown r.imageID r.placementID (some (r.row, r.col)))
  else some s

/-- Remove a pair, or all pairs of an image, or the image. -/
def delete (s : Screen) (r : DeleteReading) : Option Screen :=
  if r.imageID = 0 then none
  else if r.placementID = 0 then
    if r.free then some (s.setImage r.imageID none)
    else some { s with shown := fun i p => if i = r.imageID then none else s.shown i p }
  else if r.free then none
  else some (s.setShown r.imageID r.placementID none)

/-- One more chunk of a transmission; `m=1` says that others follow. -/
def chunk (s : Screen) (first : Apc) (payload : Bytes) (more : Option Int) : Option Screen :=
  if more = some 1 then some { s with pending := some (first, payload) }
  else (first.picture? payload).bind fun x =>
    if x.1 = 0 then none else some ({ s with pending := none }.setImage x.1 (some x.2))

/-- A command by its action. -/
def command (s : Screen) (apc : Apc) : Option Screen :=
  if apc.value? "a" = some (bytes "t") then s.chunk apc apc.payload (apc.intD? "m")
  else if apc.value? "a" = some (bytes "p") then
    (apc.readPlace? s.cursor.1 s.cursor.2).bind s.place
  else if apc.value? "a" = some (bytes "d") then apc.readDelete?.bind s.delete
  else none

/-- Act on one escape sequence. -/
def act (s : Screen) : Escape → Option Screen
  | .move row col => some { s with cursor := (row, col) }
  | .graphics apc =>
    match s.pending with
    | some (first, payload) => s.chunk first (payload ++ apc.payload) (apc.intD? "m")
    | none => s.command apc

/-- Read so many escape sequences at most. -/
def readFor : Nat → Screen → Bytes → Option Screen
  | _, s, [] => some s
  | 0, _, _ :: _ => none
  | fuel + 1, s, b :: bs =>
    (Escape.next? (b :: bs)).bind fun (e, rest) => (s.act e).bind (readFor fuel · rest)

/-- Read a stream of escape sequences to its end. -/
def read (s : Screen) (bs : Bytes) : Option Screen := readFor bs.length s bs

/-! ## Reading -/

@[simp] theorem read_nil (s : Screen) : s.read [] = some s := rfl

/-- The length of the stream is enough fuel. -/
theorem readFor_of_length_le (fuel : Nat) (s : Screen) (bs : Bytes) (h : bs.length ≤ fuel) :
    readFor fuel s bs = s.read bs := by
  rw [read]
  -- on the length: every escape takes a byte at least
  induction hn : bs.length using Nat.strongRecOn generalizing fuel s bs with
  | ind n ih =>
    cases bs with
    | nil => cases fuel <;> cases n <;> rfl
    | cons b bs =>
      simp only [List.length_cons] at h hn
      obtain ⟨fuel, rfl⟩ : ∃ g, fuel = g + 1 := ⟨fuel - 1, by omega⟩
      obtain ⟨n, rfl⟩ : ∃ g, n = g + 1 := ⟨n - 1, by omega⟩
      rw [readFor, readFor]
      cases hnext : Escape.next? (b :: bs) with
      | none => rfl
      | some x =>
        obtain ⟨e, rest⟩ := x
        have hlt := Escape.length_lt_of_next? hnext
        simp only [List.length_cons] at hlt
        rw [Option.bind_some, Option.bind_some]
        apply congrArg (Option.bind (s.act e))
        funext s'
        rw [ih rest.length (by omega) fuel s' rest (by omega) rfl,
          ih rest.length (by omega) n s' rest (by omega) rfl]

/-- What is read of bytes is one escape sequence after another. -/
theorem read_of_next? {bs rest : Bytes} {e : Escape} (h : Escape.next? bs = some (e, rest))
    (s : Screen) : s.read bs = (s.act e).bind fun s' => s'.read rest := by
  have hlt := Escape.length_lt_of_next? h
  cases bs with
  | nil => simp at hlt
  | cons b bs =>
    rw [read, List.length_cons, readFor, h, Option.bind_some]
    apply congrArg (Option.bind (s.act e))
    funext s'
    exact readFor_of_length_le _ s' rest (by simp only [List.length_cons] at hlt; omega)

/-- Act on escape sequences, one after the other. -/
def actAll (s : Screen) (es : List Escape) : Option Screen := es.foldlM act s

/-- A command that is read back wherever it stands. -/
def Readable (apc : Apc) : Prop := (apc.keys ≠ [] ∧ Apc.Plain apc.keys) ∧ ESC ∉ apc.payload

/-- Rendered commands are read as these commands. -/
theorem read_render {apcs : List Apc} (h : ∀ apc ∈ apcs, Readable apc) (s : Screen)
    (rest : Bytes) :
    s.read ((apcs.map Apc.render).flatten ++ rest) =
      (s.actAll (apcs.map .graphics)).bind fun s' => s'.read rest := by
  induction apcs generalizing s with
  | nil => rfl
  | cons apc apcs ih =>
    obtain ⟨⟨hne, hplain⟩, hpayload⟩ := h apc List.mem_cons_self
    rw [List.map_cons, List.flatten_cons, List.append_assoc,
      read_of_next? (Escape.next?_render hne hplain hpayload _), List.map_cons, actAll,
      List.foldlM_cons]
    change _ = Option.bind (Option.bind (s.act (.graphics apc)) fun s' => s'.actAll _) _
    -- reading on after the first escape is reading on after all of them
    rw [Option.bind_assoc]
    apply congrArg (Option.bind (s.act (.graphics apc)))
    funext s'
    exact ih (fun apc' happ => h apc' (List.mem_cons_of_mem _ happ)) s'

/-! ## The calls -/

end Screen

/-- The image of a transmission. -/
def Picture.of (c : TransmitCommand) (data : Data) : Picture :=
  { format := formatCode c.format
    size := if formatCode c.format ≠ 100 then some (c.width.toInt, c.height.toInt) else none
    data }

namespace Screen

/-- What a graphics call should do. A placement outside of the screen has no sequence. -/
def call (s : Screen) : GfxCall → Screen
  | .transmit id data format width height _ =>
    s.setImage id.toNat (some (.of { imageID := id, format, width, height } data))
  | .place imageID placementID row col _ _ =>
    if row < 0 ∨ col < 0 then s
    else
      let pos := ((row + 1).toInt, (col + 1).toInt)
      let s := { s with cursor := pos }
      if (s.images imageID.toNat).isSome then
        s.setShown imageID.toNat placementID.toNat (some pos)
      else s
  | .delete imageID placementID free =>
    if free then s.setImage imageID.toNat none
    else s.setShown imageID.toNat placementID.toNat none
  | .beginBatch | .flushBatch => s

/-- A call that names what it is about: an image, and a placement unless an image is freed. -/
def Names : GfxCall → Prop
  | .transmit id _ _ _ _ _ => id ≠ 0
  | .place imageID placementID _ _ _ _ => imageID ≠ 0 ∧ placementID ≠ 0
  | .delete imageID placementID free => imageID ≠ 0 ∧ (free = true ↔ placementID = 0)
  | .beginBatch | .flushBatch => True

/-- An ID is 0 as an integer exactly if it is 0. -/
theorem natCast_eq_zero {id : UInt32} : (id.toNat : Int) = 0 ↔ id = 0 := by
  rw [Int.natCast_eq_zero, ← UInt32.toNat_inj]
  rfl

/-- A whole call begins no transmission that it does not end. -/
theorem pending_call (s : Screen) (c : GfxCall) : (s.call c).pending = s.pending := by
  cases c with
  | transmit => rfl
  -- neither a placement nor a deletion is sent in chunks
  | place =>
    simp only [call]
    split
    · rfl
    · split <;> rfl
  | delete =>
    simp only [call]
    split <;> rfl
  | beginBatch => rfl
  | flushBatch => rfl

/-! ### Transmissions -/

/-- Without a pending transmission there is none to forget. -/
theorem setImage_of_pending {s : Screen} (hs : s.pending = none) (imageID : Int)
    (picture : Option Picture) :
    { s with pending := none }.setImage imageID picture = s.setImage imageID picture := by
  rw [setImage, setImage, hs]

/-- The first command of a transmission with the whole payload. -/
theorem picture?_firstPairs (c : TransmitCommand) {more : List (String × String)}
    (hs : more.lookup "s" = none) (hv : more.lookup "v" = none) (payload : Bytes) (data : Data) :
    Apc.picture? ⟨Apc.utf8Pairs (c.firstPairs more), payload⟩ (encodeToString data) =
      some ((c.imageID.toNat : Int), .of c data) := by
  obtain ⟨⟨-, hformat, himage⟩, hsize⟩ := c.first_firstPairs hs hv payload
  rw [Apc.picture?, himage, hformat, decode?_encodeToString, Picture.of]
  by_cases hraw : formatCode c.format ≠ 100
  · rw [if_pos ((TransmitCommand.raw_iff c.format).mp hraw)] at hsize
    rw [hsize.1, hsize.2, if_pos hraw]
    rfl
  · rw [if_neg (mt (TransmitCommand.raw_iff c.format).mpr hraw)] at hsize
    rw [Apc.int?, hsize.1, if_neg hraw]
    rfl

/-- The later chunks complete what the first ones began. -/
theorem actAll_nextApcs {chunks : List Bytes} (hne : chunks ≠ []) {s : Screen} {first : Apc}
    {payload : Bytes} (hs : s.pending = some (first, payload)) :
    s.actAll ((TransmitCommand.nextApcs chunks).map .graphics) =
      (first.picture? (payload ++ chunks.flatten)).bind fun x =>
        if x.1 = 0 then none else some ({ s with pending := none }.setImage x.1 (some x.2)) := by
  have hmore (more : Nat) (chunk : Bytes) :
      (Apc.mk (Apc.utf8Pairs (TransmitCommand.nextPairs more)) chunk).intD? "m" =
        some (more : Int) := Apc.intD?_of_lookup true rfl (by simp)
  fun_induction TransmitCommand.nextApcs chunks generalizing s payload with
  | case1 => exact absurd rfl hne
  -- the last chunk says that no more follow
  | case2 chunk =>
    simp only [List.map_cons, List.map_nil, actAll, List.foldlM_cons, List.foldlM_nil, act, hs,
      hmore, Screen.chunk, List.flatten_cons, List.flatten_nil, List.append_nil]
    rw [if_neg (by decide)]
    exact bind_pure _
  | case3 chunk rest hrest ih =>
    have hrest' : rest ≠ [] := by
      rintro rfl
      exact hrest rfl
    -- a chunk in between only adds to the payload
    have hstep : s.act (.graphics ⟨Apc.utf8Pairs (TransmitCommand.nextPairs 1), chunk⟩) =
        some { s with pending := some (first, payload ++ chunk) } := by
      simp only [act, hs, hmore, Screen.chunk]
      rfl
    rw [List.map_cons, actAll, List.foldlM_cons, hstep]
    change actAll _ _ = _
    rw [ih hrest' rfl, List.flatten_cons, List.append_assoc]

/-- The commands of a transmission store its image. -/
theorem actAll_apcs {s : Screen} (hs : s.pending = none) {c : TransmitCommand}
    (hid : c.imageID ≠ 0) (data : Data) :
    s.actAll ((c.apcs data).map .graphics) =
      some (s.setImage c.imageID.toNat (some (.of c data))) := by
  -- with nothing pending, a transmission is the first chunk of its image
  have hcommand (apc : Apc) (haction : apc.value? "a" = some (bytes "t")) :
      s.act (.graphics apc) = s.chunk apc apc.payload (apc.intD? "m") := by
    rw [act, hs]
    exact if_pos haction
  have hstore : (if (c.imageID.toNat : Int) = 0 then none
      else some ({ s with pending := none }.setImage c.imageID.toNat (some (.of c data)))) =
      some (s.setImage c.imageID.toNat (some (.of c data))) := by
    rw [if_neg (mt natCast_eq_zero.mp hid), setImage_of_pending hs]
  have haction (more : List (String × String)) (payload : Bytes) :
      (Apc.mk (Apc.utf8Pairs (c.firstPairs more)) payload).value? "a" = some (bytes "t") := by
    rw [Apc.value?, Apc.lookup_utf8Pairs]
    rfl
  unfold TransmitCommand.apcs
  split
  · -- one command with everything
    have hmore : (Apc.mk (Apc.utf8Pairs (c.firstPairs [])) (encodeToString data)).intD? "m" =
        some 0 := by
      have hlookup : (c.firstPairs []).lookup "m" = none := by
        rw [TransmitCommand.firstPairs]
        split <;> simp [PlaceCommand.lookup_cons_if]
      exact Apc.intD?_of_lookup false hlookup fun _ => rfl
    rw [List.map_singleton, actAll, List.foldlM_cons, hcommand _ (haction _ _), hmore,
      Screen.chunk, if_neg (by decide), picture?_firstPairs c rfl rfl, Option.bind_some, hstore]
    rfl
  · rename_i hlong
    obtain ⟨hflatten, -⟩ := splitChunks_spec (show 0 < chunkSize by decide) (encodeToString data)
    cases hchunks : splitChunks (encodeToString data) chunkSize with
    | nil =>
      rw [hchunks, List.flatten_nil] at hflatten
      rw [← hflatten] at hlong
      exact absurd (Nat.zero_le _) hlong
    | cons chunk rest =>
      rw [hchunks, List.flatten_cons] at hflatten
      have hmore (more : Nat) : (Apc.mk (Apc.utf8Pairs
          (c.firstPairs [("m", toString more)])) chunk).intD? "m" = some (more : Int) := by
        have hlookup : (c.firstPairs [("m", toString more)]).lookup "m" =
            some (toString more) := by
          rw [TransmitCommand.firstPairs]
          split <;> simp [PlaceCommand.lookup_cons_if]
        exact Apc.intD?_of_lookup true hlookup (by simp)
      simp only [List.map_cons, actAll, List.foldlM_cons]
      rw [hcommand _ (haction _ _), hmore, Screen.chunk]
      cases rest with
      | nil =>
        rw [List.flatten_nil, List.append_nil] at hflatten
        rw [hflatten, if_neg (by decide), picture?_firstPairs c rfl rfl, Option.bind_some, hstore]
        rfl
      | cons chunk' rest =>
        have hseveral : (if (chunk' :: rest).isEmpty then 0 else 1) = 1 := rfl
        rw [hseveral, Nat.cast_one, if_pos rfl]
        change actAll _ ((TransmitCommand.nextApcs (chunk' :: rest)).map .graphics) = _
        rw [actAll_nextApcs (by simp) rfl, hflatten, picture?_firstPairs c rfl rfl]
        exact hstore

/-! ### Placements and deletions -/

/-- Two sequences whose second parts differ by a map differ by that map. -/
theorem bind_eq_map_bind {α β γ : Type} {o : Option α} {f : α → Option β} {f' : α → Option γ}
    {g : β → γ} (h : ∀ a, f' a = (f a).map g) : o.bind f' = (o.bind f).map g := by
  cases o with
  | none => rfl
  | some a => exact h a

/-- The cursor is where the placement goes. -/
theorem readPlace?_cursor (apc : Apc) (row col row' col' : Int) :
    apc.readPlace? row col = (apc.readPlace? row' col').map fun r => { r with row, col } := by
  unfold Apc.readPlace?
  -- one for each of the keys
  iterate 12
    apply bind_eq_map_bind
    intro
  rfl

/-- The command of a placement displays it where the cursor is. -/
theorem act_place {s : Screen} (hs : s.pending = none) {c : PlaceCommand}
    (hid : c.imageID ≠ 0 ∧ c.placementID ≠ 0) :
    s.act (.graphics c.apc) = some (if (s.images c.imageID.toNat).isSome then
      s.setShown c.imageID.toNat c.placementID.toNat (some s.cursor) else s) := by
  have haction : c.apc.value? "a" = some (bytes "p") := by
    rw [Apc.value?, PlaceCommand.apc, Apc.lookup_utf8Pairs]
    rfl
  rw [act, hs]
  change s.command c.apc = _
  -- both IDs are given, so the placement can be kept
  have hzero : ¬ ((c.imageID.toNat : Int) = 0 ∨ (c.placementID.toNat : Int) = 0) := by
    rw [natCast_eq_zero, natCast_eq_zero, not_or]
    exact hid
  rw [command, haction, if_neg (by decide), if_pos rfl,
    readPlace?_cursor _ _ _ (c.row.toInt + 1) (c.col.toInt + 1), c.readPlace?_apc, Option.map_some,
    Option.bind_some, place, PlaceCommand.reading]
  dsimp only
  rw [if_neg hzero]
  split <;> rfl

/-- The command of a deletion removes what it names. -/
theorem act_delete {s : Screen} (hs : s.pending = none) {c : DeleteCommand}
    (hid : c.imageID ≠ 0) (hfree : c.free = true ↔ c.placementID = 0) :
    s.act (.graphics c.apc) = some (if c.free then s.setImage c.imageID.toNat none
      else s.setShown c.imageID.toNat c.placementID.toNat none) := by
  have haction : c.apc.value? "a" = some (bytes "d") := by
    rw [Apc.value?, DeleteCommand.apc, Apc.lookup_utf8Pairs]
    rfl
  -- no placement ID means the image itself
  have hzero : (c.placementID.toNat : Int) = 0 ↔ c.free = true := natCast_eq_zero.trans hfree.symm
  rw [act, hs]
  change s.command c.apc = _
  rw [command, haction, if_neg (by decide), if_neg (by decide), if_pos rfl, c.readDelete?_apc,
    Option.bind_some, delete, DeleteCommand.reading]
  dsimp only
  rw [if_neg (mt natCast_eq_zero.mp hid)]
  cases hc : c.free with
  | true =>
    rw [if_pos (hzero.mpr hc), if_pos rfl]
    rfl
  | false =>
    have hne : ¬ (c.placementID.toNat : Int) = 0 := by
      rw [hzero, hc]
      exact Bool.false_ne_true
    rw [if_neg hne, if_neg Bool.false_ne_true]
    rfl

/-! ### Calls -/

/-- The sequences of a call do what the call should do. -/
theorem read_sequences {s : Screen} (hs : s.pending = none) {c : GfxCall} (hc : Names c)
    (rest : Bytes) :
    s.read ((TTYGraphics.sequences c).flatten ++ rest) = (s.call c).read rest := by
  cases c with
  | transmit id data format width height ok =>
    have hid : id ≠ 0 := hc
    have hreadable : ∀ apc ∈ TransmitCommand.apcs ⟨id, format, width, height⟩ data,
        Readable apc := by
      intro apc happ
      exact ⟨TransmitCommand.plain_of_mem happ, (TransmitCommand.clean_of_mem happ).1⟩
    rw [TTYGraphics.sequences, TransmitCommand.serializeChunks_eq, read_render hreadable,
      actAll_apcs hs (c := ⟨id, format, width, height⟩) hid]
    rfl
  | place imageID placementID row col p ok =>
    rw [TTYGraphics.sequences, List.flatten_singleton]
    change s.read ((TTYGraphics.placeCommand imageID placementID row col p).serialize ++ rest) = _
    by_cases hneg : row < 0 ∨ col < 0
    · have hempty : (TTYGraphics.placeCommand imageID placementID row col p).serialize = [] :=
        if_pos hneg
      rw [hempty, call, if_pos hneg, List.nil_append]
    · have hzero : (0 : Int64).toInt = 0 := rfl
      have hpos := hneg
      rw [Int64.lt_iff_toInt_lt, Int64.lt_iff_toInt_lt, hzero] at hpos
      let c := TTYGraphics.placeCommand imageID placementID row col p
      let s' : Screen := { s with cursor := ((row + 1).toInt, (col + 1).toInt) }
      have hrow : 0 ≤ c.row.toInt := by
        change 0 ≤ row.toInt
        omega
      have hcol : 0 ≤ c.col.toInt := by
        change 0 ≤ col.toInt
        omega
      have hreadable : ∀ apc ∈ [c.apc], Readable apc := by
        intro apc happ
        rw [List.mem_singleton.mp happ]
        exact ⟨⟨by simp [PlaceCommand.apc, Apc.utf8Pairs, PlaceCommand.pairs],
          Apc.plain_utf8Pairs c.plainText_pairs⟩, List.not_mem_nil⟩
      have hread := read_render hreadable s' rest
      rw [List.map_singleton, List.flatten_singleton, List.map_singleton, actAll,
        List.foldlM_cons, act_place (s := s') hs (c := c) hc] at hread
      -- a cursor move, and then the command
      have htext : c.serialize ++ rest = [0x1b, 0x5b] ++ bytes (row + 1).toInt.repr ++
          Apc.semicolon :: (bytes (col + 1).toInt.repr ++ 72 :: (c.apc.render ++ rest)) := by
        rw [PlaceCommand.serialize_eq hrow hcol]
        simp only [List.append_assoc, List.cons_append, List.nil_append]
        rfl
      change s.read (c.serialize ++ rest) = _
      rw [htext, read_of_next? (Escape.next?_cursor _ _ _), act, Option.bind_some]
      change s'.read _ = _
      rw [hread, call, if_neg hneg]
      rfl
  | delete imageID placementID free =>
    let c : DeleteCommand := ⟨imageID, placementID, free⟩
    have hreadable : ∀ apc ∈ [c.apc], Readable apc := by
      intro apc happ
      rw [List.mem_singleton.mp happ]
      exact ⟨⟨by simp [DeleteCommand.apc, Apc.utf8Pairs, DeleteCommand.pairs],
        Apc.plain_utf8Pairs c.plainText_pairs⟩, List.not_mem_nil⟩
    have hread := read_render hreadable s rest
    rw [List.map_singleton, List.flatten_singleton, List.map_singleton, actAll,
      List.foldlM_cons, act_delete hs (c := c) hc.1 hc.2] at hread
    rw [TTYGraphics.sequences, List.flatten_singleton]
    change s.read (c.serialize ++ rest) = _
    rw [c.serialize_eq, hread]
    rfl
  | beginBatch => rfl
  | flushBatch => rfl

/-- The bytes of a sequence of calls do what the calls should do, one after the other. -/
theorem read_calls {s : Screen} (hs : s.pending = none) {cs : List GfxCall}
    (hcs : ∀ c ∈ cs, Names c) :
    s.read (cs.flatMap TTYGraphics.sequences).flatten = some (cs.foldl call s) := by
  induction cs generalizing s with
  | nil => rfl
  | cons c cs ih =>
    rw [List.flatMap_cons, List.flatten_append, read_sequences hs (hcs c List.mem_cons_self),
      ih ((s.pending_call c).trans hs) fun c' hc' => hcs c' (List.mem_cons_of_mem _ hc'),
      List.foldl_cons]

/-- Nor do whole calls one after another. -/
theorem pending_calls {s : Screen} (hs : s.pending = none) (cs : List GfxCall) :
    (cs.foldl call s).pending = none := by
  induction cs generalizing s with
  | nil => exact hs
  | cons c cs ih => exact ih ((s.pending_call c).trans hs)

end Screen

end Kgd
