import Kgd.Daemon.Kitty
import Kgd.ForStd.Int64
import Kgd.ForStd.KeyValue

/-!
# Reading graphics commands

A kitty graphics command is one APC: `ESC _ G`, keys and values, a semicolon, a payload, and
`ESC \`. `Apc.parse?` reads one, and the readers for placements and deletions read what the
engine's commands say. Each command is read back as it was, and so different commands are
different on the wire.

## Key results

- `Apc.parse?_render`
- `PlaceCommand.read?_serialize`, `DeleteCommand.read?_serialize`
- `commands_decode`
-/

namespace Kgd

/-- A graphics command: its keys with their values, and its payload. -/
structure Apc where
  keys : List (Bytes × Bytes)
  payload : Bytes
  deriving DecidableEq, Repr

namespace Apc

/-- The separators `,`, `=` and `;`. -/
def comma : UInt8 := 44

def equals : UInt8 := 61

def semicolon : UInt8 := 59

/-- Read one command and nothing after it. -/
def parse? (bs : Bytes) : Option Apc :=
  match bs with
  | 0x1b :: 0x5f :: 0x47 :: bs =>
    (KeyValue.splitAt? semicolon bs).bind fun (control, bs) =>
      (KeyValue.splitAt? ESC bs).bind fun (payload, bs) =>
        if bs = [0x5c] then (KeyValue.fields? comma equals control).map (Apc.mk · payload)
        else none
  | _ => none

/-- The command as text. -/
def render (apc : Apc) : Bytes :=
  [0x1b, 0x5f, 0x47] ++ [comma].intercalate (apc.keys.map (KeyValue.field equals)) ++
    semicolon :: (apc.payload ++ [ESC, 0x5c])

/-- Keys and values without separators. -/
def Plain (keys : List (Bytes × Bytes)) : Prop :=
  ∀ p ∈ keys, (equals ∉ p.1 ∧ comma ∉ p.1 ∧ semicolon ∉ p.1) ∧ comma ∉ p.2 ∧ semicolon ∉ p.2

/-- A command is read back from its text. -/
theorem parse?_render {apc : Apc} (hne : apc.keys ≠ []) (hplain : Plain apc.keys)
    (hpayload : ESC ∉ apc.payload) : parse? apc.render = some apc := by
  -- neither keys nor values have a separator in them, and the payload has no escape
  have hsep : ∀ p ∈ apc.keys, comma ∉ KeyValue.field equals p := by
    intro p hp
    obtain ⟨⟨-, hkey, -⟩, hvalue, -⟩ := hplain p hp
    simp only [KeyValue.field, List.mem_append, List.mem_cons, not_or]
    exact ⟨hkey, by decide, hvalue⟩
  have hcontrol : semicolon ∉ [comma].intercalate (apc.keys.map (KeyValue.field equals)) := by
    refine KeyValue.not_mem_intercalate (by decide) fun l hl => ?_
    obtain ⟨p, hp, rfl⟩ := List.mem_map.mp hl
    obtain ⟨⟨-, -, hkey⟩, -, hvalue⟩ := hplain p hp
    simp only [KeyValue.field, List.mem_append, List.mem_cons, not_or]
    exact ⟨hkey, by decide, hvalue⟩
  have hkeys : KeyValue.fields? comma equals
      ([comma].intercalate (apc.keys.map (KeyValue.field equals))) = some apc.keys :=
    KeyValue.fields?_join hne (fun p hp => (hplain p hp).1.1) hsep
  have hrest : apc.payload ++ [ESC, 0x5c] = apc.payload ++ ESC :: [0x5c] := rfl
  simp only [render, List.cons_append, List.nil_append, parse?]
  rw [KeyValue.splitAt?_append hcontrol, Option.bind_some, hrest,
    KeyValue.splitAt?_append hpayload, Option.bind_some]
  simp only [↓reduceIte, hkeys, Option.map_some]

/-! ## Keys and values given as text -/

/-- The bytes of keys and values. -/
def utf8Pairs (l : List (String × String)) : List (Bytes × Bytes) :=
  l.map fun p => (bytes p.1, bytes p.2)

/-- The text of a field. -/
def fieldText (p : String × String) : String := p.1 ++ "=" ++ p.2

/-- A text is known from its bytes. -/
theorem bytes_injective {s t : String} (h : bytes s = bytes t) : s = t := by
  have harray : s.toUTF8.data = t.toUTF8.data := Array.toList_inj.mp h
  exact String.toByteArray_inj.mp (ByteArray.ext harray)

/-- The bytes of a list with commas are those of the parts with commas. -/
theorem bytes_intercalate (l : List String) :
    bytes (",".intercalate l) = [comma].intercalate (l.map bytes) := by
  induction l with
  | nil => rfl
  | cons s l ih =>
    cases l with
    | nil => rw [String.intercalate_singleton, List.map_singleton, List.intercalate_singleton]
    | cons t l =>
      rw [String.intercalate_cons_cons, bytes_append, bytes_append, ih]
      simp only [List.map_cons, List.intercalate_cons_cons]
      rfl

/-- The bytes of a key and its value. -/
theorem bytes_fieldText (p : String × String) :
    bytes (fieldText p) = KeyValue.field equals (bytes p.1, bytes p.2) := by
  rw [fieldText, bytes_append, bytes_append]
  simp only [KeyValue.field, List.append_assoc]
  rfl

/-- Joined fields are the control data of the command with these keys and values. -/
theorem bytes_control (l : List (String × String)) :
    bytes (",".intercalate (l.map fieldText)) =
      [comma].intercalate ((utf8Pairs l).map (KeyValue.field equals)) := by
  rw [bytes_intercalate, utf8Pairs, List.map_map, List.map_map]
  congr 1
  exact List.map_congr_left fun p _ => bytes_fieldText p

/-- Looking up a key by its bytes or by its text is the same. -/
theorem lookup_utf8Pairs (l : List (String × String)) (key : String) :
    (utf8Pairs l).lookup (bytes key) = (l.lookup key).map bytes := by
  induction l with
  | nil => rfl
  | cons p l ih =>
    obtain ⟨k, v⟩ := p
    simp only [utf8Pairs, List.map_cons, List.lookup_cons]
    by_cases hkey : key = k
    · simp [hkey]
    · have hbytes : bytes key ≠ bytes k := fun h => hkey (bytes_injective h)
      rw [beq_eq_false_iff_ne.mpr hkey, beq_eq_false_iff_ne.mpr hbytes]
      exact ih

/-- The value of a key. -/
def value? (apc : Apc) (key : String) : Option Bytes := apc.keys.lookup (bytes key)

/-- The value of a key that is there, as an integer. -/
def int? (apc : Apc) (key : String) : Option Int := (apc.value? key).bind KeyValue.parseInt?

/-- The value of a key as an integer, 0 where the key is absent. -/
def intD? (apc : Apc) (key : String) : Option Int :=
  match apc.value? key with
  | none => some 0
  | some value => KeyValue.parseInt? value

end Apc

/-! ## Numbers -/

/-- The bytes of a number that are no digits. -/
theorem not_mem_repr {b : UInt8} (hminus : b ≠ 45) (hdigit : ¬ (48 ≤ b ∧ b ≤ 57)) (n : Int) :
    b ∉ bytes n.repr := fun hb => (KeyValue.mem_repr hb).elim hminus hdigit

/-- A field with a plain key, and a number or another plain value. -/
def Apc.PlainText (p : String × String) : Prop :=
  (equals ∉ bytes p.1 ∧ comma ∉ bytes p.1 ∧ semicolon ∉ bytes p.1) ∧
    comma ∉ bytes p.2 ∧ semicolon ∉ bytes p.2

/-- A number as a value has nothing in it that would end it. -/
theorem Apc.plainText_repr {key : String}
    (hkey : equals ∉ bytes key ∧ comma ∉ bytes key ∧ semicolon ∉ bytes key) (n : Int) :
    PlainText (key, n.repr) :=
  ⟨hkey, not_mem_repr (by decide) (by decide) n, not_mem_repr (by decide) (by decide) n⟩

/-- Keys and values that are plain as texts are so as bytes. -/
theorem Apc.plain_utf8Pairs {l : List (String × String)} (h : ∀ p ∈ l, PlainText p) :
    Plain (utf8Pairs l) := by
  intro p hp
  obtain ⟨q, hq, rfl⟩ := List.mem_map.mp hp
  exact h q hq

/-- A key with a number, or no such key for 0. -/
theorem Apc.intD?_of_lookup {l : List (String × String)} {payload : Bytes} {key : String}
    (shown : Bool) {n : Int} (h : l.lookup key = if shown then some n.repr else none)
    (hn : shown = false → n = 0) : (Apc.mk (utf8Pairs l) payload).intD? key = some n := by
  have hvalue : (Apc.mk (utf8Pairs l) payload).value? key =
      (if shown then some n.repr else none).map bytes := by
    rw [value?, lookup_utf8Pairs, h]
  cases shown
  · rw [intD?, hvalue, hn rfl]
    rfl
  · rw [intD?, hvalue]
    exact KeyValue.parseInt?_repr n

/-! ## Placements -/

/-- What a placement command says, absent keys taken as 0. -/
structure PlaceReading where
  /-- the cursor position, 1-based -/
  row : Int
  col : Int
  action : Bytes
  imageID : Int
  placementID : Int
  width : Int
  height : Int
  srcX : Int
  srcY : Int
  srcW : Int
  srcH : Int
  zIndex : Int
  /-- `C` -/
  cursorStays : Int
  /-- `q` -/
  quiet : Int
  deriving DecidableEq, Repr

/-- Read a cursor move: row, column, and what follows. -/
def readCursor? (bs : Bytes) : Option (Int × Int × Bytes) :=
  match bs with
  | 0x1b :: 0x5b :: bs =>
    (KeyValue.splitAt? Apc.semicolon bs).bind fun (row, bs) =>
      (KeyValue.splitAt? 72 bs).bind fun (col, bs) =>
        (KeyValue.parseInt? row).bind fun row =>
          (KeyValue.parseInt? col).map fun col => (row, col, bs)
  | _ => none

/-- The keys of a placement. -/
def Apc.readPlace? (row col : Int) (apc : Apc) : Option PlaceReading := do
  let action ← apc.value? "a"
  let imageID ← apc.intD? "i"
  let placementID ← apc.intD? "p"
  let width ← apc.intD? "c"
  let height ← apc.intD? "r"
  let srcX ← apc.intD? "x"
  let srcY ← apc.intD? "y"
  let srcW ← apc.intD? "w"
  let srcH ← apc.intD? "h"
  let zIndex ← apc.intD? "z"
  let cursorStays ← apc.intD? "C"
  let quiet ← apc.intD? "q"
  return { row, col, action, imageID, placementID, width, height, srcX, srcY, srcW, srcH, zIndex,
           cursorStays, quiet }

namespace PlaceCommand

/-- Read a cursor move and one command after it, and nothing more. -/
def read? (bs : Bytes) : Option (Apc × PlaceReading) :=
  (readCursor? bs).bind fun (row, col, bs) =>
    (Apc.parse? bs).bind fun apc => (apc.readPlace? row col).map fun reading => (apc, reading)

/-- A key with its value, where there is one to show. -/
def optional (shown : Bool) (key value : String) : List (String × String) :=
  if shown then [(key, value)] else []

/-- The keys of the command with their values. -/
def pairs (c : PlaceCommand) : List (String × String) :=
  [("a", "p"), ("i", toString c.imageID)] ++
    optional (c.placementID != 0) "p" (toString c.placementID) ++
    optional (decide (0 < c.width)) "c" (toString c.width) ++
    optional (decide (0 < c.height)) "r" (toString c.height) ++
    optional (decide (0 < c.srcX)) "x" (toString c.srcX) ++
    optional (decide (0 < c.srcY)) "y" (toString c.srcY) ++
    optional (decide (0 < c.srcW)) "w" (toString c.srcW) ++
    optional (decide (0 < c.srcH)) "h" (toString c.srcH) ++
    optional (c.zIndex != 0) "z" (toString c.zIndex) ++ [("C", "1"), ("q", "2")]

/-- The text of a key as the source formats it. -/
theorem fieldText_eq {key prefixed value : String} (h : key ++ "=" = prefixed) :
    Apc.fieldText (key, value) = prefixed ++ value := by
  rw [Apc.fieldText, h]

/-- The text of a key that is only there sometimes. -/
theorem optional_eq (shown : Bool) {key prefixed value : String} (h : key ++ "=" = prefixed) :
    (optional shown key value).map Apc.fieldText =
      if shown then [prefixed ++ value] else [] := by
  cases shown
  · rfl
  · rw [optional, if_pos rfl, if_pos rfl, List.map_singleton, fieldText_eq h]

/-- The text of a key that is there for positive values. -/
theorem positiveKey_eq (key : String) (value : Int64) :
    positiveKey key value =
      (optional (decide (0 < value)) key (toString value)).map Apc.fieldText := by
  rw [optional_eq _ rfl, positiveKey]
  simp only [decide_eq_true_eq]
  rfl

/-- The parts of the command are its keys with their values. -/
theorem parts_eq (c : PlaceCommand) : c.parts = c.pairs.map Apc.fieldText := by
  -- the two keys that are shown when they are not zero
  have hplacement : (if c.placementID ≠ 0 then [s!"p={c.placementID}"] else []) =
      (optional (c.placementID != 0) "p" (toString c.placementID)).map Apc.fieldText := by
    rw [optional_eq _ (show "p" ++ "=" = "p=" from rfl)]
    simp only [bne_iff_ne]
    rfl
  have hz : (if c.zIndex ≠ 0 then [s!"z={c.zIndex}"] else []) =
      (optional (c.zIndex != 0) "z" (toString c.zIndex)).map Apc.fieldText := by
    rw [optional_eq _ (show "z" ++ "=" = "z=" from rfl)]
    simp only [bne_iff_ne]
    rfl
  have himage : ["a=p", s!"i={c.imageID}"] =
      [("a", "p"), ("i", toString c.imageID)].map Apc.fieldText := by
    rw [List.map_cons, List.map_singleton, fieldText_eq (show "i" ++ "=" = "i=" from rfl)]
    rfl
  have hlast : ["C=1", "q=2"] = [("C", "1"), ("q", "2")].map Apc.fieldText := rfl
  rw [parts, hplacement, hz, himage, hlast]
  simp only [positiveKey_eq, pairs, List.map_append]

/-- The command as a cursor move and one APC. -/
theorem serialize_eq {c : PlaceCommand} (hrow : 0 ≤ c.row.toInt) (hcol : 0 ≤ c.col.toInt) :
    c.serialize = [0x1b, 0x5b] ++ bytes (c.row + 1).toInt.repr ++
      Apc.semicolon :: (bytes (c.col + 1).toInt.repr ++
        72 :: Apc.render ⟨Apc.utf8Pairs c.pairs, []⟩) := by
  have hpos : ¬ (c.row < 0 ∨ c.col < 0) := by
    rw [Int64.lt_iff_toInt_lt, Int64.lt_iff_toInt_lt]
    have hzero : (0 : Int64).toInt = 0 := rfl
    omega
  rw [serialize, if_neg hpos, parts_eq]
  -- the fixed parts of the text, as bytes
  have hprefix : bytes "\x1b[" = [0x1b, 0x5b] := rfl
  have hsemicolon : bytes ";" = [Apc.semicolon] := rfl
  have hstart : bytes "H\x1b_G" = 72 :: [0x1b, 0x5f, 0x47] := rfl
  have hstop : bytes ";\x1b\\" = [Apc.semicolon, ESC, 0x5c] := rfl
  show bytes ("\x1b[" ++ (c.row + 1).toInt.repr ++ ";" ++ (c.col + 1).toInt.repr ++ "H\x1b_G" ++
    ",".intercalate (c.pairs.map Apc.fieldText) ++ ";\x1b\\") = _
  simp only [bytes_append, hprefix, hsemicolon, hstart, hstop, Apc.bytes_control, Apc.render,
    List.append_assoc, List.cons_append, List.nil_append]

/-- What holds of a key holds of it where it is there. -/
theorem forall_mem_optional {P : String × String → Prop} {shown : Bool} {key value : String}
    (h : P (key, value)) : ∀ p ∈ optional shown key value, P p := by
  intro p hp
  cases shown
  · exact nomatch hp
  · rw [List.mem_singleton.mp hp]
    exact h

/-- No key and no value of the command has a separator in it. -/
theorem plainText_pairs (c : PlaceCommand) : ∀ p ∈ c.pairs, Apc.PlainText p := by
  -- all keys but the fixed ones have numbers for values
  have hkey (key : String) (hkey : Apc.equals ∉ bytes key ∧ Apc.comma ∉ bytes key ∧
      Apc.semicolon ∉ bytes key) (n : Int) (shown : Bool) :
      ∀ p ∈ optional shown key n.repr, Apc.PlainText p :=
    forall_mem_optional (Apc.plainText_repr hkey n)
  simp only [pairs, List.forall_mem_append]
  refine ⟨⟨⟨⟨⟨⟨⟨⟨⟨?_, ?_⟩, ?_⟩, ?_⟩, ?_⟩, ?_⟩, ?_⟩, ?_⟩, ?_⟩, ?_⟩
  · intro p hp
    rcases List.mem_cons.mp hp with rfl | hp
    · exact ⟨by decide, by decide⟩
    · rw [List.mem_singleton.mp hp]
      exact Apc.plainText_repr (by decide) c.imageID.toNat
  · exact hkey "p" (by decide) c.placementID.toNat _
  · exact hkey "c" (by decide) c.width.toInt _
  · exact hkey "r" (by decide) c.height.toInt _
  · exact hkey "x" (by decide) c.srcX.toInt _
  · exact hkey "y" (by decide) c.srcY.toInt _
  · exact hkey "w" (by decide) c.srcW.toInt _
  · exact hkey "h" (by decide) c.srcH.toInt _
  · exact hkey "z" (by decide) c.zIndex.toInt _
  · intro p hp
    rcases List.mem_cons.mp hp with rfl | hp
    · exact ⟨by decide, by decide⟩
    · rw [List.mem_singleton.mp hp]
      exact ⟨by decide, by decide⟩

/-- A key is looked up from the front. -/
theorem lookup_cons_if (k v key : String) (l : List (String × String)) :
    ((k, v) :: l).lookup key = if key == k then some v else l.lookup key := by
  rw [List.lookup_cons]
  cases key == k <;> rfl

/-- A key that is only there sometimes is found when it is. -/
theorem lookup_optional (shown : Bool) (key value key' : String) :
    (optional shown key value).lookup key' =
      if shown && key' == key then some value else none := by
  cases shown
  · rfl
  · rw [optional, if_pos rfl, lookup_cons_if]
    rfl

/-- The command as an APC. -/
def apc (c : PlaceCommand) : Apc := ⟨Apc.utf8Pairs c.pairs, []⟩

/-- What the command says. -/
def reading (c : PlaceCommand) : PlaceReading :=
  { row := c.row.toInt + 1, col := c.col.toInt + 1, action := bytes "p",
    imageID := c.imageID.toNat, placementID := c.placementID.toNat,
    width := max 0 c.width.toInt, height := max 0 c.height.toInt,
    srcX := max 0 c.srcX.toInt, srcY := max 0 c.srcY.toInt,
    srcW := max 0 c.srcW.toInt, srcH := max 0 c.srcH.toInt,
    zIndex := c.zIndex.toInt, cursorStays := 1, quiet := 2 }

/-- A size is read back, a negative one as 0. -/
theorem intD?_positive {l : List (String × String)} {key : String} {value : Int64}
    (h : l.lookup key = if decide (0 < value) then some (toString value) else none) :
    (Apc.mk (Apc.utf8Pairs l) []).intD? key = some (max 0 value.toInt) := by
  have hzero : (0 : Int64).toInt = 0 := rfl
  have hlt : (0 < value) ↔ 0 < value.toInt := by rw [Int64.lt_iff_toInt_lt, hzero]
  refine Apc.intD?_of_lookup (decide (0 < value)) ?_ ?_
  · rw [h]
    by_cases hvalue : 0 < value
    · have hmax : max 0 value.toInt = value.toInt := by
        have := hlt.mp hvalue
        omega
      rw [hmax]
      rfl
    · simp [hvalue]
  · intro hshown
    have hnot : ¬ 0 < value := of_decide_eq_false hshown
    rw [hlt] at hnot
    omega

/-- The keys of a placement are read back. -/
theorem readPlace?_apc (c : PlaceCommand) :
    c.apc.readPlace? (c.row.toInt + 1) (c.col.toInt + 1) = some c.reading := by
  have haction : c.apc.value? "a" = some (bytes "p") := by
    rw [Apc.value?, apc, Apc.lookup_utf8Pairs]
    rfl
  have himage : c.apc.intD? "i" = some (c.imageID.toNat : Int) := by
    refine Apc.intD?_of_lookup true ?_ nofun
    rfl
  -- a placement ID of 0 is left out, and read as 0 again
  have hplacement : c.apc.intD? "p" = some (c.placementID.toNat : Int) := by
    have hlookup : c.pairs.lookup "p" =
        if c.placementID != 0 then some (toString c.placementID) else none := by
      simp [pairs, lookup_cons_if, List.lookup_append, lookup_optional]
    refine Apc.intD?_of_lookup (c.placementID != 0) hlookup fun hshown => ?_
    have hid : c.placementID = 0 := by simpa using hshown
    rw [hid]
    rfl
  have hz : c.apc.intD? "z" = some c.zIndex.toInt := by
    have hlookup : c.pairs.lookup "z" =
        if c.zIndex != 0 then some (toString c.zIndex) else none := by
      simp [pairs, lookup_cons_if, List.lookup_append, lookup_optional]
    refine Apc.intD?_of_lookup (c.zIndex != 0) hlookup fun hshown => ?_
    have hzero : c.zIndex = 0 := by simpa using hshown
    rw [hzero]
    rfl
  -- a size that is not positive is left out, and read as 0
  have hwidth : c.apc.intD? "c" = some (max 0 c.width.toInt) :=
    intD?_positive (by simp [pairs, lookup_cons_if, List.lookup_append, lookup_optional])
  have hheight : c.apc.intD? "r" = some (max 0 c.height.toInt) :=
    intD?_positive (by simp [pairs, lookup_cons_if, List.lookup_append, lookup_optional])
  have hsrcX : c.apc.intD? "x" = some (max 0 c.srcX.toInt) :=
    intD?_positive (by simp [pairs, lookup_cons_if, List.lookup_append, lookup_optional])
  have hsrcY : c.apc.intD? "y" = some (max 0 c.srcY.toInt) :=
    intD?_positive (by simp [pairs, lookup_cons_if, List.lookup_append, lookup_optional])
  have hsrcW : c.apc.intD? "w" = some (max 0 c.srcW.toInt) :=
    intD?_positive (by simp [pairs, lookup_cons_if, List.lookup_append, lookup_optional])
  have hsrcH : c.apc.intD? "h" = some (max 0 c.srcH.toInt) :=
    intD?_positive (by simp [pairs, lookup_cons_if, List.lookup_append, lookup_optional])
  have hcursor : c.apc.intD? "C" = some 1 := by
    have hlookup : c.pairs.lookup "C" = some "1" := by
      simp [pairs, lookup_cons_if, List.lookup_append, lookup_optional]
    exact Apc.intD?_of_lookup true hlookup nofun
  have hquiet : c.apc.intD? "q" = some 2 := by
    have hlookup : c.pairs.lookup "q" = some "2" := by
      simp [pairs, lookup_cons_if, List.lookup_append, lookup_optional]
    exact Apc.intD?_of_lookup true hlookup nofun
  rw [Apc.readPlace?, haction, himage, hplacement, hwidth, hheight, hsrcX, hsrcY, hsrcW, hsrcH, hz,
    hcursor, hquiet]
  rfl

/-- The cursor move is read back, and what follows is left. -/
theorem readCursor?_append (row col : Int) (rest : Bytes) :
    readCursor? ([0x1b, 0x5b] ++ bytes row.repr ++
      Apc.semicolon :: (bytes col.repr ++ 72 :: rest)) = some (row, col, rest) := by
  simp only [List.cons_append, List.nil_append, readCursor?]
  rw [KeyValue.splitAt?_append (not_mem_repr (by decide) (by decide) row), Option.bind_some,
    KeyValue.splitAt?_append (not_mem_repr (by decide) (by decide) col), Option.bind_some]
  have hrow : KeyValue.parseInt? (bytes row.repr) = some row := KeyValue.parseInt?_repr row
  have hcol : KeyValue.parseInt? (bytes col.repr) = some col := KeyValue.parseInt?_repr col
  rw [hrow, hcol]
  rfl

/-- The escape sequence of a place command is read back. -/
theorem parse?_apc (c : PlaceCommand) : Apc.parse? c.apc.render = some c.apc := by
  have hne : Apc.utf8Pairs c.pairs ≠ [] := by simp [Apc.utf8Pairs, pairs]
  exact Apc.parse?_render hne (Apc.plain_utf8Pairs c.plainText_pairs) List.not_mem_nil

/-- No key occurs twice. -/
theorem nodup_keys (c : PlaceCommand) : (c.apc.keys.map Prod.fst).Nodup := by
  have hoptional (shown : Bool) (key value : String) :
      ((optional shown key value).map Prod.fst).Sublist [key] := by
    cases shown
    · exact List.nil_sublist _
    · exact List.Sublist.refl _
  -- whichever keys are shown, they are among these
  have hsublist : (c.pairs.map Prod.fst).Sublist (["a", "i"] ++ ["p"] ++ ["c"] ++ ["r"] ++ ["x"] ++
      ["y"] ++ ["w"] ++ ["h"] ++ ["z"] ++ ["C", "q"]) := by
    simp only [pairs, List.map_append]
    repeat' apply List.Sublist.append
    all_goals first | exact hoptional _ _ _ | exact List.Sublist.refl _
  have hmap : c.apc.keys.map Prod.fst = (c.pairs.map Prod.fst).map bytes := by
    simp [apc, Apc.utf8Pairs, Function.comp_def]
  rw [hmap]
  refine List.Nodup.map (fun _ _ => Apc.bytes_injective) (hsublist.nodup (by decide))

/-- A placement command says what the command is, with one key for each thing. -/
theorem read?_serialize {c : PlaceCommand} (hrow : 0 ≤ c.row.toInt)
    (hrow' : c.row.toInt < 2 ^ 63 - 1) (hcol : 0 ≤ c.col.toInt) (hcol' : c.col.toInt < 2 ^ 63 - 1) :
    read? c.serialize = some (c.apc, c.reading) := by
  have hone : (1 : Int64).toInt = 1 := rfl
  have hrowNext : (c.row + 1).toInt = c.row.toInt + 1 :=
    Int64.toInt_add_of_lt (by omega) (by omega)
  have hcolNext : (c.col + 1).toInt = c.col.toInt + 1 :=
    Int64.toInt_add_of_lt (by omega) (by omega)
  rw [serialize_eq hrow hcol, hrowNext, hcolNext, read?, readCursor?_append, Option.bind_some]
  show (Apc.parse? c.apc.render).bind _ = _
  rw [parse?_apc, Option.bind_some, readPlace?_apc]
  rfl

/-- The command with negative sizes read as 0. -/
def nonNegative (c : PlaceCommand) : PlaceCommand :=
  let clamp (value : Int64) : Int64 := if value < 0 then 0 else value
  { c with
    width := clamp c.width, height := clamp c.height, srcX := clamp c.srcX, srcY := clamp c.srcY,
    srcW := clamp c.srcW, srcH := clamp c.srcH }

/-- Values that are equal when negative ones count as 0 are so as clamped. -/
theorem clamp_eq {value value' : Int64} (h : max 0 value.toInt = max 0 value'.toInt) :
    (if value < 0 then 0 else value) = if value' < 0 then 0 else value' := by
  have hzero : (0 : Int64).toInt = 0 := rfl
  rw [← Int64.toInt_inj]
  split <;> split <;> rename_i hneg hneg' <;>
    rw [Int64.lt_iff_toInt_lt, hzero] at hneg hneg' <;> omega

/-- What a command says determines it, up to negative sizes. -/
theorem nonNegative_of_reading {c c' : PlaceCommand} (h : c.reading = c'.reading) :
    c.nonNegative = c'.nonNegative := by
  simp only [reading, PlaceReading.mk.injEq] at h
  obtain ⟨hrow, hcol, -, himage, hplacement, hwidth, hheight, hsrcX, hsrcY, hsrcW, hsrcH, hz, -⟩ :=
    h
  have hrow' : c.row = c'.row := Int64.toInt_inj.mp (by omega)
  have hcol' : c.col = c'.col := Int64.toInt_inj.mp (by omega)
  have himage' : c.imageID = c'.imageID := UInt32.toNat_inj.mp (by omega)
  have hplacement' : c.placementID = c'.placementID := UInt32.toNat_inj.mp (by omega)
  have hz' : c.zIndex = c'.zIndex := Int32.toInt_inj.mp hz
  simp only [nonNegative, hrow', hcol', himage', hplacement', hz', clamp_eq hwidth,
    clamp_eq hheight, clamp_eq hsrcX, clamp_eq hsrcY, clamp_eq hsrcW, clamp_eq hsrcH]

end PlaceCommand

/-! ## Deletions -/

/-- What a deletion says, absent keys taken as 0. -/
structure DeleteReading where
  action : Bytes
  imageID : Int
  placementID : Int
  /-- whether the image data goes as well -/
  free : Bool
  deriving DecidableEq, Repr

/-- The keys of a deletion. -/
def Apc.readDelete? (apc : Apc) : Option DeleteReading := do
  let action ← apc.value? "a"
  let imageID ← apc.intD? "i"
  let placementID ← apc.intD? "p"
  let free ←
    if apc.value? "d" = some (bytes "I") then some true
    else if apc.value? "d" = some (bytes "i") then some false
    else none
  return { action, imageID, placementID, free }

namespace DeleteCommand

/-- Read one command and nothing more. -/
def read? (bs : Bytes) : Option (Apc × DeleteReading) :=
  (Apc.parse? bs).bind fun apc => apc.readDelete?.map fun reading => (apc, reading)

/-- The keys of the command with their values. -/
def pairs (c : DeleteCommand) : List (String × String) :=
  [("a", "d"), ("d", if c.free then "I" else "i"), ("i", toString c.imageID)] ++
    PlaceCommand.optional (c.placementID != 0) "p" (toString c.placementID) ++ [("q", "2")]

/-- The command as an APC. -/
def apc (c : DeleteCommand) : Apc := ⟨Apc.utf8Pairs c.pairs, []⟩

/-- What the command says. -/
def reading (c : DeleteCommand) : DeleteReading :=
  { action := bytes "d", imageID := c.imageID.toNat, placementID := c.placementID.toNat,
    free := c.free }

/-- The command is its keys with their values. -/
theorem serialize_eq (c : DeleteCommand) : c.serialize = c.apc.render := by
  have hstart : bytes "\x1b_Ga=d," = [0x1b, 0x5f, 0x47] ++ bytes "a=d" ++ bytes "," := rfl
  have himage : bytes ",i=" = bytes "," ++ bytes "i=" := rfl
  have hplacement : bytes ",p=" = bytes "," ++ bytes "p=" := rfl
  have hstop : bytes ",q=2;\x1b\\" = bytes "," ++ bytes "q=2" ++ [Apc.semicolon, ESC, 0x5c] := rfl
  have haction : Apc.fieldText ("a", "d") = "a=d" := rfl
  have hquiet : Apc.fieldText ("q", "2") = "q=2" := rfl
  have hfree : Apc.fieldText ("d", if c.free then "I" else "i") =
      if c.free then "d=I" else "d=i" := by
    cases c.free <;> rfl
  have hi : Apc.fieldText ("i", toString c.imageID) = "i=" ++ toString c.imageID :=
    PlaceCommand.fieldText_eq rfl
  have hp : Apc.fieldText ("p", toString c.placementID) = "p=" ++ toString c.placementID :=
    PlaceCommand.fieldText_eq rfl
  have hcomma : bytes "," = [Apc.comma] := rfl
  rw [serialize, Apc.render, apc, ← Apc.bytes_control, pairs]
  -- without a placement ID the key is left out
  by_cases hshown : c.placementID = 0
  · have hnone : (c.placementID != 0) = false := by simpa using hshown
    rw [if_neg (not_not_intro hshown), PlaceCommand.optional, hnone]
    simp only [Bool.false_eq_true, ↓reduceIte, List.append_nil, List.cons_append, List.nil_append,
      List.map_cons, List.map_nil, String.intercalate_cons_cons, String.intercalate_singleton,
      haction, hquiet, hfree, hi]
    show bytes ("\x1b_Ga=d," ++ (if c.free then "d=I" else "d=i") ++ ",i=" ++ toString c.imageID ++
      ",q=2;\x1b\\") = _
    simp only [bytes_append, hstart, himage, hstop, hcomma, List.append_assoc, List.cons_append,
      List.nil_append]
  · have hsome : (c.placementID != 0) = true := by simpa using hshown
    rw [if_pos hshown, PlaceCommand.optional, hsome]
    simp only [↓reduceIte, List.cons_append, List.nil_append,
      List.map_cons, List.map_nil, String.intercalate_cons_cons, String.intercalate_singleton,
      haction, hquiet, hfree, hi, hp]
    show bytes ("\x1b_Ga=d," ++ (if c.free then "d=I" else "d=i") ++ ",i=" ++ toString c.imageID ++
      ",p=" ++ toString c.placementID ++ ",q=2;\x1b\\") = _
    simp only [bytes_append, hstart, himage, hplacement, hstop, hcomma, List.append_assoc,
      List.cons_append, List.nil_append]

/-- No key and no value of the command has a separator in it. -/
theorem plainText_pairs (c : DeleteCommand) : ∀ p ∈ c.pairs, Apc.PlainText p := by
  simp only [pairs, List.forall_mem_append, List.forall_mem_cons]
  refine ⟨⟨⟨?_, ?_, ?_, ?_⟩, ?_⟩, ?_, ?_⟩
  · exact ⟨by decide, by decide⟩
  · cases c.free <;> exact ⟨by decide, by decide⟩
  · exact Apc.plainText_repr (by decide) c.imageID.toNat
  · exact nofun
  · exact PlaceCommand.forall_mem_optional (Apc.plainText_repr (by decide) c.placementID.toNat)
  · exact ⟨by decide, by decide⟩
  · exact nofun

/-- No key occurs twice. -/
theorem nodup_keys (c : DeleteCommand) : (c.apc.keys.map Prod.fst).Nodup := by
  have hmap : c.apc.keys.map Prod.fst = (c.pairs.map Prod.fst).map bytes := by
    simp [apc, Apc.utf8Pairs, Function.comp_def]
  rw [hmap]
  refine List.Nodup.map (fun _ _ => Apc.bytes_injective) ?_
  rw [pairs, PlaceCommand.optional]
  cases c.placementID != 0
  · show ["a", "d", "i", "q"].Nodup
    decide
  · show ["a", "d", "i", "p", "q"].Nodup
    decide

/-- The keys of a deletion are read back. -/
theorem readDelete?_apc (c : DeleteCommand) : c.apc.readDelete? = some c.reading := by
  have haction : c.apc.value? "a" = some (bytes "d") := by
    rw [Apc.value?, apc, Apc.lookup_utf8Pairs]
    rfl
  have hfree : c.apc.value? "d" = some (bytes (if c.free then "I" else "i")) := by
    rw [Apc.value?, apc, Apc.lookup_utf8Pairs]
    rfl
  have himage : c.apc.intD? "i" = some (c.imageID.toNat : Int) :=
    Apc.intD?_of_lookup true rfl nofun
  have hplacement : c.apc.intD? "p" = some (c.placementID.toNat : Int) := by
    have hlookup : c.pairs.lookup "p" =
        if c.placementID != 0 then some (toString c.placementID) else none := by
      simp [pairs, PlaceCommand.lookup_cons_if, List.lookup_append, PlaceCommand.lookup_optional]
    refine Apc.intD?_of_lookup (c.placementID != 0) hlookup fun hshown => ?_
    have hid : c.placementID = 0 := by simpa using hshown
    rw [hid]
    rfl
  have hcapital : bytes "i" ≠ bytes "I" := by decide
  rw [Apc.readDelete?, haction, himage, hplacement, hfree, reading]
  -- the letter of the key tells whether the data is freed
  cases c.free
  · simp [hcapital]
  · simp

/-- A deletion says what the command is, with one key for each thing. -/
theorem read?_serialize (c : DeleteCommand) : read? c.serialize = some (c.apc, c.reading) := by
  have hne : Apc.utf8Pairs c.pairs ≠ [] := by simp [Apc.utf8Pairs, pairs]
  have hparse : Apc.parse? c.apc.render = some c.apc :=
    Apc.parse?_render hne (Apc.plain_utf8Pairs c.plainText_pairs) List.not_mem_nil
  rw [serialize_eq, read?, hparse, Option.bind_some, readDelete?_apc]
  rfl

/-- What a deletion says determines it. -/
theorem eq_of_reading {c c' : DeleteCommand} (h : c.reading = c'.reading) : c = c' := by
  obtain ⟨imageID, placementID, free⟩ := c
  obtain ⟨imageID', placementID', free'⟩ := c'
  simp only [reading, DeleteReading.mk.injEq, true_and] at h
  obtain ⟨himage, hplacement, hfree⟩ := h
  have himage' : imageID = imageID' := UInt32.toNat_inj.mp (by omega)
  have hplacement' : placementID = placementID' := UInt32.toNat_inj.mp (by omega)
  rw [himage', hplacement', hfree]

end DeleteCommand

/-- Every placement command within the range of the cursor, and every deletion, is read back as
    what it is and has no key twice. So only commands that are equal, up to negative sizes, are
    written alike. -/
theorem commands_decode :
    (∀ c : PlaceCommand, 0 ≤ c.row.toInt → c.row.toInt < 2 ^ 63 - 1 → 0 ≤ c.col.toInt →
      c.col.toInt < 2 ^ 63 - 1 →
      PlaceCommand.read? c.serialize = some (c.apc, c.reading) ∧
        (c.apc.keys.map Prod.fst).Nodup ∧
        ∀ c' : PlaceCommand, 0 ≤ c'.row.toInt → c'.row.toInt < 2 ^ 63 - 1 → 0 ≤ c'.col.toInt →
          c'.col.toInt < 2 ^ 63 - 1 → c.serialize = c'.serialize →
          c.nonNegative = c'.nonNegative) ∧
      ∀ c : DeleteCommand, DeleteCommand.read? c.serialize = some (c.apc, c.reading) ∧
        (c.apc.keys.map Prod.fst).Nodup ∧
        ∀ c' : DeleteCommand, c.serialize = c'.serialize → c = c' := by
  constructor
  · intro c hrow hrow' hcol hcol'
    have hread := PlaceCommand.read?_serialize hrow hrow' hcol hcol'
    refine ⟨hread, c.nodup_keys, fun d hdrow hdrow' hdcol hdcol' heq => ?_⟩
    have hread' := PlaceCommand.read?_serialize hdrow hdrow' hdcol hdcol'
    -- equal bytes are read as equal commands
    rw [heq, hread', Option.some.injEq, Prod.mk.injEq] at hread
    exact PlaceCommand.nonNegative_of_reading hread.2.symm
  · intro c
    have hread := DeleteCommand.read?_serialize c
    refine ⟨hread, c.nodup_keys, fun d heq => ?_⟩
    rw [heq, DeleteCommand.read?_serialize d, Option.some.injEq, Prod.mk.injEq] at hread
    exact DeleteCommand.eq_of_reading hread.2.symm

/-- A placement of the tests, below everything else on the screen. -/
theorem commands_decode_background :
    (PlaceCommand.read?
      (PlaceCommand.serialize ⟨1, 42, 10, 5, 20, 10, 0, 0, -3, 0, -1073741825⟩)).map Prod.snd =
      some ⟨11, 6, bytes "p", 1, 42, 20, 10, 0, 0, 0, 0, -1073741825, 1, 2⟩ := by
  rw [(commands_decode.1 ⟨1, 42, 10, 5, 20, 10, 0, 0, -3, 0, -1073741825⟩ (by decide) (by decide)
    (by decide) (by decide)).1]
  rfl

end Kgd
