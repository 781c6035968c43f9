import Kgd.ForStd.PrefixNotation

/-!
# The msgpack format

The type codes of msgpack as a `PrefixNotation`: how long the item is that starts with a code,
and how many values an array or a map announces.

## Key results

- `Msgpack.format`: the format, with its laws
-/

namespace Msgpack

/-- What follows a type code. -/
inductive Shape
  /-- so many bytes and then so many values -/
  | fixed (bytes operands : Nat)
  /-- a length field of so many bytes, so many more bytes, and as many as the length says -/
  | sized (width extra : Nat)
  /-- a field of so many bytes that counts elements of so many values each -/
  | counted (width valuesPerElement : Nat)
  /-- never used -/
  | invalid

/-- The type codes. -/
def shape (code : UInt8) : Shape :=
  let c := code.toNat
  -- positive fixint, fixmap, fixarray, fixstr, negative fixint
  if c < 0x80 then .fixed 0 0
  else if c < 0x90 then .fixed 0 (2 * (c - 0x80))
  else if c < 0xa0 then .fixed 0 (c - 0x90)
  else if c < 0xc0 then .fixed (c - 0xa0) 0
  else if 0xe0 ≤ c then .fixed 0 0
  else match c with
    -- nil, false, true
    | 0xc0 | 0xc2 | 0xc3 => .fixed 0 0
    -- bin, ext
    | 0xc4 => .sized 1 0
    | 0xc5 => .sized 2 0
    | 0xc6 => .sized 4 0
    | 0xc7 => .sized 1 1
    | 0xc8 => .sized 2 1
    | 0xc9 => .sized 4 1
    -- float, uint, int
    | 0xca => .fixed 4 0
    | 0xcb => .fixed 8 0
    | 0xcc | 0xd0 => .fixed 1 0
    | 0xcd | 0xd1 => .fixed 2 0
    | 0xce | 0xd2 => .fixed 4 0
    | 0xcf | 0xd3 => .fixed 8 0
    -- fixext
    | 0xd4 => .fixed 2 0
    | 0xd5 => .fixed 3 0
    | 0xd6 => .fixed 5 0
    | 0xd7 => .fixed 9 0
    | 0xd8 => .fixed 17 0
    -- str, array, map
    | 0xd9 => .sized 1 0
    | 0xda => .sized 2 0
    | 0xdb => .sized 4 0
    | 0xdc => .counted 2 1
    | 0xdd => .counted 4 1
    | 0xde => .counted 2 2
    | 0xdf => .counted 4 2
    | _ => .invalid

/-- A big-endian field. -/
def bigEndian (bs : List UInt8) : Nat := bs.foldl (fun n b => 256 * n + b.toNat) 0

/-- The length of an item after its code, and the number of its operands. -/
def tail (rest : List UInt8) : Shape → Option (Nat × Nat)
  | .fixed bytes operands => if bytes ≤ rest.length then some (bytes, operands) else none
  | .sized width extra =>
    let bytes := width + extra + bigEndian (rest.take width)
    if bytes ≤ rest.length then some (bytes, 0) else none
  | .counted width valuesPerElement =>
    if width ≤ rest.length then some (width, valuesPerElement * bigEndian (rest.take width))
    else none
  | .invalid => none

/-- The length of the first item and the number of its operands. -/
def head : List UInt8 → Option (Nat × Nat)
  | [] => none
  | code :: rest => (tail rest (shape code)).map fun item => (item.1 + 1, item.2)

/-- An item ends within its input. -/
theorem tail_le {rest : List UInt8} {s : Shape} {item : Nat × Nat} (h : tail rest s = some item) :
    item.1 ≤ rest.length := by
  cases s with
  | invalid => simp [tail] at h
  | fixed | sized | counted =>
    simp only [tail] at h
    split at h
    · rename_i hle
      rw [← Option.some.inj h]
      exact hle
    · simp at h

/-- An item is the same whatever follows it. -/
theorem tail_append {rest : List UInt8} {s : Shape} {item : Nat × Nat} (bs : List UInt8)
    (h : tail rest s = some item) : tail (rest ++ bs) s = some item := by
  have hlen : rest.length ≤ (rest ++ bs).length := by simp
  cases s with
  | invalid => simp [tail] at h
  | fixed bytes operands =>
    simp only [tail] at h ⊢
    split at h
    · rw [if_pos (by omega)]
      exact h
    · simp at h
  -- the length or count is read from the same bytes, whatever follows them
  | sized width extra | counted width =>
    simp only [tail] at h ⊢
    split at h
    · have htake : (rest ++ bs).take width = rest.take width :=
        List.take_append_of_le_length (by omega)
      rw [htake, if_pos (by omega)]
      exact h
    · simp at h

/-- The msgpack format. -/
def format : PrefixNotation UInt8 where
  head := head
  head_pos {as n k} h := by
    cases as with
    | nil => simp [head] at h
    | cons code rest =>
      obtain ⟨item, -, hitem⟩ := Option.map_eq_some_iff.mp h
      have hn : item.1 + 1 = n := congrArg Prod.fst hitem
      omega
  head_le {as n k} h := by
    cases as with
    | nil => simp [head] at h
    | cons code rest =>
      obtain ⟨item, htail, hitem⟩ := Option.map_eq_some_iff.mp h
      have hn : item.1 + 1 = n := congrArg Prod.fst hitem
      have hle := tail_le htail
      rw [List.length_cons]
      omega
  head_append {as n k} bs h := by
    cases as with
    | nil => simp [head] at h
    | cons code rest =>
      obtain ⟨item, htail, hitem⟩ := Option.map_eq_some_iff.mp h
      rw [List.cons_append, head, tail_append bs htail, Option.map_some, hitem]

/-! ## Items of fixed length -/

theorem shape_fixint {code : UInt8} (h : code.toNat < 0x80) : shape code = .fixed 0 0 := by
  simp [shape, h]

/-- A fixmap is followed by a key and a value for each entry. -/
theorem shape_fixmap {code : UInt8} (h : 0x80 ≤ code.toNat) (h' : code.toNat < 0x90) :
    shape code = .fixed 0 (2 * (code.toNat - 0x80)) := by
  rw [shape]
  rw [if_neg (by omega), if_pos h']

theorem shape_negative {code : UInt8} (h : 0xe0 ≤ code.toNat) : shape code = .fixed 0 0 := by
  rw [shape]
  rw [if_neg (by omega), if_neg (by omega), if_neg (by omega), if_neg (by omega), if_pos h]

theorem shape_fixarray {code : UInt8} (h : 0x90 ≤ code.toNat) (h' : code.toNat < 0xa0) :
    shape code = .fixed 0 (code.toNat - 0x90) := by
  rw [shape]
  rw [if_neg (by omega), if_neg (by omega), if_pos h']

/-- A fixstr is followed by its bytes. -/
theorem shape_fixstr {code : UInt8} (h : 0xa0 ≤ code.toNat) (h' : code.toNat < 0xc0) :
    shape code = .fixed (code.toNat - 0xa0) 0 := by
  rw [shape]
  rw [if_neg (by omega), if_neg (by omega), if_neg (by omega), if_pos h']

theorem shape_nil : shape 0xc0 = .fixed 0 0 := rfl

/-- The item of a code with a fixed shape, where its bytes are all there. -/
theorem item_of_shape {code : UInt8} {rest : List UInt8} {bytes operands : Nat}
    (h : shape code = .fixed bytes operands) (hle : bytes ≤ rest.length) :
    format.item (code :: rest) = some (operands, rest.drop bytes) := by
  show Option.map _ (head (code :: rest)) = _
  simp [head, h, tail, hle]

/-- A value without operands is skipped as its bytes are. -/
theorem skip_of_shape {code : UInt8} {rest : List UInt8} {bytes : Nat}
    (h : shape code = .fixed bytes 0) (hle : bytes ≤ rest.length) :
    format.skip 1 (code :: rest) = some (rest.drop bytes) := by
  rw [format.skip_of_item (item_of_shape h hle) 0, Nat.zero_add, PrefixNotation.skip_zero]

-- the array [0, 1, "list", []] and what follows it
example : format.skip 1 [0x94, 0x00, 0x01, 0xa4, 0x6c, 0x69, 0x73, 0x74, 0x90, 0xc0] =
    some [0xc0] := by decide

end Msgpack
