import Kgd.ForStd.Msgpack
import Kgd.ForStd.MsgpackBytes

/-!
# Writing msgpack values

The bytes of a `Msgpack.Value`, and what a reader makes of them that does not know 64-bit
integers.

## Key results

- `Msgpack.Value.skip_bytes`: such a reader skips a value exactly if it has no 64-bit integer
- `Msgpack.narrow_encodeInt`: an `int` is written in 32 bits exactly if it fits
-/

namespace Msgpack

/-- The bytes of a string. -/
def utf8 (s : String) : List UInt8 := s.toUTF8.data.toList

/-- The header of a string of so many bytes. -/
def strHeader (len : Nat) : List UInt8 :=
  if len < 32 then [.ofNat (0xa0 + len)]
  else if len < 256 then 0xd9 :: beBytes 1 len
  else if len < 65536 then 0xda :: beBytes 2 len
  else 0xdb :: beBytes 4 len

/-- The header of an array of so many elements. -/
def arrayHeader (len : Nat) : List UInt8 :=
  if len < 16 then [.ofNat (0x90 + len)]
  else if len < 65536 then 0xdc :: beBytes 2 len
  else 0xdd :: beBytes 4 len

/-- The header of a map of so many entries. -/
def mapHeader (len : Nat) : List UInt8 :=
  if len < 16 then [.ofNat (0x80 + len)]
  else if len < 65536 then 0xde :: beBytes 2 len
  else 0xdf :: beBytes 4 len

namespace Value

mutual

/-- The bytes that are written. -/
def bytes : Value → List UInt8
  | .nil => [0xc0]
  | .bool b => [if b then 0xc3 else 0xc2]
  | .fixint n => [n.toUInt8]
  | .uint8 n => 0xcc :: beBytes 1 n.toNat
  | .uint16 n => 0xcd :: beBytes 2 n.toNat
  | .uint32 n => 0xce :: beBytes 4 n.toNat
  | .uint64 n => 0xcf :: beBytes 8 n.toNat
  | .int8 n => 0xd0 :: beBytes 1 n.toUInt8.toNat
  | .int16 n => 0xd1 :: beBytes 2 n.toUInt16.toNat
  | .int32 n => 0xd2 :: beBytes 4 n.toUInt32.toNat
  | .int64 n => 0xd3 :: beBytes 8 n.toUInt64.toNat
  | .str s => strHeader (utf8 s).length ++ utf8 s
  | .array elems => arrayHeader elems.length ++ bytesElems elems
  | .map entries => mapHeader entries.length ++ bytesEntries entries

/-- The elements of an array. -/
def bytesElems : List Value → List UInt8
  | [] => []
  | v :: vs => v.bytes ++ bytesElems vs

/-- The entries of a map. -/
def bytesEntries : List (Value × Value) → List UInt8
  | [] => []
  | (k, v) :: entries => k.bytes ++ (v.bytes ++ bytesEntries entries)

end

mutual

/-- The length fields hold the lengths, and a fixint is in its range. -/
def Valid : Value → Prop
  | .fixint n => -32 ≤ n.toInt
  | .str s => (utf8 s).length < 4294967296
  | .array elems => elems.length < 4294967296 ∧ ValidElems elems
  | .map entries => entries.length < 4294967296 ∧ ValidEntries entries
  | .nil | .bool _ | .uint8 _ | .uint16 _ | .uint32 _ | .uint64 _ | .int8 _ | .int16 _
  | .int32 _ | .int64 _ => True

/-- `Valid`, of every element. -/
def ValidElems : List Value → Prop
  | [] => True
  | v :: vs => v.Valid ∧ ValidElems vs

/-- `Valid`, of every key and value. -/
def ValidEntries : List (Value × Value) → Prop
  | [] => True
  | (k, v) :: entries => k.Valid ∧ v.Valid ∧ ValidEntries entries

end

mutual

/-- There is no 64-bit integer in the value. -/
def narrow : Value → Bool
  | .uint64 _ | .int64 _ => false
  | .array elems => narrowElems elems
  | .map entries => narrowEntries entries
  | .nil | .bool _ | .fixint _ | .uint8 _ | .uint16 _ | .uint32 _ | .int8 _ | .int16 _
  | .int32 _ | .str _ => true

/-- `narrow`, of every element. -/
def narrowElems : List Value → Bool
  | [] => true
  | v :: vs => v.narrow && narrowElems vs

/-- `narrow`, of every key and value. -/
def narrowEntries : List (Value × Value) → Bool
  | [] => true
  | (k, v) :: entries => k.narrow && (v.narrow && narrowEntries entries)

end

/-! ## Items -/

/-- The msgpack format without 64-bit integers, floats and extensions. -/
abbrev basicFormat : PrefixNotation UInt8 := format.restrict basic

/-- What a reader knows: the basic codes, and perhaps 64-bit integers. -/
structure Knows (known : UInt8 → Bool) (wide : Bool) : Prop where
  basic : ∀ code, basic code = true → known code = true
  uint64 : known 0xcf = wide
  int64 : known 0xd3 = wide

section

variable {known : UInt8 → Bool} {wide : Bool}

/-- A code and the field after it. -/
theorem skip_field {code : UInt8} {width : Nat} (n : Nat) (hcode : known code = true)
    (hs : shape code = .fixed width 0) (rest : List UInt8) :
    (format.restrict known).skip 1 (code :: beBytes width n ++ rest) = some rest := by
  rw [List.cons_append, skip_fixed hcode hs, if_pos (by simp), PrefixNotation.skip_zero,
    List.drop_left' (length_beBytes width n)]

/-- A code that is all of its item. -/
theorem skip_single {code : UInt8} (hcode : known code = true) (hs : shape code = .fixed 0 0)
    (rest : List UInt8) : (format.restrict known).skip 1 ([code] ++ rest) = some rest := by
  rw [List.singleton_append, skip_code hcode hs, PrefixNotation.skip_zero]

/-- A fixint is skipped by every reader. -/
theorem skip_fixint (hk : Knows known wide) {n : Int8} (hn : -32 ≤ n.toInt) (rest : List UInt8) :
    (format.restrict known).skip 1 (n.toUInt8 :: rest) = some rest := by
  have hlt := n.toInt_lt
  have hnat : (n.toUInt8.toNat : Int) = n.toInt % 256 := by
    show ((n.toBitVec.toNat : Nat) : Int) = n.toBitVec.toInt % 256
    have hsize := n.toBitVec.isLt
    rw [BitVec.toInt_eq_toNat_cond]
    split <;> omega
  -- a negative fixint and a positive one have their codes at the two ends
  by_cases hneg : n.toInt < 0
  · have hcode : 0xe0 ≤ n.toUInt8.toNat := by omega
    rw [skip_code (hk.basic _ (basic_of_ge hcode)) (shape_negative hcode), PrefixNotation.skip_zero]
  · have hcode : n.toUInt8.toNat < 0x80 := by omega
    exact skip_single (hk.basic _ (basic_of_lt (by omega))) (shape_fixint hcode) rest

/-- The length field of a header says how many bytes follow. -/
theorem skip_sized_bytes {code : UInt8} {width : Nat} {payload : List UInt8}
    (hcode : known code = true) (hs : shape code = .sized width 0)
    (hlen : payload.length < 256 ^ width) (rest : List UInt8) :
    (format.restrict known).skip 1 (code :: beBytes width payload.length ++ (payload ++ rest)) =
      some rest := by
  rw [List.cons_append, skip_sized hcode hs, if_pos (by simp),
    List.take_left' (length_beBytes width _), List.drop_left' (length_beBytes width _),
    bigEndian_beBytes_of_lt hlen, if_pos (by simp), List.drop_left]

/-- A string is skipped with its header. -/
theorem skip_str (hk : Knows known wide) {s : String} (h : (utf8 s).length < 4294967296)
    (rest : List UInt8) :
    (format.restrict known).skip 1 (strHeader (utf8 s).length ++ (utf8 s ++ rest)) = some rest := by
  unfold strHeader
  split_ifs with h5 h8 h16
  -- a fixstr has its length in the code, the others in a field
  · have hcode : (UInt8.ofNat (0xa0 + (utf8 s).length)).toNat = 0xa0 + (utf8 s).length := by
      rw [UInt8.toNat_ofNat']
      omega
    rw [List.singleton_append,
      skip_fixed (hk.basic _ (basic_of_lt (by omega))) (shape_fixstr (by omega) (by omega)),
      hcode, Nat.add_sub_cancel_left, if_pos (by simp), PrefixNotation.skip_zero, List.drop_left]
  · exact skip_sized_bytes (hk.basic _ rfl) rfl (by omega) rest
  · exact skip_sized_bytes (hk.basic _ rfl) rfl (by omega) rest
  · exact skip_sized_bytes (hk.basic _ rfl) rfl (by omega) rest

/-- The count field of a header says how many values follow. -/
theorem skip_counted_values {code : UInt8} {width per count : Nat} (hcode : known code = true)
    (hs : shape code = .counted width per) (hcount : count < 256 ^ width) (rest : List UInt8) :
    (format.restrict known).skip 1 (code :: beBytes width count ++ rest) =
      (format.restrict known).skip (per * count) rest := by
  rw [List.cons_append, skip_counted hcode hs, if_pos (by simp),
    List.take_left' (length_beBytes width _), List.drop_left' (length_beBytes width _),
    bigEndian_beBytes_of_lt hcount]

/-- Behind the header of an array its elements are to be skipped. -/
theorem skip_arrayHeader (hk : Knows known wide) {len : Nat} (h : len < 4294967296)
    (rest : List UInt8) :
    (format.restrict known).skip 1 (arrayHeader len ++ rest) =
      (format.restrict known).skip len rest := by
  unfold arrayHeader
  split_ifs with h4 h16
  -- a fixarray has its length in the code, the others in a field
  · have hcode : (UInt8.ofNat (0x90 + len)).toNat = 0x90 + len := by
      rw [UInt8.toNat_ofNat']
      omega
    rw [List.singleton_append,
      skip_code (hk.basic _ (basic_of_lt (by omega))) (shape_fixarray (by omega) (by omega)), hcode,
      Nat.add_sub_cancel_left]
  · rw [skip_counted_values (hk.basic _ rfl) rfl (by omega), Nat.one_mul]
  · rw [skip_counted_values (hk.basic _ rfl) rfl (by omega), Nat.one_mul]

theorem skip_mapHeader (hk : Knows known wide) {len : Nat} (h : len < 4294967296)
    (rest : List UInt8) :
    (format.restrict known).skip 1 (mapHeader len ++ rest) =
      (format.restrict known).skip (2 * len) rest := by
  unfold mapHeader
  split_ifs with h4 h16
  -- a fixmap has its length in the code, the others in a field
  · have hcode : (UInt8.ofNat (0x80 + len)).toNat = 0x80 + len := by
      rw [UInt8.toNat_ofNat']
      omega
    rw [List.singleton_append,
      skip_code (hk.basic _ (basic_of_lt (by omega))) (shape_fixmap (by omega) (by omega)), hcode,
      Nat.add_sub_cancel_left]
  · exact skip_counted_values (hk.basic _ rfl) rfl (by omega) rest
  · exact skip_counted_values (hk.basic _ rfl) rfl (by omega) rest

/-! ## Values -/

/-- A 64-bit integer is skipped if its code is known. -/
theorem skip_wide {code : UInt8} (n : Nat) (hcode : known code = wide)
    (hs : shape code = .fixed 8 0) (rest : List UInt8) :
    (format.restrict known).skip 1 (code :: beBytes 8 n ++ rest) =
      if wide then some rest else none := by
  cases wide with
  | true => exact skip_field n hcode hs rest
  | false => exact skip_restrict_unknown hcode 0

mutual

/-- A reader skips a value exactly if it knows 64-bit integers or the value has none. -/
theorem skip_bytes_known (hk : Knows known wide) {v : Value} (h : v.Valid) (rest : List UInt8) :
    (format.restrict known).skip 1 (v.bytes ++ rest) =
      if wide || v.narrow then some rest else none := by
  match v with
  | .nil | .bool true | .bool false =>
    simp only [narrow, Bool.or_true, if_true]
    exact skip_single (hk.basic _ rfl) rfl rest
  | .fixint n =>
    simp only [narrow, Bool.or_true, if_true]
    exact skip_fixint hk h rest
  | .uint8 n | .uint16 n | .uint32 n | .int8 n | .int16 n | .int32 n =>
    simp only [narrow, Bool.or_true, if_true]
    exact skip_field _ (hk.basic _ rfl) rfl rest
  -- the two values that only a wide reader knows
  | .uint64 n =>
    rw [narrow, Bool.or_false]
    exact skip_wide _ hk.uint64 rfl rest
  | .int64 n =>
    rw [narrow, Bool.or_false]
    exact skip_wide _ hk.int64 rfl rest
  | .str s =>
    rw [bytes, List.append_assoc, narrow, Bool.or_true]
    exact skip_str hk h rest
  | .array elems =>
    rw [bytes, List.append_assoc, skip_arrayHeader hk h.1]
    exact skip_bytesElems_known hk h.2 rest
  | .map entries =>
    rw [bytes, List.append_assoc, skip_mapHeader hk h.1]
    exact skip_bytesEntries_known hk h.2 rest

/-- The elements of an array are skipped where each of them is. -/
theorem skip_bytesElems_known (hk : Knows known wide) {vs : List Value} (h : ValidElems vs)
    (rest : List UInt8) :
    (format.restrict known).skip vs.length (bytesElems vs ++ rest) =
      if wide || narrowElems vs then some rest else none := by
  match vs with
  | [] =>
    rw [narrowElems, Bool.or_true]
    exact PrefixNotation.skip_zero _ rest
  | v :: vs =>
    rw [List.length_cons, Nat.add_comm, PrefixNotation.skip_add, bytesElems, List.append_assoc,
      skip_bytes_known hk h.1, narrowElems, Bool.or_and_distrib_left]
    -- an element the reader does not know ends it for all that follow
    cases wide || v.narrow with
    | true => exact skip_bytesElems_known hk h.2 rest
    | false => rfl

theorem skip_bytesEntries_known (hk : Knows known wide) {entries : List (Value × Value)}
    (h : ValidEntries entries) (rest : List UInt8) :
    (format.restrict known).skip (2 * entries.length) (bytesEntries entries ++ rest) =
      if wide || narrowEntries entries then some rest else none := by
  match entries with
  | [] =>
    rw [narrowEntries, Bool.or_true]
    exact PrefixNotation.skip_zero _ rest
  | (k, v) :: entries =>
    -- a key, a value and the other entries
    rw [List.length_cons, show 2 * (entries.length + 1) = 1 + (1 + 2 * entries.length) by omega,
      PrefixNotation.skip_add, bytesEntries, List.append_assoc, List.append_assoc,
      skip_bytes_known hk h.1, narrowEntries, Bool.or_and_distrib_left, Bool.or_and_distrib_left]
    cases wide || k.narrow with
    | false => rfl
    | true =>
      show ((format.restrict known).skip (1 + 2 * entries.length)
        (v.bytes ++ (bytesEntries entries ++ rest))) = _
      rw [PrefixNotation.skip_add, skip_bytes_known hk h.2.1]
      cases wide || v.narrow with
      | false => rfl
      | true => exact skip_bytesEntries_known hk h.2.2 rest

end

end

/-- A reader that does not know 64-bit integers skips a value exactly if it has none. -/
theorem skip_bytes {v : Value} (h : v.Valid) (rest : List UInt8) :
    basicFormat.skip 1 (v.bytes ++ rest) = if v.narrow then some rest else none :=
  skip_bytes_known ⟨fun _ h => h, rfl, rfl⟩ h rest

end Value

/-! ## Integers -/

/-- A fixint holds what it is chosen for. -/
theorem valid_encodeInt (n : Int64) : (encodeInt n).Valid := by
  have hfixint : -32 ≤ n.toInt → n.toInt ≤ 127 → (Value.fixint n.toInt8).Valid := by
    intro hmin hmax
    show -32 ≤ n.toInt8.toInt
    rw [Int64.toInt_toInt8, Int.bmod_eq_of_le (by omega) (by omega)]
    exact hmin
  have hcast := toNat_toUInt64 n
  -- only a fixint has a range of its own to stay in
  rw [encodeInt_eq]
  split_ifs with h0 h127 _ _ _ hneg
  · have hsame := hcast h0
    exact hfixint (by omega) (by omega)
  · trivial
  · trivial
  · trivial
  · trivial
  · exact hfixint hneg (by omega)
  · trivial
  · trivial
  · trivial
  · trivial

/-- An `int` is written in at most 32 bits exactly if it fits. -/
theorem narrow_encodeInt (n : Int64) :
    (encodeInt n).narrow = true ↔ -2147483648 ≤ n.toInt ∧ n.toInt < 4294967296 := by
  have hcast := toNat_toUInt64 n
  rw [encodeInt_eq]
  split_ifs with h0
  all_goals
    simp only [Value.narrow, Bool.false_eq_true, true_iff, false_iff]
    omega

end Msgpack
