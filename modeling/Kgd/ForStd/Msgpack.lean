import Mathlib.Data.List.Basic

/-!
# Msgpack values and dynamic Go values

`Msgpack.Value` is a msgpack value as it is written: an integer has the type code it was
written with. `Msgpack.Any` is what a Go decoder leaves in an empty interface, where each
integer has the Go type of its code. An encoder writes an integer of fixed width with its own
code and an `int` in the smallest form that holds it.

What a Go library does is a `Library` with laws, so that what follows from the laws does not
depend on how it does it.

## Key results

- `Library.Lawful.decode_encodeInt`: an `int` comes back with its value, and with a 16-bit type
  exactly if its smallest form has 16 bits
- `lawful_library`: `encodeInt` and `decodeInterface` are such a library
-/

namespace Msgpack

/-- A msgpack value as it is written. -/
inductive Value
  | nil
  | bool (b : Bool)
  /-- a positive or negative fixint -/
  | fixint (n : Int8)
  | uint8 (n : UInt8)
  | uint16 (n : UInt16)
  | uint32 (n : UInt32)
  | uint64 (n : UInt64)
  | int8 (n : Int8)
  | int16 (n : Int16)
  | int32 (n : Int32)
  | int64 (n : Int64)
  | str (s : String)
  | array (elems : List Value)
  | map (entries : List (Value × Value))

/-- A Go value of type `any`. -/
inductive Any
  | nil
  | bool (b : Bool)
  | uint8 (n : UInt8)
  | uint16 (n : UInt16)
  | uint32 (n : UInt32)
  | uint64 (n : UInt64)
  | int8 (n : Int8)
  | int16 (n : Int16)
  | int32 (n : Int32)
  | int64 (n : Int64)
  | string (s : String)
  /-- `[]any` -/
  | slice (elems : List Any)
  /-- `map[string]any`, as it was filled -/
  | map (entries : List (String × Any))

/-! ## Encoding integers -/

/-- `EncodeUint`: the smallest form. -/
def encodeUint (n : UInt64) : Value :=
  if n ≤ 127 then .fixint n.toUInt8.toInt8
  else if n ≤ 255 then .uint8 n.toUInt8
  else if n ≤ 65535 then .uint16 n.toUInt16
  else if n ≤ 4294967295 then .uint32 n.toUInt32
  else .uint64 n

/-- `EncodeInt`: the smallest form. -/
def encodeInt (n : Int64) : Value :=
  if 0 ≤ n then encodeUint n.toUInt64
  else if -32 ≤ n then .fixint n.toInt8
  else if -128 ≤ n then .int8 n.toInt8
  else if -32768 ≤ n then .int16 n.toInt16
  else if -2147483648 ≤ n then .int32 n.toInt32
  else .int64 n

/-! ## Decoding into an empty interface -/

mutual

/-- `DecodeInterface`. The keys of a map have to be strings. -/
def decodeInterface : Value → Option Any
  | .nil => some .nil
  | .bool b => some (.bool b)
  | .fixint n | .int8 n => some (.int8 n)
  | .uint8 n => some (.uint8 n)
  | .uint16 n => some (.uint16 n)
  | .uint32 n => some (.uint32 n)
  | .uint64 n => some (.uint64 n)
  | .int16 n => some (.int16 n)
  | .int32 n => some (.int32 n)
  | .int64 n => some (.int64 n)
  | .str s => some (.string s)
  | .array elems => (decodeSlice elems).map .slice
  | .map entries => (decodeMap entries).map .map

/-- The elements of an array. -/
def decodeSlice : List Value → Option (List Any)
  | [] => some []
  | v :: vs => do
    let a ← decodeInterface v
    let as ← decodeSlice vs
    return a :: as

/-- The entries of a map. -/
def decodeMap : List (Value × Value) → Option (List (String × Any))
  | [] => some []
  | (.str key, v) :: rest => do
    let a ← decodeInterface v
    let as ← decodeMap rest
    return (key, a) :: as
  | _ :: _ => none

end

/-- `m[key]`: the entry that was stored last. -/
def index (m : List (String × Any)) (key : String) : Option Any :=
  m.reverse.lookup key

/-! ## Integers as they come back -/

namespace Any

/-- The value of an integer, whatever its type. -/
def int? : Any → Option Int
  | .uint8 n => some n.toNat
  | .uint16 n => some n.toNat
  | .uint32 n => some n.toNat
  | .uint64 n => some n.toNat
  | .int8 n => some n.toInt
  | .int16 n => some n.toInt
  | .int32 n => some n.toInt
  | .int64 n => some n.toInt
  | .nil | .bool _ | .string _ | .slice _ | .map _ => none

/-- The value is an integer of a 16-bit type. -/
def isSixteen : Any → Bool
  | .uint16 _ | .int16 _ => true
  | .nil | .bool _ | .uint8 _ | .uint32 _ | .uint64 _ | .int8 _ | .int32 _ | .int64 _
  | .string _ | .slice _ | .map _ => false

end Any

/-- A non-negative integer is the same in 64 bits without a sign. -/
theorem toNat_toUInt64 (n : Int64) (h : 0 ≤ n.toInt) : (n.toUInt64.toNat : Int) = n.toInt := by
  rw [Int64.toNat_toUInt64_of_le (Int64.le_iff_toInt_le.mpr h)]
  exact Int.toNat_of_nonneg h

/-! ## Libraries -/

/-- What is used of a msgpack library for Go. -/
structure Library where
  encodeInt : Int64 → Value
  decodeInterface : Value → Option Any

namespace Library

/-- `EncodeInt` writes an integer in the smallest form that holds it. -/
structure SmallestForm (lib : Library) : Prop where
  fixint {n : Int64} : -32 ≤ n.toInt → n.toInt ≤ 127 → lib.encodeInt n = .fixint n.toInt8
  uint8 {n : Int64} : 128 ≤ n.toInt → n.toInt ≤ 255 →
    lib.encodeInt n = .uint8 n.toUInt64.toUInt8
  uint16 {n : Int64} : 256 ≤ n.toInt → n.toInt ≤ 65535 →
    lib.encodeInt n = .uint16 n.toUInt64.toUInt16
  uint32 {n : Int64} : 65536 ≤ n.toInt → n.toInt ≤ 4294967295 →
    lib.encodeInt n = .uint32 n.toUInt64.toUInt32
  uint64 {n : Int64} : 4294967296 ≤ n.toInt → lib.encodeInt n = .uint64 n.toUInt64
  int8 {n : Int64} : -128 ≤ n.toInt → n.toInt < -32 → lib.encodeInt n = .int8 n.toInt8
  int16 {n : Int64} : -32768 ≤ n.toInt → n.toInt < -128 → lib.encodeInt n = .int16 n.toInt16
  int32 {n : Int64} : -2147483648 ≤ n.toInt → n.toInt < -32768 →
    lib.encodeInt n = .int32 n.toInt32
  int64 {n : Int64} : n.toInt < -2147483648 → lib.encodeInt n = .int64 n

/-- `DecodeInterface` gives a value the Go type of its code, `int8` to a fixint; a map with
    string keys becomes a `map[string]any`. -/
structure DecodesByCode (lib : Library) : Prop where
  nil : lib.decodeInterface .nil = some .nil
  bool (b : Bool) : lib.decodeInterface (.bool b) = some (.bool b)
  fixint (n : Int8) : lib.decodeInterface (.fixint n) = some (.int8 n)
  uint8 (n : UInt8) : lib.decodeInterface (.uint8 n) = some (.uint8 n)
  uint16 (n : UInt16) : lib.decodeInterface (.uint16 n) = some (.uint16 n)
  uint32 (n : UInt32) : lib.decodeInterface (.uint32 n) = some (.uint32 n)
  uint64 (n : UInt64) : lib.decodeInterface (.uint64 n) = some (.uint64 n)
  int8 (n : Int8) : lib.decodeInterface (.int8 n) = some (.int8 n)
  int16 (n : Int16) : lib.decodeInterface (.int16 n) = some (.int16 n)
  int32 (n : Int32) : lib.decodeInterface (.int32 n) = some (.int32 n)
  int64 (n : Int64) : lib.decodeInterface (.int64 n) = some (.int64 n)
  str (s : String) : lib.decodeInterface (.str s) = some (.string s)
  array {vs : List Value} {as : List Any} :
    List.Forall₂ (fun v a => lib.decodeInterface v = some a) vs as →
      lib.decodeInterface (.array vs) = some (.slice as)
  map {fields : List (String × Value)} {entries : List (String × Any)} :
    List.Forall₂ (fun f e => f.1 = e.1 ∧ lib.decodeInterface f.2 = some e.2) fields entries →
      lib.decodeInterface (.map (fields.map fun (key, v) => (.str key, v))) = some (.map entries)

/-- The library does what its documentation says, with default flags. -/
structure Lawful (lib : Library) : Prop where
  smallest : lib.SmallestForm
  byCode : lib.DecodesByCode

variable {lib : Library}

/-- An integer comes back with its value, and with 16 bits in two ranges. -/
theorem Lawful.decode_encodeInt (h : lib.Lawful) (n : Int64) :
    ∃ a, lib.decodeInterface (lib.encodeInt n) = some a ∧ a.int? = some n.toInt ∧
      (a.isSixteen = true ↔
        256 ≤ n.toInt ∧ n.toInt ≤ 65535 ∨ -32768 ≤ n.toInt ∧ n.toInt ≤ -129) := by
  obtain ⟨hform, hcode⟩ := h
  have hmax := n.toInt_lt
  have hmin := n.le_toInt
  -- the ranges of the forms, from below
  by_cases h64 : n.toInt < -2147483648
  · rw [hform.int64 h64, hcode.int64]
    exact ⟨_, rfl, rfl, by simp [Any.isSixteen]; omega⟩
  by_cases h32 : n.toInt < -32768
  · rw [hform.int32 (by omega) h32, hcode.int32]
    refine ⟨_, rfl, ?_, by simp [Any.isSixteen]; omega⟩
    rw [Any.int?, Int64.toInt_toInt32, Int.bmod_eq_of_le (by omega) (by omega)]
  by_cases h16 : n.toInt < -128
  · rw [hform.int16 (by omega) h16, hcode.int16]
    refine ⟨_, rfl, ?_, by simp [Any.isSixteen]; omega⟩
    rw [Any.int?, Int64.toInt_toInt16, Int.bmod_eq_of_le (by omega) (by omega)]
  by_cases h8 : n.toInt < -32
  · rw [hform.int8 (by omega) h8, hcode.int8]
    refine ⟨_, rfl, ?_, by simp [Any.isSixteen]; omega⟩
    rw [Any.int?, Int64.toInt_toInt8, Int.bmod_eq_of_le (by omega) (by omega)]
  by_cases h7 : n.toInt ≤ 127
  · rw [hform.fixint (by omega) h7, hcode.fixint]
    refine ⟨_, rfl, ?_, by simp [Any.isSixteen]; omega⟩
    rw [Any.int?, Int64.toInt_toInt8, Int.bmod_eq_of_le (by omega) (by omega)]
  have hcast := toNat_toUInt64 n (by omega)
  by_cases hu8 : n.toInt ≤ 255
  · rw [hform.uint8 (by omega) hu8, hcode.uint8]
    refine ⟨_, rfl, ?_, by simp [Any.isSixteen]; omega⟩
    simp [Any.int?]; omega
  by_cases hu16 : n.toInt ≤ 65535
  · rw [hform.uint16 (by omega) hu16, hcode.uint16]
    refine ⟨_, rfl, ?_, by simp [Any.isSixteen]; omega⟩
    simp [Any.int?]; omega
  by_cases hu32 : n.toInt ≤ 4294967295
  · rw [hform.uint32 (by omega) hu32, hcode.uint32]
    refine ⟨_, rfl, ?_, by simp [Any.isSixteen]; omega⟩
    simp [Any.int?]; omega
  · rw [hform.uint64 (by omega), hcode.uint64]
    exact ⟨_, rfl, by rw [Any.int?, hcast], by simp [Any.isSixteen]; omega⟩

end Library

/-- A library with `encodeInt` and `decodeInterface` as above. -/
def library : Library := ⟨encodeInt, decodeInterface⟩

/-- `encodeInt`, its tests as comparisons of integers. -/
theorem encodeInt_eq (n : Int64) :
    encodeInt n =
      if 0 ≤ n.toInt then
        if n.toUInt64.toNat ≤ 127 then .fixint n.toInt8
        else if n.toUInt64.toNat ≤ 255 then .uint8 n.toUInt64.toUInt8
        else if n.toUInt64.toNat ≤ 65535 then .uint16 n.toUInt64.toUInt16
        else if n.toUInt64.toNat ≤ 4294967295 then .uint32 n.toUInt64.toUInt32
        else .uint64 n.toUInt64
      else if -32 ≤ n.toInt then .fixint n.toInt8
      else if -128 ≤ n.toInt then .int8 n.toInt8
      else if -32768 ≤ n.toInt then .int16 n.toInt16
      else if -2147483648 ≤ n.toInt then .int32 n.toInt32
      else .int64 n := by
  -- a negative fixint is written as a byte, whose sign extension is the number
  have hbyte : n.toUInt64.toUInt8.toInt8 = n.toInt8 := by
    apply Int8.toBitVec_inj.mp
    simp [BitVec.signExtend_eq_setWidth_of_le]
  simp only [encodeInt, encodeUint, Int64.le_iff_toInt_le, UInt64.le_iff_toNat_le, hbyte]
  rfl

/-- The branch of `encodeInt` for a range is its smallest form. -/
theorem smallestForm_library : library.SmallestForm := by
  constructor
  all_goals
    intro n
    intros
    have hcast := toNat_toUInt64 n
    show encodeInt n = _
    rw [encodeInt_eq]
    -- in every other branch a comparison contradicts the range
    split_ifs <;> first | rfl | omega

/-- Elements that are decoded one by one. -/
theorem decodeSlice_of_forall₂ {vs : List Value} {as : List Any}
    (h : List.Forall₂ (fun v a => decodeInterface v = some a) vs as) :
    decodeSlice vs = some as := by
  induction h with
  | nil => rfl
  | cons ha _ ih => simp [decodeSlice, ha, ih]

/-- Entries that are decoded one by one. -/
theorem decodeMap_of_forall₂ {fields : List (String × Value)} {entries : List (String × Any)}
    (h : List.Forall₂ (fun f e => f.1 = e.1 ∧ decodeInterface f.2 = some e.2) fields entries) :
    decodeMap (fields.map fun (key, v) => (.str key, v)) = some entries := by
  induction h with
  | nil => rfl
  | @cons f e fields entries he _ ih =>
    obtain ⟨hkey, hvalue⟩ := he
    simp [decodeMap, hvalue, ih, hkey]

/-- It gives each integer back as the type of its code. -/
theorem decodesByCode_library : library.DecodesByCode where
  nil := rfl
  bool _ := rfl
  fixint _ := rfl
  uint8 _ := rfl
  uint16 _ := rfl
  uint32 _ := rfl
  uint64 _ := rfl
  int8 _ := rfl
  int16 _ := rfl
  int32 _ := rfl
  int64 _ := rfl
  str _ := rfl
  array h := by
    show decodeInterface (.array _) = _
    rw [decodeInterface, decodeSlice_of_forall₂ h]
    rfl
  map h := by
    show decodeInterface (.map _) = _
    rw [decodeInterface, decodeMap_of_forall₂ h]
    rfl

/-- The laws can be met: there is a library that does. -/
theorem lawful_library : library.Lawful := ⟨smallestForm_library, decodesByCode_library⟩

end Msgpack
