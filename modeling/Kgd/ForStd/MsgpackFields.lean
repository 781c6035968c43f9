import Kgd.ForStd.ByteReader

/-!
# Reading a map of fields

A map from names to integers and strings, in any of the forms that msgpack has for them.

## Key results

- `Msgpack.reads_fixint` to `Msgpack.reads_str32`: each form is read as the value it stands for
- `Msgpack.reads_fields`: a header with its count and the entries one after another
- `Msgpack.ensures_readFields`: a string that is read is shorter than 2^32 bytes
-/

namespace Msgpack

open ByteReader

/-- An integer or a string. -/
inductive Scalar
  | int (n : Int)
  | str (s : List UInt8)
  deriving DecidableEq

/-- A name and its value. -/
abbrev Field := List UInt8 × Scalar

def readByte : ByteReader Unit UInt8
  | b :: buf => .ok (b, buf)
  | [] => .error ()

/-- A big-endian field. -/
def readNat (width : Nat) : ByteReader Unit Nat := fun buf =>
  if width ≤ buf.length then .ok (bigEndian (buf.take width), buf.drop width) else .error ()

def readSlice (len : Nat) : ByteReader Unit (List UInt8) := fun buf =>
  if buf.length < len then .error () else .ok (buf.take len, buf.drop len)

/-- A field in two's complement. -/
def readInt (width : Nat) : ByteReader Unit Int := do
  let n ← readNat width
  return Int.bmod n (256 ^ width)

/-- A string after its length. -/
def readSized (width : Nat) : ByteReader Unit Scalar := do
  let len ← readNat width
  return .str (← readSlice len)

/-- A scalar past its first byte. -/
def readScalarTag (code : Nat) : ByteReader Unit Scalar :=
  if code < 0x80 then return .int code
  else if 0xe0 ≤ code then return .int (code - 256)
  else if 0xa0 ≤ code ∧ code < 0xc0 then return .str (← readSlice (code - 0xa0))
  else match code with
    | 0xcc => return .int (← readNat 1)
    | 0xcd => return .int (← readNat 2)
    | 0xce => return .int (← readNat 4)
    | 0xcf => return .int (← readNat 8)
    | 0xd0 => return .int (← readInt 1)
    | 0xd1 => return .int (← readInt 2)
    | 0xd2 => return .int (← readInt 4)
    | 0xd3 => return .int (← readInt 8)
    | 0xd9 => readSized 1
    | 0xda => readSized 2
    | 0xdb => readSized 4
    | _ => throw ()

def readScalar : ByteReader Unit Scalar := do
  let code ← readByte
  readScalarTag code.toNat

/-- The number of entries of a map. -/
def readMapHeader : ByteReader Unit Nat := do
  let code ← readByte
  if 0x80 ≤ code.toNat ∧ code.toNat < 0x90 then return code.toNat - 0x80
  else match code.toNat with
    | 0xde => readNat 2
    | 0xdf => readNat 4
    | _ => throw ()

/-- An entry, whose key has to be a string. -/
def readField : ByteReader Unit Field := do
  match ← readScalar with
  | .str key => return (key, ← readScalar)
  | .int _ => throw ()

def readEntries : Nat → ByteReader Unit (List Field)
  | 0 => return []
  | n + 1 => do
    let field ← readField
    let fields ← readEntries n
    return field :: fields

/-- A map of fields, in the order in which it was written. -/
def readFields : ByteReader Unit (List Field) := do
  let n ← readMapHeader
  readEntries n

/-! ## Fields -/

theorem readNat_isField (width : Nat) : IsField () (readNat width) width := fun _ => rfl

theorem readSlice_isSlice : IsSlice () readSlice := fun _ _ => rfl

theorem reads_byte (b : UInt8) : Reads readByte b [b] := fun _ => rfl

/-- A code, and what is read after it. -/
theorem reads_tag (code : UInt8) {v : Scalar} {bytes : List UInt8}
    (h : Reads (readScalarTag code.toNat) v bytes) : Reads readScalar v (code :: bytes) :=
  (reads_byte code).bind h

/-! ## Integers -/

/-- A small number is read from its code. -/
theorem reads_fixint {n : Nat} (h : n < 128) : Reads readScalar (.int n) [.ofNat n] := by
  apply reads_tag _
  have hcode : (UInt8.ofNat n).toNat = n := by
    rw [UInt8.toNat_ofNat']
    omega
  unfold readScalarTag
  rw [hcode, if_pos h]
  exact Reads.pure _

theorem reads_negative {n : Int} (hmin : -32 ≤ n) (hneg : n < 0) :
    Reads readScalar (.int n) [.ofNat (n % 256).toNat] := by
  apply reads_tag _
  have hcode : (UInt8.ofNat (n % 256).toNat).toNat = (n % 256).toNat := by
    rw [UInt8.toNat_ofNat']
    omega
  unfold readScalarTag
  rw [hcode, if_neg (by omega), if_pos (by omega)]
  have hn : ((n % 256).toNat : Int) - 256 = n := by omega
  rw [hn]
  exact Reads.pure _

/-- An unsigned field holds its number up to the width. -/
theorem reads_nat (width n : Nat) :
    Reads (readNat width >>= fun n => pure (Scalar.int n)) (.int (n % 256 ^ width : Nat))
      (beBytes width n) :=
  ((readNat_isField width).reads_mod n).bind_pure fun n => Scalar.int n

/-- A signed field holds its number up to the width. -/
theorem reads_int (width n : Nat) :
    Reads (readInt width >>= fun n => pure (Scalar.int n)) (.int (Int.bmod n (256 ^ width)))
      (beBytes width n) := by
  have hread := ((readNat_isField width).reads_mod n).bind_pure
    fun n => Int.bmod n (256 ^ width)
  have hmod : Int.bmod (n % 256 ^ width : Nat) (256 ^ width) = Int.bmod n (256 ^ width) := by
    rw [Int.natCast_emod, Int.emod_bmod]
  rw [hmod] at hread
  exact hread.bind_pure Scalar.int

/-! ## Strings -/

/-- A short string is read behind its code. -/
theorem reads_fixstr {s : List UInt8} (h : s.length < 32) :
    Reads readScalar (.str s) (.ofNat (0xa0 + s.length) :: s) := by
  apply reads_tag _
  have hcode : (UInt8.ofNat (0xa0 + s.length)).toNat = 0xa0 + s.length := by
    rw [UInt8.toNat_ofNat']
    omega
  unfold readScalarTag
  rw [hcode, if_neg (by omega), if_neg (by omega), if_pos (by omega), Nat.add_sub_cancel_left]
  exact (readSlice_isSlice.reads s).bind_pure Scalar.str

/-- A string is read behind its length. -/
theorem reads_sized {s : List UInt8} (width : Nat) (h : s.length < 256 ^ width) :
    Reads (readSized width) (.str s) (beBytes width s.length ++ s) :=
  ((readNat_isField width).reads h).bind ((readSlice_isSlice.reads s).bind_pure Scalar.str)

/-! ## Maps -/

theorem reads_fixmap {n : Nat} (h : n < 16) : Reads readMapHeader n [.ofNat (0x80 + n)] := by
  have hcode : (UInt8.ofNat (0x80 + n)).toNat = 0x80 + n := by
    rw [UInt8.toNat_ofNat']
    omega
  -- of the branches of `readMapHeader` the first one is taken
  have hcount : Reads (if 0x80 ≤ (UInt8.ofNat (0x80 + n)).toNat ∧
        (UInt8.ofNat (0x80 + n)).toNat < 0x90 then
      (pure ((UInt8.ofNat (0x80 + n)).toNat - 0x80) : ByteReader Unit Nat)
      else match (UInt8.ofNat (0x80 + n)).toNat with
        | 0xde => readNat 2
        | 0xdf => readNat 4
        | _ => throw ()) n [] := by
    rw [hcode, if_pos (by omega), Nat.add_sub_cancel_left]
    exact Reads.pure n
  exact (reads_byte _).bind hcount

/-- A field is read as a key and a value. -/
theorem reads_field {key bytes bytes' : List UInt8} {v : Scalar}
    (hkey : Reads readScalar (.str key) bytes) (hv : Reads readScalar v bytes') :
    Reads readField (key, v) (bytes ++ bytes') :=
  hkey.bind (hv.bind_pure fun v => (key, v))

variable {α : Type} {write : α → List UInt8} {value : α → Field} {xs : List α}

/-- Entries one after another. -/
theorem reads_entries (h : ∀ x ∈ xs, Reads readField (value x) (write x)) :
    Reads (readEntries xs.length) (xs.map value) (xs.flatMap write) := by
  induction xs with
  | nil => exact Reads.pure []
  | cons x xs ih =>
    have hfirst := h x List.mem_cons_self
    have hrest := ih fun x hmem => h x (List.mem_cons_of_mem _ hmem)
    exact hfirst.bind (hrest.bind_pure fun fields => value x :: fields)

/-- A header with its count, and the entries. -/
theorem reads_fields {header : List UInt8} (hheader : Reads readMapHeader xs.length header)
    (h : ∀ x ∈ xs, Reads readField (value x) (write x)) :
    Reads readFields (xs.map value) (header ++ xs.flatMap write) :=
  hheader.bind (reads_entries h)

/-! ## What was read -/

/-- A slice is as long as was asked for, whether there was an error or not. -/
theorem ensures_readSlice (len : Nat) : Ensures (readSlice len) (·.length = len) := by
  intro buf s rest h
  rw [readSlice] at h
  split at h
  · exact nomatch h
  · obtain ⟨rfl, rfl⟩ := Prod.mk.inj (Except.ok.inj h)
    rw [List.length_take]
    omega

/-- An unsigned number fits its width. -/
theorem ensures_readNat (width : Nat) : Ensures (readNat width) (· < 256 ^ width) := by
  intro buf n rest h
  rw [readNat] at h
  split at h
  · obtain ⟨rfl, rfl⟩ := Prod.mk.inj (Except.ok.inj h)
    have hlt := bigEndian_lt (buf.take width)
    rwa [List.length_take, Nat.min_eq_left (by assumption)] at hlt
  · exact nomatch h

/-- A string shorter than 2^32 bytes, or an integer. -/
def Scalar.Short : Scalar → Prop
  | .int _ => True
  | .str s => s.length < 4294967296

/-- A string behind a length of four bytes or less has less than 2^32 bytes. -/
theorem ensures_readSized {width : Nat} (h : width ≤ 4) :
    Ensures (readSized width) Scalar.Short := by
  have hle : 256 ^ width ≤ 256 ^ 4 := Nat.pow_le_pow_right (by omega) h
  have hslice : ∀ len < 256 ^ width,
      Ensures (readSlice len >>= fun s => pure (Scalar.str s)) Scalar.Short :=
    fun len hlen => (ensures_readSlice len).bind fun s hs =>
      Ensures.pure (show s.length < 4294967296 by omega)
  exact (ensures_readNat width).bind hslice

/-- A string that is read is shorter than 2^32 bytes. -/
theorem ensures_readScalar : Ensures readScalar Scalar.Short := by
  have hnat : ∀ width, Ensures (readNat width >>= fun n => pure (Scalar.int n)) Scalar.Short :=
    fun width => (ensures_readNat width).bind fun n _ => Ensures.pure trivial
  have hint : ∀ width, Ensures (readInt width >>= fun n => pure (Scalar.int n)) Scalar.Short :=
    fun width => (ensures_true _).bind fun n _ => Ensures.pure trivial
  refine (ensures_true readByte).bind fun code _ => ?_
  unfold readScalarTag
  split
  · exact Ensures.pure trivial
  split
  · exact Ensures.pure trivial
  split
  -- a fixstr has its length in its code
  · have hcode := code.toNat_lt
    exact (ensures_readSlice _).bind fun s hs =>
      Ensures.pure (show s.length < 4294967296 by omega)
  split
  · exact hnat 1
  · exact hnat 2
  · exact hnat 4
  · exact hnat 8
  · exact hint 1
  · exact hint 2
  · exact hint 4
  · exact hint 8
  · exact ensures_readSized (by omega)
  · exact ensures_readSized (by omega)
  · exact ensures_readSized (by omega)
  · exact Ensures.throw () _

/-- Every string among the fields that are read has less than 2^32 bytes. -/
theorem ensures_readFields : Ensures readFields (∀ field ∈ ·, field.2.Short) := by
  have hfield : Ensures readField (·.2.Short) := by
    refine (ensures_true readScalar).bind fun key _ => ?_
    cases key with
    | int n => exact Ensures.throw () _
    | str key => exact ensures_readScalar.bind fun v hv => Ensures.pure hv
  -- the number of entries comes from the input, so this is for any
  have hentries : ∀ n, Ensures (readEntries n) (∀ field ∈ ·, field.2.Short) := by
    intro n
    induction n with
    | zero => exact Ensures.pure nofun
    | succ n ih =>
      exact hfield.bind fun field hf => ih.bind fun fields hfs =>
        Ensures.pure (List.forall_mem_cons.mpr ⟨hf, hfs⟩)
  exact (ensures_true readMapHeader).bind fun n _ => hentries n

end Msgpack
