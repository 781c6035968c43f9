import Kgd.Client.Mpack

/-!
# The reader of mpack and the msgpack format

What the functions of mpack read, in terms of the format: a tag is the start of a value,
`mpack_discard` skips one value, and a value that the daemon has written is read back.

## Key results

- `Mpack.leftover_discardValue`: `mpack_discard` skips one value of the format
- `Mpack.parseTag_nil_iff`: the tag of a value is nil for the one byte of nil
- `Mpack.reads_expectInt`: an `int` that fits 32 bits is read back
- `Mpack.reads_readFields`: so are the fields of a struct
-/

namespace Kgd

namespace Mpack

open Msgpack ByteReader

/-- The type codes that mpack knows: all but the reserved one and those of extension types. -/
def known (code : UInt8) : Bool :=
  let c := code.toNat
  !(c == 0xc1 || (0xc7 ≤ c && c ≤ 0xc9) || (0xd4 ≤ c && c ≤ 0xd8))

/-- The format, as far as mpack knows it. -/
abbrev format : PrefixNotation UInt8 := Msgpack.format.restrict known

/-- The codes below nil are known. -/
theorem known_of_lt {code : UInt8} (h : code.toNat < 0xc0) : known code = true := by
  simp [known]
  omega

theorem known_of_ge {code : UInt8} (h : 0xe0 ≤ code.toNat) : known code = true := by
  simp [known]
  omega

/-! ## Discarding -/

variable {d : ByteReader Unit Unit} {n : Nat}

/-- `mpack_discard` of a short enough buffer skips one value. -/
def SkipsValue (d : ByteReader Unit Unit) (n : Nat) : Prop :=
  ∀ buf, buf.length ≤ n → leftover (d buf) = format.skip 1 buf

/-- Past the first byte, `mpack_discard` skips the rest of the value, if the byte is known. -/
theorem parseType_skip (h : SkipsValue d n) (code : UInt8) {rest : List UInt8}
    (hrest : rest.length ≤ n) :
    leftover ((parseType code.toNat >>= discardRest d) rest) = format.skip 1 (code :: rest) := by
  have harray : ∀ count buf, buf.length ≤ n →
      leftover (discardRest d (.array count) buf) = format.skip (1 * count) buf :=
    fun count buf hbuf => leftover_loop rfl (fun _ => rfl) h count hbuf
  have hmap : ∀ count buf, buf.length ≤ n →
      leftover (discardRest d (.map count) buf) = format.skip (2 * count) buf :=
    fun count buf hbuf => leftover_loop rfl (fun _ => rfl)
      (fun _ hle => leftover_bind_skip (k := 1) h (fun _ => h) hle) count hbuf
  unfold parseType
  split
  · rename_i hfix
    exact leftover_code (known_of_lt (by omega)) (shape_fixint (by omega)) () rest
  split
  · rename_i hneg
    exact leftover_code (known_of_ge hneg) (shape_negative hneg) () rest
  split
  · rename_i hlt
    rw [skip_code (known_of_lt (by omega)) (shape_fixmap (by omega) hlt), pure_bind]
    exact hmap _ rest hrest
  split
  · rename_i hlt
    have hloop := harray (code.toNat - 0x90) rest hrest
    rw [Nat.one_mul] at hloop
    rwa [skip_code (known_of_lt (by omega)) (shape_fixarray (by omega) hlt), pure_bind]
  split
  · rename_i hlt
    simp only [pure_bind]
    exact leftover_fixed readSlice_isSlice (known_of_lt (by omega))
      (shape_fixstr (by omega) hlt) _ rest
  generalize hc : code.toNat = c
  split
  all_goals try simp only [bind_assoc, pure_bind]
  -- nil, false, true
  · obtain rfl : code = 0xc0 := UInt8.toNat_inj.mp hc
    exact leftover_code rfl rfl () rest
  · obtain rfl : code = 0xc2 := UInt8.toNat_inj.mp hc
    exact leftover_code rfl rfl () rest
  · obtain rfl : code = 0xc3 := UInt8.toNat_inj.mp hc
    exact leftover_code rfl rfl () rest
  -- bin
  · obtain rfl : code = 0xc4 := UInt8.toNat_inj.mp hc
    exact leftover_sized (readNat_isField 1) readSlice_isSlice rfl rfl _ rest
  · obtain rfl : code = 0xc5 := UInt8.toNat_inj.mp hc
    exact leftover_sized (readNat_isField 2) readSlice_isSlice rfl rfl _ rest
  · obtain rfl : code = 0xc6 := UInt8.toNat_inj.mp hc
    exact leftover_sized (readNat_isField 4) readSlice_isSlice rfl rfl _ rest
  -- float, double
  · obtain rfl : code = 0xca := UInt8.toNat_inj.mp hc
    exact leftover_int (readNat_isField 4) rfl rfl _ rest
  · obtain rfl : code = 0xcb := UInt8.toNat_inj.mp hc
    exact leftover_int (readNat_isField 8) rfl rfl _ rest
  -- uint
  · obtain rfl : code = 0xcc := UInt8.toNat_inj.mp hc
    exact leftover_int (readNat_isField 1) rfl rfl _ rest
  · obtain rfl : code = 0xcd := UInt8.toNat_inj.mp hc
    exact leftover_int (readNat_isField 2) rfl rfl _ rest
  · obtain rfl : code = 0xce := UInt8.toNat_inj.mp hc
    exact leftover_int (readNat_isField 4) rfl rfl _ rest
  · obtain rfl : code = 0xcf := UInt8.toNat_inj.mp hc
    exact leftover_int (readNat_isField 8) rfl rfl _ rest
  -- int
  · obtain rfl : code = 0xd0 := UInt8.toNat_inj.mp hc
    simp only [readInt, bind_assoc, pure_bind]
    exact leftover_int (readNat_isField 1) rfl rfl _ rest
  · obtain rfl : code = 0xd1 := UInt8.toNat_inj.mp hc
    simp only [readInt, bind_assoc, pure_bind]
    exact leftover_int (readNat_isField 2) rfl rfl _ rest
  · obtain rfl : code = 0xd2 := UInt8.toNat_inj.mp hc
    simp only [readInt, bind_assoc, pure_bind]
    exact leftover_int (readNat_isField 4) rfl rfl _ rest
  · obtain rfl : code = 0xd3 := UInt8.toNat_inj.mp hc
    simp only [readInt, bind_assoc, pure_bind]
    exact leftover_int (readNat_isField 8) rfl rfl _ rest
  -- str
  · obtain rfl : code = 0xd9 := UInt8.toNat_inj.mp hc
    exact leftover_sized (readNat_isField 1) readSlice_isSlice rfl rfl _ rest
  · obtain rfl : code = 0xda := UInt8.toNat_inj.mp hc
    exact leftover_sized (readNat_isField 2) readSlice_isSlice rfl rfl _ rest
  · obtain rfl : code = 0xdb := UInt8.toNat_inj.mp hc
    exact leftover_sized (readNat_isField 4) readSlice_isSlice rfl rfl _ rest
  -- array and map
  · obtain rfl : code = 0xdc := UInt8.toNat_inj.mp hc
    exact leftover_counted (readNat_isField 2) rfl rfl harray hrest
  · obtain rfl : code = 0xdd := UInt8.toNat_inj.mp hc
    exact leftover_counted (readNat_isField 4) rfl rfl harray hrest
  · obtain rfl : code = 0xde := UInt8.toNat_inj.mp hc
    exact leftover_counted (readNat_isField 2) rfl rfl hmap hrest
  · obtain rfl : code = 0xdf := UInt8.toNat_inj.mp hc
    exact leftover_counted (readNat_isField 4) rfl rfl hmap hrest
  -- the other codes are not known
  · have hunknown : known code = false := by
      have hlt := code.toNat_lt
      simp only [imp_false] at *
      simp [known, hc]
      omega
    rw [skip_restrict_unknown hunknown]
    rfl

/-- Discarding skips one value, if it may recurse as deep as the buffer is long. -/
theorem discardFuel_skip (fuel : Nat) : SkipsValue (discardFuel fuel) fuel := by
  -- on the fuel, which is the length of what is left
  induction fuel with
  | zero =>
    intro buf hbuf
    rw [List.length_eq_zero_iff.mp (Nat.le_zero.mp hbuf), PrefixNotation.skip_nil]
    rfl
  | succ fuel ih =>
    intro buf hbuf
    cases buf with
    | nil =>
      rw [PrefixNotation.skip_nil]
      rfl
    | cons code rest => exact parseType_skip ih code (Nat.le_of_succ_le_succ hbuf)

/-- `mpack_discard` skips one value of the format. -/
theorem leftover_discardValue (buf : List UInt8) :
    leftover (discardValue buf) = format.skip 1 buf :=
  discardFuel_skip _ _ (Nat.le_refl _)

/-- The reader knows 64-bit integers. -/
theorem knows : Value.Knows known true where
  basic code h := by
    simp only [basic, known] at h ⊢
    simp at h ⊢
    omega
  uint64 := rfl
  int64 := rfl

/-- What the daemon writes is a value for mpack. -/
theorem isValue_bytes {v : Value} (h : v.Valid) : format.IsValue v.bytes := by
  have hskip := Value.skip_bytes_known knows h []
  rwa [List.append_nil, Bool.true_or] at hskip

/-- Discarding leaves what follows one value. -/
theorem discard_parse_iff {buf rest : List UInt8} :
    discard.parse buf = .ok ((), rest) ↔ format.skip 1 buf = some rest := by
  rw [discard, StickyReader.parse_ofParse, ← leftover_discardValue]
  cases h : discardValue buf with
  | error e => exact Iff.intro nofun nofun
  | ok p =>
    show Except.ok ((), p.2) = .ok ((), rest) ↔ some p.2 = some rest
    constructor
    · intro heq
      rw [(Prod.mk.inj (Except.ok.inj heq)).2]
    · intro heq
      rw [Option.some.inj heq]

/-! ## Tags -/

/-- A value starts with a tag. -/
theorem exists_parseTag {buf rest : List UInt8} (h : format.skip 1 buf = some rest) :
    ∃ tag rest', parseTag buf = .ok (tag, rest') := by
  rw [← discardFuel_skip (buf.length + 1) buf (Nat.le_succ _), discardFuel] at h
  cases htag : parseTag buf with
  | error e =>
    rw [leftover_bind_of_none (by rw [htag]; rfl)] at h
    exact nomatch h
  | ok p => exact ⟨p.1, p.2, rfl⟩

theorem parseTag_nil (rest : List UInt8) : parseTag (0xc0 :: rest) = .ok (.nil, rest) := rfl

/-- The tag of a code is nil for that of nil only. -/
theorem ensures_parseType (type : Nat) :
    Ensures (parseType type) fun tag => tag = .nil → type = 0xc0 := by
  -- of the tags with a field none is nil
  have hfield : ∀ {α : Type} (r : ByteReader Unit α) (f : α → Tag), (∀ v, f v ≠ .nil) →
      Ensures (r >>= fun v => pure (f v)) fun tag => tag = .nil → type = 0xc0 :=
    fun r f hne => (ensures_true r).bind fun v _ => Ensures.pure fun h => absurd h (hne v)
  unfold parseType
  iterate 5
    split
    · exact Ensures.pure nofun
  split
  · exact Ensures.pure fun _ => rfl
  · exact Ensures.pure nofun
  · exact Ensures.pure nofun
  all_goals first
    | exact hfield _ _ nofun
    | exact Ensures.throw () _

/-- The tag that is read is nil exactly if the code is. -/
theorem parseTag_nil_iff {buf rest : List UInt8} :
    parseTag buf = .ok (.nil, rest) ↔ buf = 0xc0 :: rest := by
  constructor
  · intro h
    cases buf with
    | nil => exact nomatch h
    | cons code buf =>
      -- nil has one code
      have hcode : code = 0xc0 :=
        UInt8.toNat_inj.mp (ensures_parseType code.toNat h rfl)
      subst hcode
      rw [parseTag_nil] at h
      rw [(Prod.mk.inj (Except.ok.inj h)).2]
  · rintro rfl
    exact parseTag_nil rest

/-- The tag of a value is nil for the one byte of nil. -/
theorem parseTag_value {v tail rest : List UInt8} {tag : Tag} (hv : format.IsValue v)
    (h : parseTag (v ++ tail) = .ok (tag, rest)) : tag = .nil ↔ v = [0xc0] := by
  constructor
  · rintro rfl
    rw [parseTag_nil_iff] at h
    cases v with
    | nil => exact nomatch (format.skip_nil 0).symm.trans hv
    | cons code v =>
      obtain ⟨rfl, -⟩ := List.cons.inj h
      -- a nil is one byte long
      have hrest : format.skip 1 (0xc0 :: v) = some v := by
        rw [skip_code rfl shape_nil, PrefixNotation.skip_zero]
      rw [Option.some.inj (hrest.symm.trans hv)]
  · rintro rfl
    rw [List.singleton_append, parseTag_nil] at h
    exact (Prod.mk.inj (Except.ok.inj h)).1.symm

/-! ## Reading what was written -/

/-- A tag is read as its code says. -/
theorem reads_parseTag (code : UInt8) {tag : Tag} {bytes : List UInt8}
    (h : Reads (parseType code.toNat) tag bytes) : Reads parseTag tag (code :: bytes) :=
  (reads_byte code).bind h

/-- A tag with a field after its code. -/
theorem reads_field {width v : Nat} (f : Nat → Tag) (h : v < 256 ^ width) :
    Reads (readNat width >>= fun v => pure (f v)) (f v) (beBytes width v) :=
  ((readNat_isField width).reads h).bind_pure f

/-- The header of a string is read as its length. -/
theorem reads_strHeader {len : Nat} (h : len < 4294967296) :
    Reads parseTag (.str len) (strHeader len) := by
  unfold strHeader
  split_ifs with h5 h8 h16
  · apply reads_parseTag
    -- a fixstr has its length in the code, the others in a field
    have hcode : (UInt8.ofNat (0xa0 + len)).toNat = 0xa0 + len := by
      rw [UInt8.toNat_ofNat']
      omega
    unfold parseType
    rw [hcode, if_neg (by omega), if_neg (by omega), if_neg (by omega),
      if_neg (by omega), if_pos (by omega), Nat.add_sub_cancel_left]
    exact Reads.pure _
  · exact reads_parseTag 0xd9 (reads_field Tag.str (by omega))
  · exact reads_parseTag 0xda (reads_field Tag.str (by omega))
  · exact reads_parseTag 0xdb (reads_field Tag.str (by omega))

theorem reads_arrayHeader {len : Nat} (h : len < 4294967296) :
    Reads parseTag (.array len) (arrayHeader len) := by
  unfold arrayHeader
  split_ifs with h4 h16
  · apply reads_parseTag
    -- a fixarray has its length in the code, the others in a field
    have hcode : (UInt8.ofNat (0x90 + len)).toNat = 0x90 + len := by
      rw [UInt8.toNat_ofNat']
      omega
    unfold parseType
    rw [hcode, if_neg (by omega), if_neg (by omega), if_neg (by omega),
      if_pos (by omega), Nat.add_sub_cancel_left]
    exact Reads.pure _
  · exact reads_parseTag 0xdc (reads_field Tag.array (by omega))
  · exact reads_parseTag 0xdd (reads_field Tag.array (by omega))

theorem reads_mapHeader {len : Nat} (h : len < 4294967296) :
    Reads parseTag (.map len) (mapHeader len) := by
  unfold mapHeader
  split_ifs with h4 h16
  · apply reads_parseTag
    -- a fixmap has its length in the code, the others in a field
    have hcode : (UInt8.ofNat (0x80 + len)).toNat = 0x80 + len := by
      rw [UInt8.toNat_ofNat']
      omega
    unfold parseType
    rw [hcode, if_neg (by omega), if_neg (by omega), if_pos (by omega),
      Nat.add_sub_cancel_left]
    exact Reads.pure _
  · exact reads_parseTag 0xde (reads_field Tag.map (by omega))
  · exact reads_parseTag 0xdf (reads_field Tag.map (by omega))

/-- A number is read in the smallest form it is written in. -/
theorem reads_encodeUint (u : UInt64) : Reads parseTag (.uint u.toNat) (encodeUint u).bytes := by
  rw [encodeUint]
  simp only [UInt64.le_iff_toNat_le]
  -- a fixint is its own code, the other widths are a code and a field
  split_ifs with h7 h8 h16 h32
  · have hsmall : u.toNat ≤ 127 := h7
    have hcode : u.toUInt8.toInt8.toUInt8.toNat = u.toNat := by
      show u.toUInt8.toNat = u.toNat
      rw [UInt64.toNat_toUInt8]
      omega
    apply reads_parseTag
    unfold parseType
    rw [hcode, if_pos (by omega)]
    exact Reads.pure _
  · have hsmall : u.toNat ≤ 255 := h8
    have hv : u.toUInt8.toNat = u.toNat := by
      rw [UInt64.toNat_toUInt8]
      omega
    rw [← hv]
    exact reads_parseTag 0xcc (reads_field Tag.uint u.toUInt8.toNat_lt)
  · have hsmall : u.toNat ≤ 65535 := h16
    have hv : u.toUInt16.toNat = u.toNat := by
      rw [UInt64.toNat_toUInt16]
      omega
    rw [← hv]
    exact reads_parseTag 0xcd (reads_field Tag.uint u.toUInt16.toNat_lt)
  · have hsmall : u.toNat ≤ 4294967295 := h32
    have hv : u.toUInt32.toNat = u.toNat := by
      rw [UInt64.toNat_toUInt32]
      omega
    rw [← hv]
    exact reads_parseTag 0xce (reads_field Tag.uint u.toUInt32.toNat_lt)
  · exact reads_parseTag 0xcf (reads_field Tag.uint u.toNat_lt)

/-- A tag with a field in two's complement. -/
theorem reads_signed (width : Nat) {m : Nat} {v : Int} (hv : Int.bmod m (256 ^ width) = v) :
    Reads (readInt width >>= fun v => pure (Tag.int v)) (.int v) (beBytes width m) := by
  have hread := ((readNat_isField width).reads_mod m).bind_pure fun n => Int.bmod n (256 ^ width)
  have hmod : Int.bmod (m % 256 ^ width : Nat) (256 ^ width) = v := by
    rw [Int.natCast_emod, Int.emod_bmod, hv]
  rw [hmod] at hread
  exact hread.bind_pure Tag.int

theorem reads_encodeNegative {n : Int64} (h : ¬ 0 ≤ n) :
    Reads parseTag (.int n.toInt) (encodeInt n).bytes := by
  have hneg : ¬ 0 ≤ n.toInt := fun hle => h (Int64.le_iff_toInt_le.mpr hle)
  rw [encodeInt, if_neg h]
  simp only [Int64.le_iff_toInt_le]
  split_ifs with h5 h8 h16 h32
  · have hmin : -32 ≤ n.toInt := h5
    have hbyte : n.toInt8.toInt = n.toInt := by
      rw [Int64.toInt_toInt8, Int.bmod_eq_of_le (by omega) (by omega)]
    -- the code of a negative fixint is the value modulo 256
    have hcode : (n.toInt8.toUInt8.toNat : Int) = n.toInt + 256 := by
      have hbv := BitVec.toInt_eq_toNat_cond n.toInt8.toBitVec
      have hlt := n.toInt8.toBitVec.isLt
      rw [show n.toInt8.toBitVec.toInt = n.toInt from hbyte] at hbv
      show (n.toInt8.toBitVec.toNat : Int) = _
      split at hbv <;> omega
    apply reads_parseTag
    unfold parseType
    rw [if_neg (by omega), if_pos (by omega), hcode, Int.add_sub_cancel]
    exact Reads.pure _
  · have hmin : -128 ≤ n.toInt := h8
    apply reads_parseTag 0xd0 (reads_signed 1 _)
    rw [← Int.bmod_eq_of_le (n := n.toInt) (m := 256) (by omega) (by omega),
      ← Int64.toInt_toInt8]
    exact (BitVec.toInt_eq_toNat_bmod n.toInt8.toBitVec).symm
  · have hmin : -32768 ≤ n.toInt := h16
    apply reads_parseTag 0xd1 (reads_signed 2 _)
    rw [← Int.bmod_eq_of_le (n := n.toInt) (m := 65536) (by omega) (by omega),
      ← Int64.toInt_toInt16]
    exact (BitVec.toInt_eq_toNat_bmod n.toInt16.toBitVec).symm
  · have hmin : -2147483648 ≤ n.toInt := h32
    apply reads_parseTag 0xd2 (reads_signed 4 _)
    rw [← Int.bmod_eq_of_le (n := n.toInt) (m := 4294967296) (by omega) (by omega),
      ← Int64.toInt_toInt32]
    exact (BitVec.toInt_eq_toNat_bmod n.toInt32.toBitVec).symm
  · apply reads_parseTag 0xd3 (reads_signed 8 _)
    exact (BitVec.toInt_eq_toNat_bmod n.toBitVec).symm

/-! ## Expecting what was written -/

/-- A value is expected where its tag is accepted. -/
theorem reads_expectTag {α : Type} {accept : Tag → Option α} {zero a : α} {tag : Tag}
    {bytes : List UInt8} (h : Reads parseTag tag bytes) (ha : accept tag = some a) :
    Reads (expectTag accept zero).parse a bytes := by
  rw [expectTag, StickyReader.parse_ofParse, ← List.append_nil bytes]
  apply h.bind
  rw [ha]
  exact Reads.pure a

/-- A tag that is refused sets the error. -/
theorem run_expectTag_of_none {α : Type} {accept : Tag → Option α} {zero : α} {tag : Tag}
    {bytes : List UInt8} (h : Reads parseTag tag bytes) (ha : accept tag = none)
    (rest : List UInt8) : (expectTag accept zero).run (some (bytes ++ rest)) = (zero, none) := by
  simp only [expectTag, StickyReader.ofParse, bind_apply, h rest, Except.bind, ha]
  rfl

/-- A map is expected that is not too long. -/
theorem reads_expectMapMax {len maxCount : Nat} (h : len ≤ maxCount) (hlen : len < 4294967296) :
    Reads (expectMapMax maxCount).parse len (mapHeader len) :=
  reads_expectTag (reads_mapHeader hlen) (if_pos h)

theorem reads_expectArrayMax {len maxCount : Nat} (h : len ≤ maxCount) (hlen : len < 4294967296) :
    Reads (expectArrayMax maxCount).parse len (arrayHeader len) :=
  reads_expectTag (reads_arrayHeader hlen) (if_pos h)

/-- A number of 32 bits is read as it is. -/
theorem reads_expectU32 (v : UInt32) : Reads expectU32.parse v (Value.uint32 v).bytes := by
  have hlt := v.toNat_lt
  apply reads_expectTag (reads_parseTag 0xce (reads_field Tag.uint hlt))
  show (if v.toNat ≤ 0xffffffff then some (UInt32.ofNat v.toNat) else none) = some v
  rw [if_pos (by omega), UInt32.ofNat_toNat]

theorem reads_expectBool (b : Bool) : Reads expectBool.parse b (Value.bool b).bytes := by
  cases b <;> exact fun rest => rfl

/-- The range of an `int` of the client. -/
def Narrow (n : Int64) : Prop := -2147483648 ≤ n.toInt ∧ n.toInt ≤ 2147483647

/-- An `int` that fits 32 bits is read back. -/
theorem reads_expectInt {n : Int64} (h : Narrow n) :
    Reads expectInt.parse (.ofInt n.toInt) (encodeInt n).bytes := by
  obtain ⟨hmin, hmax⟩ := h
  by_cases h0 : 0 ≤ n
  -- what is not negative is written and read as unsigned
  · have hcast := toNat_toUInt64 n (Int64.le_iff_toInt_le.mp h0)
    have hread := reads_encodeUint n.toUInt64
    have henc : encodeInt n = encodeUint n.toUInt64 := by rw [encodeInt, if_pos h0]
    rw [henc]
    apply reads_expectTag hread
    rw [← hcast]
    exact if_pos (by omega)
  · have hneg : ¬ 0 ≤ n.toInt := fun hle => h0 (Int64.le_iff_toInt_le.mpr hle)
    apply reads_expectTag (reads_encodeNegative h0)
    exact if_pos (by omega)

/-- A number of 32 bits is not changed by the conversion. -/
theorem toInt_ofInt {n : Int64} (h : Narrow n) : (Int32.ofInt n.toInt).toInt = n.toInt :=
  Int32.toInt_ofInt_of_le (by have := h.1; omega) (by have := h.2; omega)

/-- A string is read into a buffer that it fits, if there is no NUL in it. -/
theorem reads_expectCstr {size : Nat} [NeZero size] {s : String}
    (hs : (utf8 s).length < 4294967296) (h : (utf8 s).length < size ∧ 0 ∉ utf8 s) :
    Reads (expectCstr size).parse ⟨utf8 s, h⟩ (Value.str s).bytes := by
  have hbytes : Reads (readSlice (utf8 s).length >>= fun bytes =>
      if h : bytes.length < size ∧ 0 ∉ bytes then
        (pure ⟨bytes, h⟩ : ByteReader Unit (CString size)) else throw ())
      ⟨utf8 s, h⟩ (utf8 s ++ []) := by
    apply (readSlice_isSlice.reads (utf8 s)).bind
    -- it fits the buffer with its terminator, and holds no zero byte
    rw [dif_pos h]
    exact Reads.pure _
  rw [List.append_nil] at hbytes
  rw [expectCstr, StickyReader.parse_ofParse]
  exact (reads_strHeader hs).bind hbytes

/-- Reading, and then something that reads nothing more. -/
theorem reads_return {α β : Type} {p : Expect α} {a : α} {bytes : List UInt8}
    (h : Reads p.parse a bytes) (f : α → β) :
    Reads (do let a ← p; return f a : Expect β).parse (f a) bytes := by
  rw [StickyReader.parse_do]
  exact h.bind_pure f

/-! ## The fields of a struct -/

variable {α : Type} {fields : Fields α} {found : List Nat} {a a' : α}

/-- A key is found by its name, if it has not been before. -/
theorem reads_expectKeyCstr {key : String} (hkey : (utf8 key).length < 4294967296)
    {keys : List (List UInt8)} (hfound : keys.idxOf (utf8 key) ∉ found) :
    Reads (expectKeyCstr keys found).parse (keys.idxOf (utf8 key)) (Value.str key).bytes := by
  have hbytes : Reads (readSlice (utf8 key).length >>= fun bytes =>
      if keys.idxOf bytes ∈ found then (throw () : ByteReader Unit Nat)
      else pure (keys.idxOf bytes)) (keys.idxOf (utf8 key)) (utf8 key ++ []) := by
    apply (readSlice_isSlice.reads (utf8 key)).bind
    rw [if_neg hfound]
    exact Reads.pure _
  rw [List.append_nil] at hbytes
  -- the header, then the text, then the look-up among the keys
  have hkeyStr : Reads (parseKeyStr keys found) (keys.idxOf (utf8 key)) (Value.str key).bytes :=
    (reads_strHeader hkey).bind hbytes
  intro rest
  have htag := reads_strHeader hkey (utf8 key ++ rest)
  rw [← List.append_assoc] at htag
  rw [expectKeyCstr, StickyReader.parse_ofParse, ← hkeyStr rest]
  rw [show (Value.str key).bytes = strHeader (utf8 key).length ++ utf8 key from rfl, htag]

/-- An entry with a key that is known. -/
theorem reads_readEntry {key : String} {field : α → Expect α} {v : Value}
    (hkey : (utf8 key).length < 4294967296)
    (hfield : fields[fields.keys.idxOf (utf8 key)]? = some (key, field))
    (hfound : fields.keys.idxOf (utf8 key) ∉ found)
    (hv : Reads (field a).parse a' v.bytes) :
    Reads (readEntry fields (found, a)).parse (fields.keys.idxOf (utf8 key) :: found, a')
      ((Value.str key).bytes ++ v.bytes) := by
  rw [readEntry, StickyReader.parse_do]
  apply (reads_expectKeyCstr hkey hfound).bind
  simp only [hfield, StickyReader.parse_do, StickyReader.parse_return]
  exact hv.bind_pure fun a => (fields.keys.idxOf (utf8 key) :: found, a)

/-- An entry with any other key. -/
theorem reads_readEntry_unknown {key : String} {v : Value}
    (hkey : (utf8 key).length < 4294967296)
    (hfield : fields[fields.keys.idxOf (utf8 key)]? = none)
    (hfound : fields.keys.idxOf (utf8 key) ∉ found) (hv : format.IsValue v.bytes) :
    Reads (readEntry fields (found, a)).parse (found, a) ((Value.str key).bytes ++ v.bytes) := by
  have hdiscard : Reads discard.parse () v.bytes := fun rest => by
    rw [discard_parse_iff, format.skip_append rest hv, List.nil_append]
  rw [readEntry, StickyReader.parse_do]
  apply (reads_expectKeyCstr hkey hfound).bind
  simp only [hfield, StickyReader.parse_do, StickyReader.parse_return]
  exact hdiscard.bind_pure fun _ => (found, a)

/-- One entry, and the others. -/
theorem reads_entries {r r' r'' : List Nat × α} {key : String} {v : Value}
    {entries : List (Value × Value)}
    (hentry : Reads (readEntry fields r).parse r' ((Value.str key).bytes ++ v.bytes))
    (h : Reads (StickyReader.repeatOk (readEntry fields) entries.length r').parse r''
      (Value.bytesEntries entries)) :
    Reads (StickyReader.repeatOk (readEntry fields) (entries.length + 1) r).parse r''
      (Value.bytesEntries ((.str key, v) :: entries)) := by
  rw [StickyReader.parse_repeatOk_succ, Value.bytesEntries, ← List.append_assoc]
  exact hentry.bind h

/-- The fields of a struct are read back. -/
theorem reads_readFields {maxCount : Nat} {entries : List (Value × Value)} {r : List Nat × α}
    (hmax : entries.length ≤ maxCount) (hlen : entries.length < 4294967296)
    (h : Reads (StickyReader.repeatOk (readEntry fields) entries.length ([], a)).parse r
      (Value.bytesEntries entries)) :
    Reads (readFields maxCount fields a).parse r.2 (Value.map entries).bytes := by
  rw [readFields, StickyReader.parse_do, Value.bytes]
  apply (reads_expectMapMax hmax hlen).bind
  rw [StickyReader.parse_do]
  exact h.bind_pure Prod.snd

/-- What every field preserves holds in the end, with or without an error. -/
theorem ensures_readFields {P : α → Prop} (hfields : ∀ field ∈ fields, ∀ a, P a →
    StickyReader.Ensures (field.2 a) P) {maxCount : Nat} (ha : P a) :
    StickyReader.Ensures (readFields maxCount fields a) P := by
  -- one entry: a field's own reader, or an unknown key whose value is skipped
  have hentry : ∀ r : List Nat × α, P r.2 →
      StickyReader.Ensures (readEntry fields r) fun r => P r.2 := by
    intro r hr
    rw [readEntry]
    refine (StickyReader.ensures_true _).bind fun i _ => ?_
    split
    · rename_i field hfield
      exact (hfields _ (List.mem_of_getElem? hfield) r.2 hr).bind
        fun a h => StickyReader.Ensures.pure h
    · exact (StickyReader.ensures_true _).bind fun _ _ => StickyReader.Ensures.pure hr
  rw [readFields]
  exact (StickyReader.ensures_true _).bind fun nkeys _ =>
    (StickyReader.Ensures.repeatOk hentry nkeys ha).bind fun r h => StickyReader.Ensures.pure h

/-- Of a struct with one field, the field is read, with or without an error. -/
theorem run_readFields_single {maxCount : Nat} (hmax : 1 ≤ maxCount) {key : String}
    (hkey : (utf8 key).length < 4294967296) (field : α → Expect α) (a : α) (v : Value) :
    ((readFields maxCount [(key, field)] a).run (some (Value.map [(.str key, v)]).bytes)).1 =
      ((field a).run (some v.bytes)).1 := by
  have hmap := reads_expectMapMax hmax (by decide) ((Value.str key).bytes ++ v.bytes)
  have hread : (expectKeyCstr [utf8 key] []).parse ((Value.str key).bytes ++ v.bytes) =
      .ok (0, v.bytes) := by
    have hidx : [utf8 key].idxOf (utf8 key) = 0 := List.idxOf_cons_self
    rw [← hidx]
    exact reads_expectKeyCstr hkey (by simp) v.bytes
  have hbytes : (Value.map [(.str key, v)]).bytes =
      mapHeader 1 ++ ((Value.str key).bytes ++ v.bytes) := by
    simp [Value.bytes, Value.bytesEntries]
  rw [hbytes, readFields, StickyReader.run_bind_of_parse hmap]
  -- the key is known, so the entry's value goes to the field's reader
  have hentry : (readEntry [(key, field)] ([], a)).run (some ((Value.str key).bytes ++ v.bytes)) =
      (do let a ← field a; return ([0], a) : Expect (List Nat × α)).run (some v.bytes) :=
    StickyReader.run_bind_of_parse hread _
  show ((readEntry [(key, field)] ([], a)).run _).1.2 = _
  rw [hentry]
  rfl

end Mpack

end Kgd
