import Kgd.Client.ZigProtocol

/-!
# The Zig codec

## Key results

- `ZigClient.tryMeasure_eq`: `tryMeasure` measures one value of the msgpack format, with the type
  codes that `read` knows
- `ZigClient.readLoop_eq`: however a stream is cut into reads, `processMessage` gets its values
- `ZigClient.skipFuel_write`, `ZigClient.reads_write`: what is written is skipped and read
-/

namespace Kgd

namespace ZigClient

open Msgpack ByteReader

/-- The type codes that `read` knows. -/
abbrev format : PrefixNotation UInt8 := Msgpack.format.restrict basic

/-! ## Fields -/

theorem readByte_isField : IsField .unexpectedEof readByte 1 := by
  intro buf
  cases buf with
  | nil => rfl
  | cons b buf =>
    rw [if_pos (by simp)]
    simp [readByte, bigEndian]

theorem readSlice_isSlice : IsSlice .unexpectedEof readSlice := fun _ _ => rfl

/-- A field is a slice of its width. -/
theorem isField_of_slice (width : Nat) :
    IsField .unexpectedEof (readSlice width >>= fun s => pure (bigEndian s)) width := by
  intro buf
  rw [bind_apply, readSlice]
  by_cases hwidth : width ≤ buf.length
  · rw [if_neg (by omega), if_pos hwidth]
    rfl
  · rw [if_pos (by omega), if_neg hwidth]
    rfl

theorem readU16_isField : IsField .unexpectedEof readU16 2 := isField_of_slice 2

theorem readU32_isField : IsField .unexpectedEof readU32 4 := isField_of_slice 4

/-! ## Masks -/

theorem mask_fixmap : ∀ b < 256, b &&& 0xf0 = 0x80 ↔ 0x80 ≤ b ∧ b < 0x90 := by decide +kernel

theorem mask_fixarray : ∀ b < 256, b &&& 0xf0 = 0x90 ↔ 0x90 ≤ b ∧ b < 0xa0 := by decide +kernel

theorem mask_fixstr : ∀ b < 256, b &&& 0xe0 = 0xa0 ↔ 0xa0 ≤ b ∧ b < 0xc0 := by decide +kernel

/-- The low four bits of a code are what it is above its base. -/
theorem low_four {b : Nat} (base : Nat) (hge : base ≤ b) (hlt : b < base + 16)
    (hbase : base % 16 = 0) : b &&& 0x0f = b - base :=
  (Nat.and_two_pow_sub_one_eq_mod b 4).trans (by omega)

/-- The low five bits of a fixstr's code are its length. -/
theorem low_five {b : Nat} (hge : 0xa0 ≤ b) (hlt : b < 0xc0) : b &&& 0x1f = b - 0xa0 :=
  (Nat.and_two_pow_sub_one_eq_mod b 5).trans (by omega)

/-! ## What `skip` consumes -/

variable {d : Decoder Unit} {n : Nat}

/-- `skip` of a short enough buffer consumes one value. -/
def SkipsValue (d : Decoder Unit) (n : Nat) : Prop :=
  ∀ buf, buf.length ≤ n → leftover (d buf) = format.skip 1 buf

/-- Past the first byte, `skip` consumes the rest of the value, if `read` knows the byte. -/
theorem readTag_skip (h : SkipsValue d n) (code : UInt8) {rest : List UInt8}
    (hrest : rest.length ≤ n) :
    leftover ((readTag code.toNat >>= skipRest d) rest) = format.skip 1 (code :: rest) := by
  have hlt := code.toNat_lt
  have harray : ∀ count buf, buf.length ≤ n →
      leftover (skipRest d (.array count) buf) = format.skip (1 * count) buf :=
    fun count buf hbuf => leftover_loop rfl (fun _ => rfl) h count hbuf
  have hmap : ∀ count buf, buf.length ≤ n →
      leftover (skipRest d (.map count) buf) = format.skip (2 * count) buf :=
    fun count buf hbuf =>
      leftover_loop rfl (fun _ => rfl)
        (fun _ hle => leftover_bind_skip (k := 1) h (fun _ => h) hle) count hbuf
  unfold readTag
  split
  · rename_i hfix
    exact leftover_code (basic_of_lt (by omega)) (shape_fixint (by omega)) () rest
  split
  · rename_i hneg
    exact leftover_code (basic_of_ge hneg) (shape_negative hneg) () rest
  split
  · rename_i hmask
    obtain ⟨hge, hle⟩ := (mask_fixmap _ hlt).mp hmask
    rw [skip_code (basic_of_lt (by omega)) (shape_fixmap hge hle), pure_bind,
      low_four 0x80 hge hle rfl]
    exact hmap _ rest hrest
  split
  · rename_i hmask
    obtain ⟨hge, hle⟩ := (mask_fixarray _ hlt).mp hmask
    have hloop := harray (code.toNat - 0x90) rest hrest
    rw [Nat.one_mul] at hloop
    rwa [skip_code (basic_of_lt (by omega)) (shape_fixarray hge hle), pure_bind,
      low_four 0x90 hge hle rfl]
  split
  · rename_i hmask
    obtain ⟨hge, hle⟩ := (mask_fixstr _ hlt).mp hmask
    simp only [low_five hge hle, bind_assoc, pure_bind]
    exact leftover_fixed readSlice_isSlice (basic_of_lt (by omega)) (shape_fixstr hge hle) _ rest
  generalize hc : code.toNat = c
  split
  all_goals try simp only [bind_assoc, pure_bind]
  -- nil, false, true
  · obtain rfl : code = 0xc0 := UInt8.toNat_inj.mp hc
    exact leftover_code rfl rfl () rest
  · obtain rfl : code = 0xc2 := UInt8.toNat_inj.mp hc
    exact leftover_code rfl rfl () rest
  · obtain rfl : code = 0xc3 := UInt8.toNat_inj.mp hc
    exact leftover_code rfl rfl () rest
  -- bin
  · obtain rfl : code = 0xc4 := UInt8.toNat_inj.mp hc
    exact leftover_sized readByte_isField readSlice_isSlice rfl rfl _ rest
  · obtain rfl : code = 0xc5 := UInt8.toNat_inj.mp hc
    exact leftover_sized readU16_isField readSlice_isSlice rfl rfl _ rest
  · obtain rfl : code = 0xc6 := UInt8.toNat_inj.mp hc
    exact leftover_sized readU32_isField readSlice_isSlice rfl rfl _ rest
  -- uint
  · obtain rfl : code = 0xcc := UInt8.toNat_inj.mp hc
    exact leftover_int readByte_isField rfl rfl _ rest
  · obtain rfl : code = 0xcd := UInt8.toNat_inj.mp hc
    exact leftover_int readU16_isField rfl rfl _ rest
  · obtain rfl : code = 0xce := UInt8.toNat_inj.mp hc
    exact leftover_int readU32_isField rfl rfl _ rest
  -- int
  · obtain rfl : code = 0xd0 := UInt8.toNat_inj.mp hc
    exact leftover_int readByte_isField rfl rfl _ rest
  · obtain rfl : code = 0xd1 := UInt8.toNat_inj.mp hc
    exact leftover_int readU16_isField rfl rfl _ rest
  · obtain rfl : code = 0xd2 := UInt8.toNat_inj.mp hc
    exact leftover_int readU32_isField rfl rfl _ rest
  -- str
  · obtain rfl : code = 0xd9 := UInt8.toNat_inj.mp hc
    exact leftover_sized readByte_isField readSlice_isSlice rfl rfl _ rest
  · obtain rfl : code = 0xda := UInt8.toNat_inj.mp hc
    exact leftover_sized readU16_isField readSlice_isSlice rfl rfl _ rest
  · obtain rfl : code = 0xdb := UInt8.toNat_inj.mp hc
    exact leftover_sized readU32_isField readSlice_isSlice rfl rfl _ rest
  -- array and map
  · obtain rfl : code = 0xdc := UInt8.toNat_inj.mp hc
    exact leftover_counted readU16_isField rfl rfl harray hrest
  · obtain rfl : code = 0xdd := UInt8.toNat_inj.mp hc
    exact leftover_counted readU32_isField rfl rfl harray hrest
  · obtain rfl : code = 0xde := UInt8.toNat_inj.mp hc
    exact leftover_counted readU16_isField rfl rfl hmap hrest
  · obtain rfl : code = 0xdf := UInt8.toNat_inj.mp hc
    exact leftover_counted readU32_isField rfl rfl hmap hrest
  -- the other codes are not known
  · have hunknown : basic code = false := by
      have hfixmap := mask_fixmap _ hlt
      have hfixarray := mask_fixarray _ hlt
      have hfixstr := mask_fixstr _ hlt
      simp only [imp_false] at *
      simp [basic, hc]
      omega
    rw [skip_restrict_unknown hunknown]
    rfl

/-- `skip` consumes one value of the format, with the type codes that `read` knows. -/
theorem skipFuel_skip (fuel : Nat) : SkipsValue (skipFuel fuel) fuel := by
  -- on the fuel, which is the length of what is left
  induction fuel with
  | zero =>
    intro buf hbuf
    rw [List.length_eq_zero_iff.mp (Nat.le_zero.mp hbuf), PrefixNotation.skip_nil]
    rfl
  | succ fuel ih =>
    intro buf hbuf
    cases buf with
    | nil =>
      rw [PrefixNotation.skip_nil]
      rfl
    | cons code rest => exact readTag_skip ih code (Nat.le_of_succ_le_succ hbuf)

/-- `tryMeasure` measures the first value. -/
theorem tryMeasure_eq (data : List UInt8) :
    tryMeasure data = (format.skip 1 data).map fun rest => data.length - rest.length := by
  rw [← skipFuel_skip _ _ (Nat.le_refl _), tryMeasure]
  cases skipFuel data.length data with
  | ok p => rfl
  | error e => rfl

/-! ## Reading messages -/

/-- The inner loop of `readLoop` splits the buffer. -/
theorem processMessages_eq {fuel : Nat} {recvBuf : List UInt8} (h : recvBuf.length ≤ fuel) :
    processMessages fuel recvBuf = format.split recvBuf := by
  induction fuel generalizing recvBuf with
  | zero =>
    rw [List.length_eq_zero_iff.mp (Nat.le_zero.mp h), PrefixNotation.split_nil]
    rfl
  | succ fuel ih =>
    rw [processMessages]
    split
    · rw [tryMeasure_eq]
      cases hskip : format.skip 1 recvBuf with
      | none =>
        rw [format.split_of_none hskip]
        rfl
      | some rest =>
        have hlt := format.length_skip_lt hskip
        -- what is left after the message is what `skip` leaves
        obtain ⟨front, rfl⟩ := format.skip_suffix hskip
        have hfront : (front ++ rest).length - rest.length = front.length := by
          rw [List.length_append, Nat.add_sub_cancel]
        rw [format.split_of_some hskip, Option.map_some, hfront]
        dsimp only
        rw [List.drop_left, ih (by omega)]
    · rename_i hempty
      rw [List.length_eq_zero_iff.mp (by omega : recvBuf.length = 0), PrefixNotation.split_nil]

/-- However a stream is cut into reads, `processMessage` gets its values, and the rest is kept. -/
theorem readLoop_eq {reads : List (List UInt8)} (hne : ∀ bytes ∈ reads, bytes ≠ []) :
    readLoop reads =
      ⟨(format.split reads.flatten).2, (format.split reads.flatten).1, false⟩ := by
  have hread : ∀ bytes ∈ reads, ∀ s : List (List UInt8) × List UInt8,
      ReadLoop.read ⟨s.2, s.1, false⟩ bytes =
        ⟨(format.feed s bytes).2, (format.feed s bytes).1, false⟩ := by
    intro bytes hmem s
    have hbytes : ¬ bytes.length = 0 := by simpa using hne bytes hmem
    unfold ReadLoop.read
    rw [if_neg Bool.false_ne_true, if_neg hbytes]
    dsimp only
    rw [processMessages_eq (Nat.le_refl _)]
    rfl
  rw [readLoop, ← List.flatMap_id]
  exact format.foldl_view (fun s => (⟨s.2, s.1, false⟩ : ReadLoop)) hread

/-! ## What is written -/

/-- A value that is written with the methods of `Encoder`. -/
inductive Tree
  | nil
  | bool (v : Bool)
  | int (v : Int)
  | uint (v : Nat)
  | str (s : List UInt8)
  | bin (data : List UInt8)
  | array (elts : List Tree)
  | map (entries : List (Tree × Tree))

mutual

/-- The calls that write the value: the header of an array or a map comes before its elements. -/
def write : Tree → List UInt8
  | .nil => writeNil
  | .bool v => writeBool v
  | .int v => writeInt v
  | .uint v => writeUint v
  | .str s => writeStr s
  | .bin data => writeBin data
  | .array elts => writeArrayHeader elts.length ++ writeElts elts
  | .map entries => writeMapHeader entries.length ++ writeEntries entries

def writeElts : List Tree → List UInt8
  | [] => []
  | elt :: elts => write elt ++ writeElts elts

def writeEntries : List (Tree × Tree) → List UInt8
  | [] => []
  | (k, v) :: entries => write k ++ (write v ++ writeEntries entries)

end

mutual

/-- What `read` returns, call by call. An integer that is not negative is written as `writeUint`
    does, and read as an unsigned one. -/
def values : Tree → List Value
  | .nil => [.nil]
  | .bool v => [.boolean v]
  | .int v => [if 0 ≤ v then .uint v.toNat else .int v]
  | .uint v => [.uint v]
  | .str s => [.str s]
  | .bin data => [.bin data]
  | .array elts => .array elts.length :: valuesElts elts
  | .map entries => .map entries.length :: valuesEntries entries

def valuesElts : List Tree → List Value
  | [] => []
  | elt :: elts => values elt ++ valuesElts elts

def valuesEntries : List (Tree × Tree) → List Value
  | [] => []
  | (k, v) :: entries => values k ++ (values v ++ valuesEntries entries)

end

mutual

/-- Integers are of 32 bits, lengths are below 2^32 and counts below 2^16. -/
def Tree.Fits : Tree → Prop
  | .nil | .bool _ => True
  | .int v => -2147483648 ≤ v ∧ v < 2147483648
  | .uint v => v < 4294967296
  | .str s => s.length < 4294967296
  | .bin data => data.length < 4294967296
  | .array elts => elts.length < 65536 ∧ FitElts elts
  | .map entries => entries.length < 65536 ∧ FitEntries entries

/-- `Fits`, of every element. -/
def FitElts : List Tree → Prop
  | [] => True
  | elt :: elts => elt.Fits ∧ FitElts elts

/-- `Fits`, of every key and value. -/
def FitEntries : List (Tree × Tree) → Prop
  | [] => True
  | (k, v) :: entries => k.Fits ∧ v.Fits ∧ FitEntries entries

end

/-! ## Single values -/

/-- A code and the bytes that `read` takes after it. -/
theorem reads_code {code : UInt8} {v : Value} {bytes : List UInt8}
    (h : Reads (readTag code.toNat) v bytes) : Reads read v (code :: bytes) := fun rest => h rest

/-- A single byte that is its own value. -/
theorem reads_byte {b : Nat} {v : Value} (hb : b < 256) (h : readTag b = pure v) :
    Reads read v [.ofNat b] := by
  apply reads_code
  rw [UInt8.toNat_ofNat', Nat.mod_eq_of_lt hb, h]
  exact Reads.pure v

/-- A number is its field, whatever is made of it. -/
theorem reads_number {code : UInt8} {r : Decoder Nat} {width u : Nat} (f : Nat → Value)
    (hr : IsField .unexpectedEof r width)
    (hcode : readTag code.toNat = r >>= fun u => pure (f u)) (hu : u < 256 ^ width) :
    Reads read (f u) (code :: beBytes width u) := by
  apply reads_code
  rw [hcode]
  exact (hr.reads hu).bind_pure f

/-- Bytes are their length and themselves. -/
theorem reads_sized {code : UInt8} {r : Decoder Nat} {width : Nat} (f : List UInt8 → Value)
    (bytes : List UInt8) (hr : IsField .unexpectedEof r width)
    (hcode : readTag code.toNat = r >>= fun len => readSlice len >>= fun s => pure (f s))
    (hlen : bytes.length < 256 ^ width) :
    Reads read (f bytes) (code :: beBytes width bytes.length ++ bytes) := by
  apply reads_code
  rw [hcode]
  exact (hr.reads hlen).bind ((readSlice_isSlice.reads bytes).bind_pure f)

/-- An unsigned number is read back. -/
theorem reads_writeUint {v : Nat} (h : v < 4294967296) : Reads read (.uint v) (writeUint v) := by
  unfold writeUint
  split_ifs with h7 h8 h16
  · exact reads_byte (by omega) (if_pos h7)
  · exact reads_number .uint readByte_isField rfl (by omega)
  · exact reads_number .uint readU16_isField rfl (by omega)
  · exact reads_number .uint readU32_isField rfl (by omega)

/-- `@bitCast` takes back what it has added to a negative value. -/
theorem bitCast_add {bits : Nat} {v : Int} (hmin : -(2 ^ (bits - 1) : Nat) ≤ v) (hneg : v < 0)
    (hbits : 2 * 2 ^ (bits - 1) = 2 ^ bits) : bitCast bits (v + (2 ^ bits : Nat)).toNat = v := by
  rw [bitCast, if_neg (by omega)]
  omega

theorem reads_negative {code : UInt8} {r : Decoder Nat} {width : Nat} {v : Int} (bits : Nat)
    (hr : IsField .unexpectedEof r width)
    (hcode : readTag code.toNat = r >>= fun u => pure (.int (bitCast bits u)))
    (hmin : -(2 ^ (bits - 1) : Nat) ≤ v) (hneg : v < 0) (hbits : 2 * 2 ^ (bits - 1) = 2 ^ bits)
    (hwidth : 2 ^ bits = 256 ^ width) :
    Reads read (.int v) (code :: beBytes width (v + (2 ^ bits : Nat)).toNat) := by
  have hnumber := reads_number (fun u => .int (bitCast bits u)) hr hcode
    (u := (v + (2 ^ bits : Nat)).toNat) (by omega)
  rwa [bitCast_add hmin hneg hbits] at hnumber

/-- A number is read back, as unsigned if it is not negative. -/
theorem reads_writeInt {v : Int} (hmin : -2147483648 ≤ v) (hmax : v < 2147483648) :
    Reads read (if 0 ≤ v then .uint v.toNat else .int v) (writeInt v) := by
  unfold writeInt
  split_ifs with hnonneg h5 h8 h16
  · exact reads_writeUint (by omega)
  · -- negative fixint
    have htag : readTag (v + 0x100).toNat = pure (.int (bitCast 8 (v + 0x100).toNat)) := by
      unfold readTag
      rw [if_neg (by omega), if_pos (by omega)]
    have hcast : bitCast 8 (v + 0x100).toNat = v :=
      bitCast_add (show -(2 ^ (8 - 1) : Nat) ≤ v by omega) (by omega) rfl
    rw [hcast] at htag
    exact reads_byte (by omega) htag
  · exact reads_negative 8 readByte_isField rfl (by omega) (by omega) rfl rfl
  · exact reads_negative 16 readU16_isField rfl (by omega) (by omega) rfl rfl
  · exact reads_negative 32 readU32_isField rfl (by omega) (by omega) rfl rfl

theorem fixmap_code : ∀ len < 16, (0x80 ||| UInt8.ofNat len).toNat = 0x80 + len := by decide

theorem fixarray_code : ∀ len < 16, (0x90 ||| UInt8.ofNat len).toNat = 0x90 + len := by decide

theorem fixstr_code : ∀ len < 32, (0xa0 ||| UInt8.ofNat len).toNat = 0xa0 + len := by decide

theorem readTag_fixmap {len : Nat} (h : len < 16) : readTag (0x80 + len) = pure (.map len) := by
  have hmap := (mask_fixmap (0x80 + len) (by omega)).mpr (by omega)
  unfold readTag
  rw [if_neg (by omega), if_neg (by omega), if_pos hmap,
    low_four 0x80 (by omega) (by omega) rfl, Nat.add_sub_cancel_left]

theorem readTag_fixarray {len : Nat} (h : len < 16) :
    readTag (0x90 + len) = pure (.array len) := by
  have hmap := mask_fixmap (0x90 + len) (by omega)
  have harray := (mask_fixarray (0x90 + len) (by omega)).mpr (by omega)
  unfold readTag
  rw [if_neg (by omega), if_neg (by omega), if_neg (by omega), if_pos harray,
    low_four 0x90 (by omega) (by omega) rfl, Nat.add_sub_cancel_left]

theorem readTag_fixstr {len : Nat} (h : len < 32) :
    readTag (0xa0 + len) = readSlice len >>= fun s => pure (.str s) := by
  have hmap := mask_fixmap (0xa0 + len) (by omega)
  have harray := mask_fixarray (0xa0 + len) (by omega)
  have hstr := (mask_fixstr (0xa0 + len) (by omega)).mpr (by omega)
  unfold readTag
  rw [if_neg (by omega), if_neg (by omega), if_neg (by omega), if_neg (by omega), if_pos hstr]
  dsimp only
  rw [low_five (by omega) (by omega), Nat.add_sub_cancel_left]

/-- A string is read back. -/
theorem reads_writeStr {s : List UInt8} (h : s.length < 4294967296) :
    Reads read (.str s) (writeStr s) := by
  simp only [writeStr]
  split_ifs with h5 h8 h16
  · -- fixstr
    apply reads_code
    rw [fixstr_code _ (by omega), readTag_fixstr (by omega)]
    exact (readSlice_isSlice.reads s).bind_pure Value.str
  · exact reads_sized .str s readByte_isField rfl (by omega)
  · exact reads_sized .str s readU16_isField rfl (by omega)
  · exact reads_sized .str s readU32_isField rfl (by omega)

/-- Binary data is read back. -/
theorem reads_writeBin {data : List UInt8} (h : data.length < 4294967296) :
    Reads read (.bin data) (writeBin data) := by
  simp only [writeBin]
  split_ifs with h8 h16
  · exact reads_sized .bin data readByte_isField rfl (by omega)
  · exact reads_sized .bin data readU16_isField rfl (by omega)
  · exact reads_sized .bin data readU32_isField rfl (by omega)

/-- The header of an array is read back. -/
theorem reads_writeArrayHeader {count : Nat} (h : count < 65536) :
    Reads read (.array count) (writeArrayHeader count) := by
  unfold writeArrayHeader
  split_ifs with h4
  · apply reads_code
    rw [fixarray_code _ (by omega), readTag_fixarray (by omega)]
    exact Reads.pure _
  · exact reads_number .array readU16_isField rfl h

theorem reads_writeMapHeader {count : Nat} (h : count < 65536) :
    Reads read (.map count) (writeMapHeader count) := by
  unfold writeMapHeader
  split_ifs with h4
  · apply reads_code
    rw [fixmap_code _ (by omega), readTag_fixmap (by omega)]
    exact Reads.pure _
  · exact reads_number .map readU16_isField rfl h

/-! ## Reading a tree -/

/-- So many calls of `read`. -/
def readAll : Nat → Decoder (List Value)
  | 0 => return []
  | n + 1 => do
    let v ← read
    let vs ← readAll n
    return v :: vs

/-- `readAll` reads these values. -/
def ReadsAll (vs : List Value) (bytes : List UInt8) : Prop :=
  Reads (readAll vs.length) vs bytes

theorem ReadsAll.nil : ReadsAll [] [] := Reads.pure []

/-- A value and then some more. -/
theorem ReadsAll.cons {v : Value} {vs : List Value} {bytes bytes' : List UInt8}
    (h : Reads read v bytes) (hs : ReadsAll vs bytes') : ReadsAll (v :: vs) (bytes ++ bytes') :=
  h.bind (hs.bind_pure fun vs => v :: vs)

theorem ReadsAll.single {v : Value} {bytes : List UInt8} (h : Reads read v bytes) :
    ReadsAll [v] bytes := by
  have hcons := ReadsAll.cons h ReadsAll.nil
  rwa [List.append_nil] at hcons

/-- Values are read one part after the other. -/
theorem readAll_add (m n : Nat) :
    readAll (m + n) = readAll m >>= fun vs => readAll n >>= fun ws => pure (vs ++ ws) := by
  induction m with
  | zero =>
    rw [Nat.zero_add, readAll, pure_bind]
    exact (bind_pure (readAll n)).symm
  | succ m ih => simp only [Nat.succ_add, readAll, ih, bind_assoc, pure_bind, List.cons_append]

/-- Some values and then some more. -/
theorem ReadsAll.append {vs vs' : List Value} {bytes bytes' : List UInt8} (h : ReadsAll vs bytes)
    (h' : ReadsAll vs' bytes') : ReadsAll (vs ++ vs') (bytes ++ bytes') := by
  rw [ReadsAll, List.length_append, readAll_add]
  exact Reads.bind h (Reads.bind_pure h' fun ws => vs ++ ws)

mutual

/-- The values of a tree are read back. -/
theorem reads_write {t : Tree} (h : t.Fits) : ReadsAll (values t) (write t) := by
  match t with
  | .nil => exact .single (reads_code (Reads.pure _))
  | .bool true => exact .single (reads_code (Reads.pure _))
  | .bool false => exact .single (reads_code (Reads.pure _))
  | .int v => exact .single (reads_writeInt h.1 h.2)
  | .uint v => exact .single (reads_writeUint h)
  | .str s => exact .single (reads_writeStr h)
  | .bin data => exact .single (reads_writeBin h)
  -- a collection reads as its header and then all that is in it
  | .array elts => exact .cons (reads_writeArrayHeader h.1) (reads_writeElts h.2)
  | .map entries => exact .cons (reads_writeMapHeader h.1) (reads_writeEntries h.2)

theorem reads_writeElts {elts : List Tree} (h : FitElts elts) :
    ReadsAll (valuesElts elts) (writeElts elts) := by
  match elts with
  | [] => exact .nil
  | elt :: elts => exact (reads_write h.1).append (reads_writeElts h.2)

theorem reads_writeEntries {entries : List (Tree × Tree)} (h : FitEntries entries) :
    ReadsAll (valuesEntries entries) (writeEntries entries) := by
  match entries with
  | [] => exact .nil
  | (k, v) :: entries =>
    exact (reads_write h.1).append ((reads_write h.2.1).append (reads_writeEntries h.2.2))

end

/-! ## Skipping a tree -/

/-- `skip` of what starts with the bytes of a value goes on after this value. -/
theorem skipFuel_of_reads {v : Value} {bytes : List UInt8} (h : Reads read v bytes) {fuel : Nat}
    {rest : List UInt8} (hfuel : (bytes ++ rest).length ≤ fuel) :
    ∃ fuel', rest.length ≤ fuel' ∧
      skipFuel fuel (bytes ++ rest) = skipRest (skipFuel fuel') v rest := by
  -- a value has a byte at least, which pays for the step
  cases bytes with
  | nil => exact nomatch h []
  | cons code bytes =>
    cases fuel with
    | zero => simp at hfuel
    | succ fuel =>
      rw [List.length_append, List.length_cons] at hfuel
      refine ⟨fuel, by omega, ?_⟩
      rw [skipFuel, bind_apply, h rest]
      rfl

/-- A value that is not an array or a map is all that `skip` reads. -/
theorem skipFuel_scalar {v : Value} {bytes : List UInt8} (h : Reads read v bytes)
    (hv : ∀ d, skipRest d v = pure ()) {fuel : Nat} {rest : List UInt8}
    (hfuel : (bytes ++ rest).length ≤ fuel) : skipFuel fuel (bytes ++ rest) = .ok ((), rest) := by
  obtain ⟨fuel', -, hskip⟩ := skipFuel_of_reads h hfuel
  rw [hskip, hv]
  rfl

mutual

/-- `skip` skips what was written. -/
theorem skipFuel_write {t : Tree} (h : t.Fits) {fuel : Nat} {rest : List UInt8}
    (hfuel : (write t ++ rest).length ≤ fuel) :
    skipFuel fuel (write t ++ rest) = .ok ((), rest) := by
  match t with
  | .nil => exact skipFuel_scalar (v := .nil) (reads_code (Reads.pure _)) (fun _ => rfl) hfuel
  | .bool true =>
    exact skipFuel_scalar (v := .boolean true) (reads_code (Reads.pure _)) (fun _ => rfl) hfuel
  | .bool false =>
    exact skipFuel_scalar (v := .boolean false) (reads_code (Reads.pure _)) (fun _ => rfl) hfuel
  -- an integer is read signed or unsigned, by its code
  | .int v =>
    refine skipFuel_scalar (reads_writeInt h.1 h.2) (fun _ => ?_) hfuel
    split <;> rfl
  | .uint v => exact skipFuel_scalar (reads_writeUint h) (fun _ => rfl) hfuel
  | .str s => exact skipFuel_scalar (reads_writeStr h) (fun _ => rfl) hfuel
  | .bin data => exact skipFuel_scalar (reads_writeBin h) (fun _ => rfl) hfuel
  -- the header spends one unit of fuel, and the elements are shorter than the rest
  | .array elts =>
    rw [write, List.append_assoc] at hfuel ⊢
    obtain ⟨fuel', hfuel', hskip⟩ := skipFuel_of_reads (reads_writeArrayHeader h.1) hfuel
    rw [hskip]
    exact times_writeElts h.2 hfuel'
  | .map entries =>
    rw [write, List.append_assoc] at hfuel ⊢
    obtain ⟨fuel', hfuel', hskip⟩ := skipFuel_of_reads (reads_writeMapHeader h.1) hfuel
    rw [hskip]
    exact times_writeEntries h.2 hfuel'

/-- The elements of an array are skipped one after another. -/
theorem times_writeElts {elts : List Tree} (h : FitElts elts) {fuel : Nat} {rest : List UInt8}
    (hfuel : (writeElts elts ++ rest).length ≤ fuel) :
    times (skipFuel fuel) elts.length (writeElts elts ++ rest) = .ok ((), rest) := by
  match elts with
  | [] => rfl
  | elt :: elts =>
    rw [writeElts, List.append_assoc] at hfuel ⊢
    rw [List.length_cons, times, bind_apply, skipFuel_write h.1 hfuel]
    exact times_writeElts h.2 (by rw [List.length_append] at hfuel; omega)

theorem times_writeEntries {entries : List (Tree × Tree)} (h : FitEntries entries) {fuel : Nat}
    {rest : List UInt8} (hfuel : (writeEntries entries ++ rest).length ≤ fuel) :
    times (do skipFuel fuel; skipFuel fuel) entries.length (writeEntries entries ++ rest) =
      .ok ((), rest) := by
  match entries with
  | [] => rfl
  | (k, v) :: entries =>
    rw [writeEntries, List.append_assoc, List.append_assoc] at hfuel ⊢
    have hfuel' : (write v ++ (writeEntries entries ++ rest)).length ≤ fuel := by
      rw [List.length_append] at hfuel
      omega
    -- an entry is two values
    have hentry : (do skipFuel fuel; skipFuel fuel : Decoder Unit)
        (write k ++ (write v ++ (writeEntries entries ++ rest))) =
          .ok ((), writeEntries entries ++ rest) := by
      rw [bind_apply, skipFuel_write h.1 hfuel]
      exact skipFuel_write h.2.1 hfuel'
    rw [List.length_cons, times, bind_apply, hentry]
    exact times_writeEntries h.2.2 (by rw [List.length_append] at hfuel'; omega)

end

/-- What is written of a tree is one value of the format. -/
theorem write_isValue {t : Tree} (h : t.Fits) : format.IsValue (write t) := by
  have hskip := skipFuel_write h (Nat.le_refl (write t ++ []).length)
  rw [List.append_nil] at hskip
  rw [PrefixNotation.IsValue, ← skipFuel_skip _ _ (Nat.le_refl _), hskip]
  rfl

/-- A tree is measured as long as it was written, whatever follows. -/
theorem tryMeasure_write {t : Tree} (h : t.Fits) (rest : List UInt8) :
    tryMeasure (write t ++ rest) = some (write t).length := by
  rw [tryMeasure, skipFuel_write h (Nat.le_refl _)]
  dsimp only
  rw [List.length_append, Nat.add_sub_cancel]

/-- Less than a value is not measured. -/
theorem tryMeasure_prefix {t : Tree} (h : t.Fits) {p : List UInt8} (hp : p <+: write t)
    (hne : p ≠ write t) : tryMeasure p = none := by
  rw [tryMeasure_eq, format.skip_of_prefix hp hne (write_isValue h), Option.map_none]

/-- A number is read back by the reader of integers. -/
theorem readInt_writeInt {v : Int} (hmin : -2147483648 ≤ v) (hmax : v < 2147483648)
    (rest : List UInt8) : readInt (writeInt v ++ rest) = .ok (v, rest) := by
  have hread := reads_writeInt hmin hmax rest
  -- what is not negative comes back as unsigned, and within the range
  by_cases hnonneg : 0 ≤ v
  · rw [if_pos hnonneg] at hread
    rw [readInt, bind_apply, hread]
    show (if v.toNat ≤ 0x7fffffffffffffff then pure (v.toNat : Int)
      else throw DecodeError.overflow : Decoder Int) rest = _
    rw [if_pos (by omega), Int.toNat_of_nonneg hnonneg]
    rfl
  · rw [if_neg hnonneg] at hread
    rw [readInt, bind_apply, hread]
    rfl

/-- The messages of a stream are processed in order however it is read. -/
theorem readLoop_messages {ts : List Tree} (hts : ∀ t ∈ ts, t.Fits) {reads : List (List UInt8)}
    (hne : ∀ bytes ∈ reads, bytes ≠ []) (hreads : reads.flatten = (ts.map write).flatten) :
    readLoop reads = ⟨[], ts.map write, false⟩ := by
  have hvalues : ∀ b ∈ ts.map write, format.IsValue b := by
    intro b hb
    obtain ⟨t, ht, rfl⟩ := List.mem_map.mp hb
    exact write_isValue (hts t ht)
  rw [readLoop_eq hne, hreads, format.split_flatten hvalues]

/-- What is written is read back and measured, less than that is not measured, and the messages
    of a stream are processed in order however it is read. -/
theorem written_is_read :
    (∀ t : Tree, t.Fits → ∀ rest,
      readAll (values t).length (write t ++ rest) = .ok (values t, rest) ∧
      tryMeasure (write t ++ rest) = some (write t).length) ∧
    (∀ v : Int, -2147483648 ≤ v → v < 2147483648 → ∀ rest,
      readInt (writeInt v ++ rest) = .ok (v, rest)) ∧
    (∀ t : Tree, t.Fits → ∀ p, p <+: write t → p ≠ write t → tryMeasure p = none) ∧
    ∀ ts : List Tree, (∀ t ∈ ts, t.Fits) → ∀ reads : List (List UInt8),
      (∀ bytes ∈ reads, bytes ≠ []) → reads.flatten = (ts.map write).flatten →
      readLoop reads = ⟨[], ts.map write, false⟩ :=
  ⟨fun _ h rest => ⟨reads_write h rest, tryMeasure_write h rest⟩,
    fun _ hmin hmax rest => readInt_writeInt hmin hmax rest,
    fun _ h _ hp hne => tryMeasure_prefix h hp hne,
    fun _ hts _ hne hreads => readLoop_messages hts hne hreads⟩

/-- A list in a map, and two messages in three reads. -/
theorem written_is_read_messages :
    (readAll 4 ([0x81, 0xcc, 0xff, 0x91, 0xd0, 0xdf] ++ [7]) =
        .ok ([.map 1, .uint 255, .array 1, .int (-33)], [7]) ∧
      tryMeasure [0x81, 0xcc, 0xff, 0x91, 0xd0, 0xdf, 7] = some 6) ∧
    readInt [0x05] = .ok (5, []) ∧
    tryMeasure [0x81, 0xcc, 0xff, 0x91, 0xd0] = none ∧
    readLoop [[0x92], [0x01, 0xa0, 0x91], [0x02]] =
      ⟨[], [[0x92, 0x01, 0xa0], [0x91, 0x02]], false⟩ := by
  have hmap : (Tree.map [(.uint 255, .array [.int (-33)])]).Fits :=
    ⟨by decide, by show 255 < 4294967296; decide,
      ⟨by decide, ⟨by decide, by decide⟩, trivial⟩, trivial⟩
  refine ⟨written_is_read.1 _ hmap [7],
    written_is_read.2.1 5 (by decide) (by decide) [],
    written_is_read.2.2.1 _ hmap _ ⟨[0xdf], rfl⟩ (by decide), ?_⟩
  have hfirst : (Tree.array [.int 1, .str []]).Fits :=
    ⟨by decide, ⟨by decide, by decide⟩, by show 0 < 4294967296; decide, trivial⟩
  have hsecond : (Tree.array [.uint 2]).Fits :=
    ⟨by decide, by show 2 < 4294967296; decide, trivial⟩
  -- the messages are cut in the middle of the one and of the other
  apply written_is_read.2.2.2 [.array [.int 1, .str []], .array [.uint 2]]
  · simp only [List.mem_cons, List.not_mem_nil, or_false]
    rintro t (rfl | rfl)
    · exact hfirst
    · exact hsecond
  · decide
  · decide

end ZigClient

end Kgd
