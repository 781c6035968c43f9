import Kgd.Client.OCaml

/-!
# The OCaml codec

## Key results

- `OCamlClient.decodeFuel_skip`: what `decode` consumes is one value of the msgpack format, with
  the type codes it knows
- `OCamlClient.decodeFuel_encode`: an encoded value is decoded
- `OCamlClient.readLoop_messages`: however a stream of messages is read, they are all handled in
  order
-/

namespace Kgd

namespace OCamlClient

open Msgpack ByteReader

/-! ## Fields -/

/-- The type codes that `decode` knows. -/
abbrev format : PrefixNotation UInt8 := Msgpack.format.restrict basic

/-- One byte below another number. -/
theorem shiftLeft_or_byte (a k : Nat) {b : Nat} (hb : b < 256) :
    a <<< (k + 8) ||| b <<< k = (256 * a + b) <<< k := by
  rw [Nat.add_comm k 8, Nat.shiftLeft_add, ← Nat.shiftLeft_or_distrib,
    ← Nat.shiftLeft_add_eq_or_of_lt (i := 8) hb, Nat.shiftLeft_eq a 8, Nat.mul_comm a (2 ^ 8)]

theorem getUint8_isField : IsField .endOfInput getUint8 1 := by
  intro buf
  cases buf with
  | nil => rfl
  | cons b buf =>
    rw [if_pos (by simp)]
    simp [getUint8, bigEndian]

theorem getUint16BE_isField : IsField .endOfInput getUint16BE 2 := by
  intro buf
  match buf with
  | [] | [_] => rfl
  | b₀ :: b₁ :: buf =>
    rw [if_pos (by simp)]
    have hor := shiftLeft_or_byte b₀.toNat 0 b₁.toNat_lt
    simp only [Nat.zero_add, Nat.shiftLeft_zero] at hor
    simp [getUint16BE, bigEndian, hor]

theorem getUint32BE_isField : IsField .endOfInput getUint32BE 4 := by
  intro buf
  match buf with
  | [] | [_] | [_, _] | [_, _, _] => rfl
  | b₀ :: b₁ :: b₂ :: b₃ :: buf =>
    rw [if_pos (by simp)]
    -- the shifted bytes do not overlap, so `or` adds them
    have h₁ := shiftLeft_or_byte b₀.toNat 16 b₁.toNat_lt
    have h₂ := shiftLeft_or_byte (256 * b₀.toNat + b₁.toNat) 8 b₂.toNat_lt
    have h₃ := shiftLeft_or_byte (256 * (256 * b₀.toNat + b₁.toNat) + b₂.toNat) 0 b₃.toNat_lt
    simp only [Nat.reduceAdd, Nat.shiftLeft_zero] at h₁ h₂ h₃
    simp [getUint32BE, bigEndian, h₁, h₂, h₃]

theorem getBytes_isSlice : IsSlice .endOfInput getBytes := fun _ _ => rfl

/-! ## What `decode` consumes -/

variable {d : Reader T} {n : Nat}

/-- `decode` of a short enough buffer consumes one value. -/
def ReadsValue (d : Reader T) (n : Nat) : Prop :=
  ∀ buf, buf.length ≤ n → leftover (d buf) = format.skip 1 buf

/-- The loop of an array leaves what follows as many values. -/
theorem arrayLoop_skip (h : ReadsValue d n) (acc : List T) (remaining : Nat) {buf : List UInt8}
    (hbuf : buf.length ≤ n) :
    leftover (arrayLoop d acc remaining buf) = format.skip remaining buf := by
  induction remaining generalizing acc buf with
  | zero => rw [PrefixNotation.skip_zero]; rfl
  | succ remaining ih =>
    rw [arrayLoop, Nat.add_comm]
    exact leftover_bind_skip h (fun v _ hle => ih (v :: acc) hle) hbuf

theorem mapLoop_skip (h : ReadsValue d n) (acc : List (T × T)) (remaining : Nat)
    {buf : List UInt8} (hbuf : buf.length ≤ n) :
    leftover (mapLoop d acc remaining buf) = format.skip (2 * remaining) buf := by
  induction remaining generalizing acc buf with
  | zero => rw [PrefixNotation.skip_zero]; rfl
  | succ remaining ih =>
    rw [mapLoop, show 2 * (remaining + 1) = 1 + (1 + 2 * remaining) by omega]
    exact leftover_bind_skip h (fun k _ hle => leftover_bind_skip h
      (fun v _ hle => ih ((k, v) :: acc) hle) hle) hbuf

/-- Past the tag, `decode` consumes the rest of the value, if it knows the tag. -/
theorem decodeTag_skip (h : ReadsValue d n) (code : UInt8) {rest : List UInt8}
    (hrest : rest.length ≤ n) :
    leftover (decodeTag d code.toNat rest) = format.skip 1 (code :: rest) := by
  unfold decodeTag
  split
  · rename_i hfix
    rw [skip_code (basic_of_lt (by omega)) (shape_fixint (by omega)), PrefixNotation.skip_zero]
    rfl
  split
  · rename_i hneg
    rw [skip_code (basic_of_ge hneg) (shape_negative hneg), PrefixNotation.skip_zero]
    rfl
  split
  · rename_i hstr
    obtain ⟨hge, hle⟩ := hstr
    have hlen : code.toNat &&& 0x1f = code.toNat - 0xa0 :=
      (Nat.and_two_pow_sub_one_eq_mod code.toNat 5).trans (by omega)
    dsimp only
    rw [hlen]
    exact leftover_fixed getBytes_isSlice (basic_of_lt (by omega)) (shape_fixstr hge (by omega)) _
      rest
  split
  · rename_i harray
    obtain ⟨hge, hle⟩ := harray
    have hlen : code.toNat &&& 0x0f = code.toNat - 0x90 :=
      (Nat.and_two_pow_sub_one_eq_mod code.toNat 4).trans (by omega)
    rw [skip_code (basic_of_lt (by omega)) (shape_fixarray hge (by omega))]
    dsimp only
    rw [hlen]
    exact arrayLoop_skip h [] _ hrest
  split
  · rename_i hmap
    obtain ⟨hge, hle⟩ := hmap
    have hlen : code.toNat &&& 0x0f = code.toNat - 0x80 :=
      (Nat.and_two_pow_sub_one_eq_mod code.toNat 4).trans (by omega)
    rw [skip_code (basic_of_lt (by omega)) (shape_fixmap hge (by omega))]
    dsimp only
    rw [hlen]
    exact mapLoop_skip h [] _ hrest
  have harray : ∀ count buf, buf.length ≤ n →
      leftover (decodeArray d count buf) = format.skip (1 * count) buf := by
    intro count buf hbuf
    rw [Nat.one_mul]
    exact arrayLoop_skip h [] count hbuf
  have hmap : ∀ count buf, buf.length ≤ n →
      leftover (decodeMap d count buf) = format.skip (2 * count) buf :=
    fun count buf hbuf => mapLoop_skip h [] count hbuf
  generalize hc : code.toNat = c
  split
  -- nil, false, true
  · obtain rfl : code = 0xc0 := UInt8.toNat_inj.mp hc
    exact leftover_code rfl rfl _ rest
  · obtain rfl : code = 0xc2 := UInt8.toNat_inj.mp hc
    exact leftover_code rfl rfl _ rest
  · obtain rfl : code = 0xc3 := UInt8.toNat_inj.mp hc
    exact leftover_code rfl rfl _ rest
  -- bin
  · obtain rfl : code = 0xc4 := UInt8.toNat_inj.mp hc
    exact leftover_sized getUint8_isField getBytes_isSlice rfl rfl _ rest
  · obtain rfl : code = 0xc5 := UInt8.toNat_inj.mp hc
    exact leftover_sized getUint16BE_isField getBytes_isSlice rfl rfl _ rest
  · obtain rfl : code = 0xc6 := UInt8.toNat_inj.mp hc
    exact leftover_sized getUint32BE_isField getBytes_isSlice rfl rfl _ rest
  -- uint
  · obtain rfl : code = 0xcc := UInt8.toNat_inj.mp hc
    exact leftover_int getUint8_isField rfl rfl _ rest
  · obtain rfl : code = 0xcd := UInt8.toNat_inj.mp hc
    exact leftover_int getUint16BE_isField rfl rfl _ rest
  · obtain rfl : code = 0xce := UInt8.toNat_inj.mp hc
    exact leftover_int getUint32BE_isField rfl rfl _ rest
  -- int
  · obtain rfl : code = 0xd0 := UInt8.toNat_inj.mp hc
    simp only [getInt8, bind_assoc, pure_bind]
    exact leftover_int getUint8_isField rfl rfl _ rest
  · obtain rfl : code = 0xd1 := UInt8.toNat_inj.mp hc
    simp only [getInt16BE, bind_assoc, pure_bind]
    exact leftover_int getUint16BE_isField rfl rfl _ rest
  · obtain rfl : code = 0xd2 := UInt8.toNat_inj.mp hc
    simp only [getInt32BE, bind_assoc, pure_bind]
    exact leftover_int getUint32BE_isField rfl rfl _ rest
  -- str
  · obtain rfl : code = 0xd9 := UInt8.toNat_inj.mp hc
    exact leftover_sized getUint8_isField getBytes_isSlice rfl rfl _ rest
  · obtain rfl : code = 0xda := UInt8.toNat_inj.mp hc
    exact leftover_sized getUint16BE_isField getBytes_isSlice rfl rfl _ rest
  · obtain rfl : code = 0xdb := UInt8.toNat_inj.mp hc
    exact leftover_sized getUint32BE_isField getBytes_isSlice rfl rfl _ rest
  -- array and map
  · obtain rfl : code = 0xdc := UInt8.toNat_inj.mp hc
    exact leftover_counted getUint16BE_isField rfl rfl harray hrest
  · obtain rfl : code = 0xdd := UInt8.toNat_inj.mp hc
    exact leftover_counted getUint32BE_isField rfl rfl harray hrest
  · obtain rfl : code = 0xde := UInt8.toNat_inj.mp hc
    exact leftover_counted getUint16BE_isField rfl rfl hmap hrest
  · obtain rfl : code = 0xdf := UInt8.toNat_inj.mp hc
    exact leftover_counted getUint32BE_isField rfl rfl hmap hrest
  -- the other codes are not known
  · have hunknown : basic code = false := by
      simp only [imp_false] at *
      simp [basic, hc]
      omega
    rw [skip_restrict_unknown hunknown]
    rfl

/-- `decode` consumes one value of the format, with the type codes it knows. -/
theorem decodeFuel_skip (fuel : Nat) : ReadsValue (decodeFuel fuel) fuel := by
  -- on the fuel, which is the length of what is left
  induction fuel with
  | zero =>
    intro buf hbuf
    rw [List.length_eq_zero_iff.mp (Nat.le_zero.mp hbuf), PrefixNotation.skip_nil]
    rfl
  | succ fuel ih =>
    intro buf hbuf
    cases buf with
    | nil =>
      rw [PrefixNotation.skip_nil]
      rfl
    | cons code rest => exact decodeTag_skip ih code (Nat.le_of_succ_le_succ hbuf)

/-! ## What is encoded is decoded -/

mutual

/-- The integers lie in [-2^31, 2^32), and the sizes are below 2^32. -/
def T.Fits : T → Prop
  | .nil | .bool _ => True
  | .int n => -2147483648 ≤ n ∧ n < 4294967296
  | .str s => s.length < 4294967296
  | .bin b => b.length < 4294967296
  | .array elts => elts.length < 4294967296 ∧ FitElts elts
  | .map pairs => pairs.length < 4294967296 ∧ FitPairs pairs

/-- `Fits`, of every element. -/
def FitElts : List T → Prop
  | [] => True
  | elt :: elts => elt.Fits ∧ FitElts elts

/-- `Fits`, of every key and value. -/
def FitPairs : List (T × T) → Prop
  | [] => True
  | (k, v) :: pairs => k.Fits ∧ v.Fits ∧ FitPairs pairs

end

theorem bufAddUint8_eq (v : Nat) : bufAddUint8 v = beBytes 1 v := rfl

theorem bufAddUint16BE_eq (v : Nat) : bufAddUint16BE v = beBytes 2 v := by
  rw [bufAddUint16BE, Nat.shiftRight_eq_div_pow]
  rfl

theorem bufAddUint32BE_eq (v : Nat) : bufAddUint32BE v = beBytes 4 v := by
  simp only [bufAddUint32BE, Nat.shiftRight_eq_div_pow, beBytes, List.nil_append,
    List.cons_append, Nat.div_div_eq_div_mul]

theorem decodeTag_fixint (d : Reader T) {tag : Nat} (h : tag ≤ 0x7f) :
    decodeTag d tag = pure (.int tag) := by
  unfold decodeTag
  exact if_pos h

/-- A negative fixint is its tag, as a signed byte. -/
theorem decodeTag_negative (d : Reader T) {tag : Nat} (h : 0xe0 ≤ tag) :
    decodeTag d tag = pure (.int (tag - 256)) := by
  unfold decodeTag
  rw [if_neg (by omega), if_pos h]

theorem decodeTag_fixstr (d : Reader T) {len : Nat} (h : len ≤ 31) :
    decodeTag d (0xa0 + len) = getBytes len >>= fun s => pure (.str s) := by
  have hlen : (0xa0 + len) &&& 0x1f = len :=
    (Nat.and_two_pow_sub_one_eq_mod (0xa0 + len) 5).trans (by omega)
  unfold decodeTag
  rw [if_neg (by omega), if_neg (by omega), if_pos (by omega)]
  dsimp only
  rw [hlen]

theorem decodeTag_fixarray (d : Reader T) {len : Nat} (h : len ≤ 15) :
    decodeTag d (0x90 + len) = decodeArray d len := by
  have hlen : (0x90 + len) &&& 0x0f = len :=
    (Nat.and_two_pow_sub_one_eq_mod (0x90 + len) 4).trans (by omega)
  unfold decodeTag
  rw [if_neg (by omega), if_neg (by omega), if_neg (by omega), if_pos (by omega)]
  dsimp only
  rw [hlen]

theorem decodeTag_fixmap (d : Reader T) {len : Nat} (h : len ≤ 15) :
    decodeTag d (0x80 + len) = decodeMap d len := by
  have hlen : (0x80 + len) &&& 0x0f = len :=
    (Nat.and_two_pow_sub_one_eq_mod (0x80 + len) 4).trans (by omega)
  unfold decodeTag
  rw [if_neg (by omega), if_neg (by omega), if_neg (by omega), if_neg (by omega),
    if_pos (by omega)]
  dsimp only
  rw [hlen]

/-- After the tag and the field in `bytes`, `decode` goes on as `r`. -/
def Heads (bytes : List UInt8) (r : Reader T → Reader T) : Prop :=
  ∃ code field, bytes = code :: field ∧
    ∀ d rest, decodeTag d code.toNat (field ++ rest) = r d rest

/-- A code and a field of its width. -/
theorem heads_field {code : UInt8} {r : Reader Nat} {width v : Nat}
    (hr : IsField .endOfInput r width) {f : Reader T → Nat → Reader T}
    (hcode : ∀ d, decodeTag d code.toNat = r >>= f d)
    (hv : v < 256 ^ width) : Heads (code :: beBytes width v) fun d => f d v := by
  refine ⟨code, beBytes width v, rfl, fun d rest => ?_⟩
  rw [hcode, bind_apply, hr.reads hv]
  rfl

/-- An unsigned number behind its code. -/
theorem heads_uint {code : UInt8} {r : Reader Nat} {width : Nat} {n : Int}
    (hr : IsField .endOfInput r width)
    (hcode : ∀ d, decodeTag d code.toNat = r >>= fun v => pure (T.int v)) (hn : 0 ≤ n)
    (hlt : n < (256 ^ width : Nat)) :
    Heads (code :: beBytes width n.toNat) fun _ => pure (.int n) := by
  have hfield := heads_field hr hcode (show n.toNat < 256 ^ width by omega)
  rwa [Int.toNat_of_nonneg hn] at hfield

/-- A negative number is its field, less the range of the field. -/
theorem heads_negative {code : UInt8} {r : Reader Nat} {width : Nat} {n : Int} (half : Nat)
    (f : Nat → Int) (hr : IsField .endOfInput r width)
    (hcode : ∀ d, decodeTag d code.toNat = r >>= fun v => pure (T.int (f v)))
    (hf : ∀ v, half ≤ v → f v = v - (256 ^ width : Nat)) (hn : n < 0) (hmin : -half ≤ n)
    (hhalf : 2 * half = 256 ^ width) :
    Heads (code :: beBytes width (n % (256 ^ width : Nat)).toNat) fun _ => pure (.int n) := by
  have hmod : n % (256 ^ width : Nat) = n + (256 ^ width : Nat) := by
    rw [← Int.add_emod_right, Int.emod_eq_of_lt (by omega) (by omega)]
  have hfield := heads_field hr hcode (v := (n % (256 ^ width : Nat)).toNat) (by omega)
  have hvalue : f (n % (256 ^ width : Nat)).toNat = n := by
    rw [hf _ (by omega)]
    omega
  rwa [hvalue] at hfield

/-- A number that fits is written so that it is decoded. -/
theorem heads_int (n : Int) (h : (T.int n).Fits) : Heads (encodeInt n) fun _ => pure (.int n) := by
  have hfits : -2147483648 ≤ n ∧ n < 4294967296 := by simpa only [T.Fits] using h
  obtain ⟨hmin, hmax⟩ := hfits
  simp only [encodeInt, bufAddUint16BE_eq, bufAddUint32BE_eq]
  split_ifs with hnonneg h7 h8 h16 h5 h8' h16'
  · -- positive fixint
    refine ⟨_, [], rfl, fun d rest => ?_⟩
    have hcode : (UInt8.ofNat n.toNat).toNat = n.toNat := by
      rw [UInt8.toNat_ofNat']
      omega
    rw [hcode, decodeTag_fixint d (by omega), Int.toNat_of_nonneg hnonneg]
    rfl
  · exact heads_uint getUint8_isField (fun _ => rfl) hnonneg (by omega)
  · exact heads_uint getUint16BE_isField (fun _ => rfl) hnonneg (by omega)
  · exact heads_uint getUint32BE_isField (fun _ => rfl) hnonneg (by omega)
  · -- negative fixint
    refine ⟨_, [], rfl, fun d rest => ?_⟩
    have hcode : (UInt8.ofNat (n % 0x100).toNat).toNat = (n + 256).toNat := by
      rw [UInt8.toNat_ofNat']
      omega
    rw [hcode, decodeTag_negative d (by omega), Int.toNat_of_nonneg (by omega),
      show n + 256 - 256 = n by omega]
    rfl
  · exact heads_negative 128 (fun v => if 128 ≤ v then (v : Int) - 256 else v) getUint8_isField
      (fun d => bind_assoc getUint8 _ _) (fun v hv => if_pos hv) (by omega) (by omega) rfl
  · exact heads_negative 32768 (fun v => if 32768 ≤ v then (v : Int) - 65536 else v)
      getUint16BE_isField (fun d => bind_assoc getUint16BE _ _) (fun v hv => if_pos hv)
      (by omega) (by omega) rfl
  · exact heads_negative 2147483648
      (fun v => if 0x7fffffff < v then (v : Int) - (1 <<< 32 : Nat) else v) getUint32BE_isField
      (fun d => bind_assoc getUint32BE _ _) (fun v hv => if_pos (by omega)) (by omega) (by omega)
      rfl

/-- A header that is one byte. -/
theorem heads_code {tag : Nat} {r : Reader T → Reader T} (htag : tag < 256)
    (h : ∀ d, decodeTag d tag = r d) : Heads [.ofNat tag] r := by
  refine ⟨_, [], rfl, fun d rest => ?_⟩
  rw [UInt8.toNat_ofNat', Nat.mod_eq_of_lt htag, h]
  rfl

/-- A header that announces so many bytes, and these bytes. -/
theorem Heads.append_bytes {header b : List UInt8} {f : List UInt8 → T}
    (h : Heads header fun _ => getBytes b.length >>= fun b => pure (f b)) :
    Heads (header ++ b) fun _ => pure (f b) := by
  obtain ⟨code, field, rfl, hread⟩ := h
  refine ⟨code, field ++ b, rfl, fun d rest => ?_⟩
  rw [List.append_assoc, hread]
  exact getBytes_isSlice.reads b |>.bind_pure f rest

/-- A header with the length of the bytes that follow. -/
theorem heads_sized {code : UInt8} {r : Reader Nat} {width len : Nat} {f : List UInt8 → T}
    (hr : IsField .endOfInput r width)
    (hcode : ∀ d, decodeTag d code.toNat =
      r >>= fun len => getBytes len >>= fun b => pure (f b))
    (hlen : len < 256 ^ width) :
    Heads (code :: beBytes width len) fun _ => getBytes len >>= fun b => pure (f b) :=
  heads_field (f := fun _ len => getBytes len >>= fun b => pure (f b)) hr hcode hlen

theorem fixstr_tag : ∀ len < 32, 0xa0 ||| len = 0xa0 + len := by decide

theorem fixarray_tag : ∀ len < 16, 0x90 ||| len = 0x90 + len := by decide

theorem fixmap_tag : ∀ len < 16, 0x80 ||| len = 0x80 + len := by decide

theorem heads_str (s : List UInt8) (h : s.length < 4294967296) :
    Heads (encodeStr s) fun _ => pure (.str s) := by
  simp only [encodeStr, bufAddUint16BE_eq, bufAddUint32BE_eq]
  apply Heads.append_bytes
  split_ifs with h5 h8 h16
  · rw [fixstr_tag _ (by omega)]
    exact heads_code (by omega) fun d => decodeTag_fixstr d h5
  · exact heads_sized getUint8_isField (fun _ => rfl) (by omega)
  · exact heads_sized getUint16BE_isField (fun _ => rfl) (by omega)
  · exact heads_sized getUint32BE_isField (fun _ => rfl) (by omega)

theorem heads_bin (b : List UInt8) (h : b.length < 4294967296) :
    Heads (encodeBin b) fun _ => pure (.bin b) := by
  simp only [encodeBin, bufAddUint16BE_eq, bufAddUint32BE_eq]
  apply Heads.append_bytes
  split_ifs with h8 h16
  · exact heads_sized getUint8_isField (fun _ => rfl) (by omega)
  · exact heads_sized getUint16BE_isField (fun _ => rfl) (by omega)
  · exact heads_sized getUint32BE_isField (fun _ => rfl) (by omega)

/-- The header of an array is written so that its elements are decoded next. -/
theorem heads_arrayHeader {len : Nat} (h : len < 4294967296) :
    Heads (encodeArrayHeader len) fun d => decodeArray d len := by
  simp only [encodeArrayHeader, bufAddUint16BE_eq, bufAddUint32BE_eq]
  split_ifs with h4 h16
  · rw [fixarray_tag _ (by omega)]
    exact heads_code (by omega) fun d => decodeTag_fixarray d h4
  · exact heads_field (f := decodeArray) getUint16BE_isField (fun _ => rfl) (by omega)
  · exact heads_field (f := decodeArray) getUint32BE_isField (fun _ => rfl) (by omega)

theorem heads_mapHeader {len : Nat} (h : len < 4294967296) :
    Heads (encodeMapHeader len) fun d => decodeMap d len := by
  simp only [encodeMapHeader, bufAddUint16BE_eq, bufAddUint32BE_eq]
  split_ifs with h4 h16
  · rw [fixmap_tag _ (by omega)]
    exact heads_code (by omega) fun d => decodeTag_fixmap d h4
  · exact heads_field (f := decodeMap) getUint16BE_isField (fun _ => rfl) (by omega)
  · exact heads_field (f := decodeMap) getUint32BE_isField (fun _ => rfl) (by omega)

/-- `decode` of what starts with a header goes on as the header says. -/
theorem Heads.decodeFuel_append {bytes : List UInt8} {r : Reader T → Reader T}
    (h : Heads bytes r) {fuel : Nat} {rest : List UInt8}
    (hfuel : (bytes ++ rest).length ≤ fuel) :
    ∃ fuel', fuel = fuel' + 1 ∧ rest.length ≤ fuel' ∧
      decodeFuel fuel (bytes ++ rest) = r (decodeFuel fuel') rest := by
  obtain ⟨code, field, rfl, hread⟩ := h
  cases fuel with
  | zero => simp at hfuel
  | succ fuel =>
    rw [List.length_append, List.length_cons] at hfuel
    exact ⟨fuel, rfl, by omega, hread _ rest⟩

mutual

/-- An encoded value is decoded. -/
theorem decodeFuel_encode {v : T} (hv : v.Fits) {fuel : Nat} {rest : List UInt8}
    (hfuel : (encode v ++ rest).length ≤ fuel) :
    decodeFuel fuel (encode v ++ rest) = .ok (v, rest) := by
  match v with
  | .nil =>
    have hheads : Heads [.ofNat 0xc0] fun _ => pure .nil := heads_code (by omega) fun _ => rfl
    obtain ⟨_, _, _, hdecode⟩ := hheads.decodeFuel_append hfuel
    exact hdecode
  | .bool true =>
    have hheads : Heads [.ofNat 0xc3] fun _ => pure (.bool true) :=
      heads_code (by omega) fun _ => rfl
    obtain ⟨_, _, _, hdecode⟩ := hheads.decodeFuel_append hfuel
    exact hdecode
  | .bool false =>
    have hheads : Heads [.ofNat 0xc2] fun _ => pure (.bool false) :=
      heads_code (by omega) fun _ => rfl
    obtain ⟨_, _, _, hdecode⟩ := hheads.decodeFuel_append hfuel
    exact hdecode
  | .int n =>
    obtain ⟨_, _, _, hdecode⟩ := (heads_int n hv).decodeFuel_append hfuel
    exact hdecode
  | .str s =>
    obtain ⟨_, _, _, hdecode⟩ := (heads_str s hv).decodeFuel_append hfuel
    exact hdecode
  | .bin b =>
    obtain ⟨_, _, _, hdecode⟩ := (heads_bin b hv).decodeFuel_append hfuel
    exact hdecode
  -- the header spends one unit of fuel, and the elements are shorter than the rest
  | .array elts =>
    obtain ⟨hlen, helts⟩ := hv
    rw [encode, List.append_assoc] at hfuel ⊢
    obtain ⟨fuel', -, hfuel', hdecode⟩ := (heads_arrayHeader hlen).decodeFuel_append hfuel
    rw [hdecode]
    exact arrayLoop_encode helts [] hfuel'
  | .map pairs =>
    obtain ⟨hlen, hpairs⟩ := hv
    rw [encode, List.append_assoc] at hfuel ⊢
    obtain ⟨fuel', -, hfuel', hdecode⟩ := (heads_mapHeader hlen).decodeFuel_append hfuel
    rw [hdecode]
    exact mapLoop_encode hpairs [] hfuel'

/-- The loop of an array decodes the elements that were encoded. -/
theorem arrayLoop_encode {elts : List T} (h : FitElts elts) (acc : List T) {fuel : Nat}
    {rest : List UInt8} (hfuel : (encodeElts elts ++ rest).length ≤ fuel) :
    arrayLoop (decodeFuel fuel) acc elts.length (encodeElts elts ++ rest) =
      .ok (.array (acc.reverse ++ elts), rest) := by
  match elts with
  | [] =>
    rw [List.append_nil]
    rfl
  | elt :: elts =>
    obtain ⟨helt, helts⟩ := h
    rw [encodeElts, List.append_assoc] at hfuel ⊢
    rw [List.length_cons, arrayLoop, bind_apply, decodeFuel_encode helt hfuel]
    show arrayLoop (decodeFuel fuel) (elt :: acc) elts.length (encodeElts elts ++ rest) = _
    -- the elements pile up in reverse
    rw [arrayLoop_encode helts (elt :: acc) (by rw [List.length_append] at hfuel; omega),
      List.reverse_cons, List.append_assoc]
    rfl

/-- The loop of a map decodes the entries that were encoded. -/
theorem mapLoop_encode {pairs : List (T × T)} (h : FitPairs pairs) (acc : List (T × T))
    {fuel : Nat} {rest : List UInt8} (hfuel : (encodePairs pairs ++ rest).length ≤ fuel) :
    mapLoop (decodeFuel fuel) acc pairs.length (encodePairs pairs ++ rest) =
      .ok (.map (acc.reverse ++ pairs), rest) := by
  match pairs with
  | [] =>
    rw [List.append_nil]
    rfl
  | (k, v) :: pairs =>
    obtain ⟨hk, hv, hpairs⟩ := h
    rw [encodePairs, List.append_assoc, List.append_assoc] at hfuel ⊢
    -- fuel for the value and for the pairs after it
    have hfuel' : (encode v ++ (encodePairs pairs ++ rest)).length ≤ fuel := by
      rw [List.length_append] at hfuel
      omega
    have hfuel'' : (encodePairs pairs ++ rest).length ≤ fuel := by
      rw [List.length_append] at hfuel'
      omega
    rw [List.length_cons, mapLoop, bind_apply, decodeFuel_encode hk hfuel]
    show Except.bind (decodeFuel fuel (encode v ++ (encodePairs pairs ++ rest)))
      (fun q => mapLoop (decodeFuel fuel) ((k, q.1) :: acc) _ q.2) = _
    rw [decodeFuel_encode hv (by omega)]
    show mapLoop (decodeFuel fuel) ((k, v) :: acc) pairs.length (encodePairs pairs ++ rest) = _
    rw [mapLoop_encode hpairs ((k, v) :: acc) (by omega), List.reverse_cons, List.append_assoc]
    rfl

end

/-- A value that fits is decoded as it was encoded, whatever follows. -/
theorem decode_encode {v : T} (hv : v.Fits) (rest : List UInt8) :
    decode (encode v ++ rest) 0 = .ok (v, (encode v).length) := by
  rw [decode, List.drop_zero, decodeFuel_encode hv (Nat.le_refl _)]
  dsimp only
  rw [List.length_append, Nat.add_sub_cancel]

/-- What is encoded is one value of the format. -/
theorem encode_isValue {v : T} (hv : v.Fits) : format.IsValue (encode v) := by
  show format.skip 1 (encode v) = some []
  have hdecode := decodeFuel_encode hv (Nat.le_refl (encode v ++ []).length)
  rw [List.append_nil] at hdecode
  rw [← decodeFuel_skip _ _ (Nat.le_refl _), hdecode]
  rfl

/-- `decode` fails where there is no value. -/
theorem decode_eq_error {buf : List UInt8} {ofs : Nat} (h : format.skip 1 (buf.drop ofs) = none) :
    ∃ e, decode buf ofs = .error e := by
  rw [← decodeFuel_skip _ _ (Nat.le_refl _)] at h
  rw [decode]
  cases hd : decodeFuel (buf.drop ofs).length (buf.drop ofs) with
  | ok p =>
    rw [hd] at h
    exact nomatch h
  | error e => exact ⟨e, rfl⟩

/-- Less than an encoded value is not decoded. -/
theorem decode_prefix {v : T} (hv : v.Fits) {p : List UInt8} (hp : p <+: encode v)
    (hne : p ≠ encode v) : ∃ e, decode p 0 = .error e :=
  decode_eq_error (format.skip_of_prefix hp hne (encode_isValue hv))

/-! ## Reading messages -/

variable {d' : Reader T}

/-- The loop of an array looks no further than its elements. -/
theorem arrayLoop_extends (h : Extends d d') (acc : List T) (remaining : Nat) :
    Extends (arrayLoop d acc remaining) (arrayLoop d' acc remaining) := by
  induction remaining generalizing acc with
  | zero => exact .pure _
  | succ remaining ih => exact h.bind fun v => ih (v :: acc)

theorem mapLoop_extends (h : Extends d d') (acc : List (T × T)) (remaining : Nat) :
    Extends (mapLoop d acc remaining) (mapLoop d' acc remaining) := by
  induction remaining generalizing acc with
  | zero => exact .pure _
  | succ remaining ih => exact h.bind fun k => h.bind fun v => ih ((k, v) :: acc)

/-- A number and what is made of it. -/
theorem extends_number {r : Reader Nat} {width : Nat} (hr : IsField .endOfInput r width)
    (f : Nat → T) : Extends (r >>= fun v => pure (f v)) (r >>= fun v => pure (f v)) :=
  hr.extends.bind fun v => .pure (f v)

/-- A slice looks no further than its bytes. -/
theorem extends_bytes (len : Nat) (f : List UInt8 → T) :
    Extends (getBytes len >>= fun b => pure (f b)) (getBytes len >>= fun b => pure (f b)) :=
  (getBytes_isSlice.extends len).bind fun b => .pure (f b)

/-- What is decoded behind a tag looks no further than its parts. -/
theorem decodeTag_extends (h : Extends d d') (tag : Nat) :
    Extends (decodeTag d tag) (decodeTag d' tag) := by
  have harray : ∀ len, Extends (decodeArray d len) (decodeArray d' len) :=
    arrayLoop_extends h []
  have hmap : ∀ len, Extends (decodeMap d len) (decodeMap d' len) := mapLoop_extends h []
  unfold decodeTag
  split
  · exact .pure _
  split
  · exact .pure _
  split
  · exact extends_bytes _ .str
  split
  · exact harray _
  split
  · exact hmap _
  split
  -- nil, false, true
  · exact .pure _
  · exact .pure _
  · exact .pure _
  -- bin
  · exact getUint8_isField.extends.bind fun len => extends_bytes len .bin
  · exact getUint16BE_isField.extends.bind fun len => extends_bytes len .bin
  · exact getUint32BE_isField.extends.bind fun len => extends_bytes len .bin
  -- uint
  · exact extends_number getUint8_isField _
  · exact extends_number getUint16BE_isField _
  · exact extends_number getUint32BE_isField _
  -- int
  · exact (getUint8_isField.extends.bind fun v => .pure _).bind fun n => .pure _
  · exact (getUint16BE_isField.extends.bind fun v => .pure _).bind fun n => .pure _
  · exact (getUint32BE_isField.extends.bind fun v => .pure _).bind fun n => .pure _
  -- str
  · exact getUint8_isField.extends.bind fun len => extends_bytes len .str
  · exact getUint16BE_isField.extends.bind fun len => extends_bytes len .str
  · exact getUint32BE_isField.extends.bind fun len => extends_bytes len .str
  -- array and map
  · exact getUint16BE_isField.extends.bind harray
  · exact getUint32BE_isField.extends.bind harray
  · exact getUint16BE_isField.extends.bind hmap
  · exact getUint32BE_isField.extends.bind hmap
  · exact .throw _ _

/-- Neither what follows the value nor more fuel changes what is decoded. -/
theorem decodeFuel_extends {fuel fuel' : Nat} (h : fuel ≤ fuel') :
    Extends (decodeFuel fuel) (decodeFuel fuel') := by
  induction fuel generalizing fuel' with
  | zero => exact .throw _ _
  | succ fuel ih =>
    cases fuel' with
    | zero => omega
    | succ fuel' =>
      exact getUint8_isField.extends.bind fun tag => decodeTag_extends (ih (by omega)) tag

/-- A message with its handler. -/
def dispatch (msg : T) : T × Handler := (msg, handler msg)

/-- The value that some bytes are the encoding of. -/
def valueOf (b : List UInt8) : T :=
  match decodeFuel b.length b with
  | .ok (v, _) => v
  | .error _ => .nil

/-- The value of what was encoded is the value. -/
theorem valueOf_encode {v : T} (hv : v.Fits) : valueOf (encode v) = v := by
  have hdecode := decodeFuel_encode hv (Nat.le_refl (encode v ++ []).length)
  rw [List.append_nil] at hdecode
  rw [valueOf, hdecode]

/-- `decode` returns the value at the offset, and where it ends. -/
theorem decode_eq_ok {buf b rest : List UInt8} {ofs : Nat} (hb : format.IsValue b)
    (h : buf.drop ofs = b ++ rest) :
    decode buf ofs = .ok (valueOf b, buf.length - rest.length) := by
  rw [PrefixNotation.IsValue, ← decodeFuel_skip _ _ (Nat.le_refl _)] at hb
  rw [decode, h, valueOf]
  cases hread : decodeFuel b.length b with
  | error e =>
    rw [hread] at hb
    cases hb
  | ok p =>
    obtain ⟨v, left⟩ := p
    rw [hread] at hb
    obtain rfl : left = [] := Option.some.inj hb
    -- what follows the value makes no difference
    rw [decodeFuel_extends (by simp) hread rest]
    rfl

/-- `decode_loop` splits what follows the offset. -/
theorem decodeLoop_eq {data : List UInt8} {ofs : Nat} (hofs : ofs ≤ data.length) {fuel : Nat}
    (hfuel : (data.drop ofs).length ≤ fuel) :
    decodeLoop data fuel ofs =
      ((format.split (data.drop ofs)).1.map fun b => dispatch (valueOf b),
        data.length - (format.split (data.drop ofs)).2.length) := by
  have hdrop : (data.drop ofs).length = data.length - ofs := List.length_drop
  have hstop : data.length - (data.drop ofs).length = ofs := by omega
  induction fuel generalizing ofs with
  | zero =>
    rw [List.length_eq_zero_iff.mp (Nat.le_zero.mp hfuel)] at hstop ⊢
    rw [PrefixNotation.split_nil, hstop]
    rfl
  | succ fuel ih =>
    rw [decodeLoop]
    split
    · rename_i hend
      have hnil : data.drop ofs = [] := List.length_eq_zero_iff.mp (by omega)
      rw [hnil] at hstop ⊢
      rw [PrefixNotation.split_nil, hstop]
      rfl
    cases hskip : format.skip 1 (data.drop ofs) with
    | none =>
      obtain ⟨e, he⟩ := decode_eq_error hskip
      rw [he, format.split_of_none hskip, hstop]
      rfl
    | some rest =>
      obtain ⟨b, hb, happend⟩ := (format_exact.restrict basic).isValue_of_skip hskip
      have hpos := format.length_skip_lt hskip
      have hlen : (data.drop ofs).length = b.length + rest.length := by
        rw [happend, List.length_append]
      -- what follows the message is at the offset that `decode` returns
      have hnext : data.drop (data.length - rest.length) = rest := by
        have hsum : data.length - rest.length = ofs + b.length := by omega
        rw [hsum, ← List.drop_drop, happend, List.drop_left]
      have htake : (data.drop ofs).take ((data.drop ofs).length - rest.length) = b := by
        rw [happend, List.length_append, Nat.add_sub_cancel, List.take_left]
      have ih' := @ih (data.length - rest.length) (by omega) (by rw [hnext]; omega)
        (by rw [hnext]; omega) (by rw [hnext])
      rw [decode_eq_ok hb happend, format.split_of_some hskip, htake]
      dsimp only
      rw [ih', hnext]
      rfl

/-- However a stream is cut into reads, its values are handled in order, and the rest is kept. -/
theorem readLoop_eq {reads : List (List UInt8)} (hne : ∀ bytes ∈ reads, bytes ≠ []) :
    readLoop reads =
      ⟨(format.split reads.flatten).2,
        (format.split reads.flatten).1.map fun b => dispatch (valueOf b), false⟩ := by
  have hread : ∀ bytes ∈ reads, ∀ s : List (List UInt8) × List UInt8,
      ReadLoop.read ⟨s.2, s.1.map fun b => dispatch (valueOf b), false⟩ bytes =
        ⟨(format.feed s bytes).2,
          (format.feed s bytes).1.map fun b => dispatch (valueOf b), false⟩ := by
    intro bytes hmem s
    -- an empty read would be the end of the input
    have hbytes : ¬ bytes.length = 0 := by simpa using hne bytes hmem
    have hloop := decodeLoop_eq (Nat.zero_le (s.2 ++ bytes).length) (Nat.le_refl _)
    rw [List.drop_zero] at hloop
    unfold ReadLoop.read
    rw [if_neg Bool.false_ne_true, if_neg hbytes]
    dsimp only
    rw [hloop]
    dsimp only
    rw [format.drop_split, PrefixNotation.feed, List.map_append]
  rw [readLoop, ← List.flatMap_id]
  exact format.foldl_view
    (fun s => (⟨s.2, s.1.map fun b => dispatch (valueOf b), false⟩ : ReadLoop)) hread

/-- However a stream of messages is read, they are all handled in order. -/
theorem readLoop_messages {vs : List T} (hvs : ∀ v ∈ vs, v.Fits) {reads : List (List UInt8)}
    (hne : ∀ bytes ∈ reads, bytes ≠ []) (hreads : reads.flatten = (vs.map encode).flatten) :
    readLoop reads = ⟨[], vs.map dispatch, false⟩ := by
  -- each message is one value of the format
  have hvalues : ∀ b ∈ vs.map encode, format.IsValue b := by
    intro b hb
    obtain ⟨v, hv, rfl⟩ := List.mem_map.mp hb
    exact encode_isValue (hvs v hv)
  rw [readLoop_eq hne, hreads, format.split_flatten hvalues, List.map_map]
  congr 1
  apply List.map_congr_left
  intro v hv
  show dispatch (valueOf (encode v)) = dispatch v
  rw [valueOf_encode (hvs v hv)]

/-- Encoded values are decoded, less than one is rejected, and the messages of a stream are
    handled in order however it is read. -/
theorem codec_and_reader :
    (∀ v : T, v.Fits → ∀ rest, decode (encode v ++ rest) 0 = .ok (v, (encode v).length)) ∧
    (∀ v : T, v.Fits → ∀ p, p <+: encode v → p ≠ encode v → ∃ e, decode p 0 = .error e) ∧
    ∀ vs : List T, (∀ v ∈ vs, v.Fits) → ∀ reads : List (List UInt8),
      (∀ bytes ∈ reads, bytes ≠ []) → reads.flatten = (vs.map encode).flatten →
      readLoop reads = ⟨[], vs.map dispatch, false⟩ :=
  ⟨fun _ hv rest => decode_encode hv rest, fun _ hv _ hp hne => decode_prefix hv hp hne,
    fun _ hvs _ hne hreads => readLoop_messages hvs hne hreads⟩

/-- -33, and a response followed by a notification in three reads. -/
theorem codec_and_reader_messages :
    decode [0xd0, 0xdf, 7] 0 = .ok (.int (-33), 2) ∧
    (∃ e, decode [0xd0] 0 = .error e) ∧
    readLoop [[0x92], [0x01, 0xcc, 0xff, 0x91], [0x02]] =
      ⟨[], [(.array [.int 1, .int 255], .handleResponse), (.array [.int 2], .handleNotification)],
        false⟩ := by
  have hint : (T.int (-33)).Fits := ⟨by decide, by decide⟩
  have hresponse : (T.array [.int 1, .int 255]).Fits :=
    ⟨by decide, ⟨by decide, by decide⟩, ⟨by decide, by decide⟩, trivial⟩
  have hnotification : (T.array [.int 2]).Fits := ⟨by decide, ⟨by decide, by decide⟩, trivial⟩
  refine ⟨codec_and_reader.1 _ hint [7],
    codec_and_reader.2.1 _ hint [0xd0] ⟨[0xdf], rfl⟩ (by decide), ?_⟩
  -- the messages are cut in the middle of the one and of the other
  apply codec_and_reader.2.2 [.array [.int 1, .int 255], .array [.int 2]]
  · simp only [List.mem_cons, List.not_mem_nil, or_false]
    rintro v (rfl | rfl)
    · exact hresponse
    · exact hnotification
  · decide
  · decide

end OCamlClient

end Kgd
