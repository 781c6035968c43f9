import Kgd.Spec.OCamlCodec

/-!
# The range of the OCaml codec

`encode_int` has no case for an integer outside of [-2^31, 2^32): its last cases write the low 32
bits. What `decode` returns always lies in that range, so no other value comes back.

## Key results

- `OCamlClient.decodeFuel_fits`: what is decoded fits the format
- `OCamlClient.decodes_back_iff`: a value comes back exactly if it fits
-/

namespace Kgd

namespace OCamlClient

open Msgpack ByteReader

/-! ## What is read lies in the range -/

/-- A field fits its width. -/
theorem ensures_field {r : Reader Nat} {width : Nat} (hr : IsField .endOfInput r width) :
    Ensures r (· < 256 ^ width) := by
  intro buf n rest h
  rw [hr] at h
  split at h
  · obtain ⟨rfl, -⟩ := Prod.mk.inj (Except.ok.inj h)
    have hlt := bigEndian_lt (buf.take width)
    rwa [List.length_take, Nat.min_eq_left (by assumption)] at hlt
  · exact nomatch h

theorem ensures_getUint8 : Ensures getUint8 (· < 256) := ensures_field getUint8_isField

theorem ensures_getUint16BE : Ensures getUint16BE (· < 65536) := ensures_field getUint16BE_isField

theorem ensures_getUint32BE : Ensures getUint32BE (· < 4294967296) :=
  ensures_field getUint32BE_isField

theorem ensures_getBytes (len : Nat) : Ensures (getBytes len) (·.length = len) := by
  intro buf b rest h
  rw [getBytes] at h
  split at h
  · exact nomatch h
  · rename_i hlen
    obtain ⟨rfl, -⟩ := Prod.mk.inj (Except.ok.inj h)
    rw [List.length_take]
    omega

/-! ## What is decoded fits -/

/-- The elements of an array fit if each does. -/
theorem fitElts_iff {elts : List T} : FitElts elts ↔ ∀ elt ∈ elts, elt.Fits := by
  induction elts with
  | nil => simp [FitElts]
  | cons elt elts ih => rw [FitElts, ih, List.forall_mem_cons]

theorem fitPairs_iff {pairs : List (T × T)} :
    FitPairs pairs ↔ ∀ pair ∈ pairs, pair.1.Fits ∧ pair.2.Fits := by
  induction pairs with
  | nil => simp [FitPairs]
  | cons pair pairs ih =>
    obtain ⟨k, v⟩ := pair
    rw [FitPairs, ih, List.forall_mem_cons, and_assoc]

/-- A number and what is made of it. -/
theorem ensures_int {r : Reader Nat} {n : Nat} {f : Nat → Int} (hr : Ensures r (· < n))
    (hf : ∀ v < n, -2147483648 ≤ f v ∧ f v < 4294967296) :
    Ensures (do let v ← r; return T.int (f v)) T.Fits := by
  refine hr.bind fun v hv => ?_
  exact Ensures.pure (hf v hv)

/-- A string or bytes behind their length. -/
theorem ensures_sized {f : List UInt8 → T} {n : Nat} {r : Reader Nat} (hr : Ensures r (· < n))
    (hf : ∀ b, b.length < n → (f b).Fits) :
    Ensures (do let len ← r; return f (← getBytes len)) T.Fits := by
  refine hr.bind fun len hlen => ?_
  refine (ensures_getBytes len).bind fun b hb => ?_
  exact Ensures.pure (hf b (by omega))

/-- What the loop of an array collects fits, if its elements do and are not too many. -/
theorem arrayLoop_fits {d : Reader T} (hd : Ensures d T.Fits) {acc : List T} {remaining : Nat}
    (hacc : ∀ elt ∈ acc, elt.Fits) (hlen : acc.length + remaining < 4294967296) :
    Ensures (arrayLoop d acc remaining) T.Fits := by
  induction remaining generalizing acc with
  | zero =>
    apply Ensures.pure
    -- the count in the header bounds the length, whatever the bytes say
    show acc.reverse.length < 4294967296 ∧ FitElts acc.reverse
    rw [List.length_reverse, fitElts_iff]
    exact ⟨by omega, fun elt helt => hacc elt (List.mem_reverse.mp helt)⟩
  | succ remaining ih =>
    refine hd.bind fun v hv => ?_
    apply ih
    · exact List.forall_mem_cons.mpr ⟨hv, hacc⟩
    · rw [List.length_cons]
      omega

theorem mapLoop_fits {d : Reader T} (hd : Ensures d T.Fits) {acc : List (T × T)}
    {remaining : Nat} (hacc : ∀ pair ∈ acc, pair.1.Fits ∧ pair.2.Fits)
    (hlen : acc.length + remaining < 4294967296) :
    Ensures (mapLoop d acc remaining) T.Fits := by
  induction remaining generalizing acc with
  | zero =>
    apply Ensures.pure
    -- the count in the header bounds the length, whatever the bytes say
    show acc.reverse.length < 4294967296 ∧ FitPairs acc.reverse
    rw [List.length_reverse, fitPairs_iff]
    exact ⟨by omega, fun pair hpair => hacc pair (List.mem_reverse.mp hpair)⟩
  | succ remaining ih =>
    refine hd.bind fun k hk => ?_
    refine hd.bind fun v hv => ?_
    apply ih
    · exact List.forall_mem_cons.mpr ⟨⟨hk, hv⟩, hacc⟩
    · rw [List.length_cons]
      omega

/-- An array that is decoded fits, if its elements do. -/
theorem decodeArray_fits {d : Reader T} (hd : Ensures d T.Fits) {len : Nat}
    (hlen : len < 4294967296) : Ensures (decodeArray d len) T.Fits :=
  arrayLoop_fits hd (by simp) (by simpa using hlen)

theorem decodeMap_fits {d : Reader T} (hd : Ensures d T.Fits) {len : Nat}
    (hlen : len < 4294967296) : Ensures (decodeMap d len) T.Fits :=
  mapLoop_fits hd (by simp) (by simpa using hlen)

/-- Whatever the tag is. -/
theorem decodeTag_fits {d : Reader T} (hd : Ensures d T.Fits) {tag : Nat} (htag : tag < 256) :
    Ensures (decodeTag d tag) T.Fits := by
  unfold decodeTag
  split
  · exact Ensures.pure (show -2147483648 ≤ (tag : Int) ∧ (tag : Int) < 4294967296 by omega)
  split
  · exact Ensures.pure
      (show -2147483648 ≤ (tag - 256 : Int) ∧ (tag - 256 : Int) < 4294967296 by omega)
  split
  · have hlen : tag &&& 0x1f ≤ 0x1f := Nat.and_le_right
    refine (ensures_getBytes _).bind fun s hs => ?_
    exact Ensures.pure (show s.length < 4294967296 by omega)
  split
  · have hlen : tag &&& 0x0f ≤ 0x0f := Nat.and_le_right
    exact decodeArray_fits hd (by omega)
  split
  · have hlen : tag &&& 0x0f ≤ 0x0f := Nat.and_le_right
    exact decodeMap_fits hd (by omega)
  split
  -- nil, false, true
  · exact Ensures.pure trivial
  · exact Ensures.pure trivial
  · exact Ensures.pure trivial
  -- bin
  · exact ensures_sized ensures_getUint8 fun b hb => show b.length < 4294967296 by omega
  · exact ensures_sized ensures_getUint16BE fun b hb => show b.length < 4294967296 by omega
  · exact ensures_sized ensures_getUint32BE fun b hb => hb
  -- uint
  · exact ensures_int ensures_getUint8 fun v hv => by omega
  · exact ensures_int ensures_getUint16BE fun v hv => by omega
  · exact ensures_int ensures_getUint32BE fun v hv => by omega
  -- int
  · simp only [getInt8, bind_assoc, pure_bind]
    exact ensures_int ensures_getUint8 fun v hv => by split <;> omega
  · simp only [getInt16BE, bind_assoc, pure_bind]
    exact ensures_int ensures_getUint16BE fun v hv => by split <;> omega
  · simp only [getInt32BE, bind_assoc, pure_bind]
    exact ensures_int ensures_getUint32BE fun v hv => by split <;> omega
  -- str
  · exact ensures_sized ensures_getUint8 fun s hs => show s.length < 4294967296 by omega
  · exact ensures_sized ensures_getUint16BE fun s hs => show s.length < 4294967296 by omega
  · exact ensures_sized ensures_getUint32BE fun s hs => hs
  -- array and map
  · exact ensures_getUint16BE.bind fun len hlen => decodeArray_fits hd (by omega)
  · exact ensures_getUint32BE.bind fun len hlen => decodeArray_fits hd hlen
  · exact ensures_getUint16BE.bind fun len hlen => decodeMap_fits hd (by omega)
  · exact ensures_getUint32BE.bind fun len hlen => decodeMap_fits hd hlen
  · exact Ensures.throw _ _

/-- What is decoded fits, whatever the bytes are. -/
theorem decodeFuel_fits (fuel : Nat) : Ensures (decodeFuel fuel) T.Fits := by
  induction fuel with
  | zero => exact Ensures.throw _ _
  | succ fuel ih => exact ensures_getUint8.bind fun tag htag => decodeTag_fits ih htag

/-- Every value that is decoded fits. -/
theorem decode_fits {buf : List UInt8} {ofs next : Nat} {v : T}
    (h : decode buf ofs = .ok (v, next)) :
    v.Fits := by
  unfold decode at h
  split at h
  · rename_i hread
    obtain ⟨rfl, -⟩ := Prod.mk.inj (Except.ok.inj h)
    exact decodeFuel_fits _ hread
  · exact nomatch h

/-! ## What comes back -/

/-- A value is decoded from its encoding exactly if all its integers lie in [-2^31, 2^32) and all
    its strings, arrays and maps have sizes below 2^32. -/
theorem decodes_back_iff (v : T) :
    decode (encode v) 0 = .ok (v, (encode v).length) ↔ v.Fits := by
  constructor
  · exact decode_fits
  · intro hv
    have hdecode := decode_encode hv []
    rwa [List.append_nil] at hdecode

/-- 2^32 is written as 0, and -2^31 - 1 as 2^31 - 1, inside a message as alone. -/
theorem wide_int_altered :
    ¬ (∀ n : Int, -4611686018427387904 ≤ n → n < 4611686018427387904 →
      decode (encode (.int n)) 0 = .ok (.int n, (encode (.int n)).length)) ∧
    encode (.array [.int 4294967296]) = [0x91, 0xce, 0, 0, 0, 0] ∧
    encode (.int (-2147483649)) = [0xd2, 0x7f, 0xff, 0xff, 0xff] := by
  refine ⟨fun h => ?_, by decide, by decide⟩
  have hfits := decode_fits (h 4294967296 (by decide) (by decide))
  exact absurd hfits.2 (by decide)

end OCamlClient

end Kgd
