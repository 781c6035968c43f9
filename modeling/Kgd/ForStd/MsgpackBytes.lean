import Mathlib.Algebra.Order.Ring.Int
import Mathlib.Data.List.Induction
import Kgd.ForStd.MsgpackFormat
import Kgd.ForStd.PrefixStream

/-!
# Reading msgpack items

Big-endian fields, and the items of the msgpack format for a reader that knows some of the type
codes: an item is complete when the bytes its code and its length field ask for are there.

## Key results

- `Msgpack.bigEndian_beBytes`: a field is read back, up to its width
- `Msgpack.item_restrict_cons`: the first item, by the shape of its code
- `Msgpack.fillable`: an incomplete item can be completed with zeros
-/

namespace Msgpack

/-! ## Fields -/

/-- The low `width` bytes of a number, most significant first. -/
def beBytes : Nat → Nat → List UInt8
  | 0, _ => []
  | width + 1, n => beBytes width (n / 256) ++ [.ofNat n]

/-- A number has as many bytes as its width says. -/
@[simp] theorem length_beBytes (width n : Nat) : (beBytes width n).length = width := by
  induction width generalizing n with
  | zero => rfl
  | succ width ih => simp [beBytes, ih]

/-- The last byte has the lowest digits. -/
theorem bigEndian_concat (bs : List UInt8) (b : UInt8) :
    bigEndian (bs ++ [b]) = 256 * bigEndian bs + b.toNat := by
  simp [bigEndian]

/-- A field is read back, up to its width. -/
theorem bigEndian_beBytes (width n : Nat) : bigEndian (beBytes width n) = n % 256 ^ width := by
  induction width generalizing n with
  | zero => simp [beBytes, bigEndian, Nat.mod_one]
  | succ width ih =>
    have hbyte : (UInt8.ofNat n).toNat = n % 256 := by simp
    rw [beBytes, bigEndian_concat, ih, hbyte, Nat.pow_succ, Nat.mul_comm (256 ^ width) 256,
      Nat.mod_mul]
    omega

/-- A number of some bytes is below the power of 256. -/
theorem bigEndian_lt (bs : List UInt8) : bigEndian bs < 256 ^ bs.length := by
  induction bs using List.reverseRecOn with
  | nil => decide
  | append_singleton bs b ih =>
    have hb := b.toNat_lt
    rw [bigEndian_concat, List.length_append, List.length_singleton, Nat.pow_succ]
    omega

/-- A number that fits its width is read back from its bytes. -/
theorem bigEndian_beBytes_of_lt {width n : Nat} (h : n < 256 ^ width) :
    bigEndian (beBytes width n) = n := by
  rw [bigEndian_beBytes, Nat.mod_eq_of_lt h]

/-! ## Items -/

/-- The bytes of an item after its code say how long it is. -/
theorem tail_take {rest : List UInt8} {s : Shape} {item : Nat × Nat}
    (h : tail rest s = some item) : tail (rest.take item.1) s = some item := by
  cases s with
  | invalid => cases h
  | fixed bytes operands =>
    simp only [tail] at h ⊢
    split at h
    · obtain rfl := Option.some.inj h
      rw [if_pos (by rw [List.length_take]; omega)]
    · cases h
  -- the length field itself is inside what is taken
  | sized width extra | counted width valuesPerElement =>
    simp only [tail] at h ⊢
    split at h
    · obtain rfl := Option.some.inj h
      rw [List.take_take, Nat.min_eq_left (by dsimp only; omega),
        if_pos (by rw [List.length_take]; omega)]
    · cases h

/-- An item of the format is found in its own bytes. -/
theorem format_exact : format.Exact := by
  intro as n m h
  cases as with
  | nil => exact nomatch h
  | cons code rest =>
    obtain ⟨item, htail, hitem⟩ := Option.map_eq_some_iff.mp h
    obtain ⟨rfl, rfl⟩ := Prod.mk.inj hitem
    show head ((code :: rest).take (item.1 + 1)) = _
    rw [List.take_succ_cons, head, tail_take htail, Option.map_some]

variable {known : UInt8 → Bool} {code : UInt8} {rest : List UInt8}

/-- The operands of the item that starts with a code, and what follows it. -/
def itemTail (rest : List UInt8) (s : Shape) : Option (Nat × List UInt8) :=
  (tail rest s).map fun item => (item.2, rest.drop item.1)

/-- Behind a code with a fixed shape the item ends after its bytes. -/
theorem itemTail_fixed (bytes operands : Nat) :
    itemTail rest (.fixed bytes operands) =
      if bytes ≤ rest.length then some (operands, rest.drop bytes) else none := by
  rw [itemTail, tail]
  split <;> rfl

/-- A length field, and then as many bytes. -/
theorem itemTail_sized (width : Nat) :
    itemTail rest (.sized width 0) =
      if width ≤ rest.length then
        if bigEndian (rest.take width) ≤ (rest.drop width).length then
          some (0, (rest.drop width).drop (bigEndian (rest.take width)))
        else none
      else none := by
  rw [itemTail, tail]
  simp only [Nat.add_zero, List.length_drop, List.drop_drop]
  -- the length has to be there, and then as many bytes as it says
  by_cases hwidth : width ≤ rest.length
  · rw [if_pos hwidth]
    by_cases hlen : bigEndian (rest.take width) ≤ rest.length - width
    · rw [if_pos (by omega), if_pos hlen]
      rfl
    · rw [if_neg (by omega), if_neg hlen]
      rfl
  · rw [if_neg (by omega), if_neg hwidth]
    rfl

/-- Behind a code with a count the item ends after the count. -/
theorem itemTail_counted (width valuesPerElement : Nat) :
    itemTail rest (.counted width valuesPerElement) =
      if width ≤ rest.length then
        some (valuesPerElement * bigEndian (rest.take width), rest.drop width)
      else none := by
  rw [itemTail, tail]
  split <;> rfl

/-- The first item, by the shape of its code. -/
theorem item_restrict_cons (h : known code = true) :
    (format.restrict known).item (code :: rest) = itemTail rest (shape code) := by
  show ((format.restrict known).head (code :: rest)).map _ = _
  rw [PrefixNotation.restrict_head_cons rest h]
  show ((tail rest (shape code)).map _).map _ = _
  rw [Option.map_map]
  rfl

/-- The values at the front, by their first item. -/
theorem skip_succ_restrict_cons (h : known code = true) (k : Nat) :
    (format.restrict known).skip (k + 1) (code :: rest) =
      (itemTail rest (shape code)).bind fun item =>
        (format.restrict known).skip (item.1 + k) item.2 := by
  rw [PrefixNotation.skip_succ_item, item_restrict_cons h]

/-- Skipping a value with a fixed shape: its bytes, then its operands. -/
theorem skip_fixed {bytes operands : Nat} (h : known code = true)
    (hs : shape code = .fixed bytes operands) :
    (format.restrict known).skip 1 (code :: rest) =
      if bytes ≤ rest.length then (format.restrict known).skip operands (rest.drop bytes)
      else none := by
  rw [skip_succ_restrict_cons h 0, hs, itemTail_fixed]
  split <;> rfl

/-- An item that is its code alone, with the operands after it. -/
theorem skip_code {operands : Nat} (h : known code = true) (hs : shape code = .fixed 0 operands) :
    (format.restrict known).skip 1 (code :: rest) =
      (format.restrict known).skip operands rest := by
  rw [skip_fixed h hs, if_pos (Nat.zero_le _), List.drop_zero]

/-- Skipping a value with a length: the length, then as many bytes. -/
theorem skip_sized {width : Nat} (h : known code = true) (hs : shape code = .sized width 0) :
    (format.restrict known).skip 1 (code :: rest) =
      if width ≤ rest.length then
        if bigEndian (rest.take width) ≤ (rest.drop width).length then
          some ((rest.drop width).drop (bigEndian (rest.take width)))
        else none
      else none := by
  rw [skip_succ_restrict_cons h 0, hs, itemTail_sized]
  split
  · split
    · rw [Option.bind_some, PrefixNotation.skip_zero]
    · rfl
  · rfl

/-- Skipping a value with a count: the count, then as many values. -/
theorem skip_counted {width per : Nat} (h : known code = true)
    (hs : shape code = .counted width per) :
    (format.restrict known).skip 1 (code :: rest) =
      if width ≤ rest.length then
        (format.restrict known).skip (per * bigEndian (rest.take width)) (rest.drop width)
      else none := by
  rw [skip_succ_restrict_cons h 0, hs, itemTail_counted]
  split <;> rfl

/-- A code that the reader does not know is not skipped. -/
theorem skip_restrict_unknown (h : known code = false) (k : Nat) :
    (format.restrict known).skip (k + 1) (code :: rest) = none := by
  rw [PrefixNotation.skip_succ, PrefixNotation.restrict_head_unknown rest h, Option.bind_none]

/-! ## A common selection of codes -/

/-- The codes of nil, booleans, integers of up to 32 bits, strings, binaries, arrays and maps. -/
def basic (code : UInt8) : Bool :=
  let c := code.toNat
  !(c == 0xc1 || (0xc7 ≤ c && c ≤ 0xcb) || c == 0xcf || (0xd3 ≤ c && c ≤ 0xd8))

/-- The codes below nil are known to every reader. -/
theorem basic_of_lt {code : UInt8} (h : code.toNat < 0xc0) : basic code = true := by
  simp [basic]
  omega

theorem basic_of_ge {code : UInt8} (h : 0xe0 ≤ code.toNat) : basic code = true := by
  simp [basic]
  omega

/-! ## Completing an item -/

/-- Whatever an item lacks can be made up for with zeros. -/
theorem exists_tail_append (rest : List UInt8) {s : Shape} (h : s ≠ .invalid)
    (hnone : tail rest s = none) :
    ∃ n m, tail (rest ++ List.replicate n 0) s = some (rest.length + n, m) := by
  cases s with
  | invalid => exact absurd rfl h
  | fixed bytes operands =>
    simp only [tail] at hnone ⊢
    have hlt : ¬ bytes ≤ rest.length := by
      intro hle
      rw [if_pos hle] at hnone
      cases hnone
    refine ⟨bytes - rest.length, operands, ?_⟩
    rw [List.length_append, List.length_replicate, if_pos (by omega)]
    rw [show rest.length + (bytes - rest.length) = bytes by omega]
  | sized width extra =>
    simp only [tail] at hnone ⊢
    have hlt : ¬ width + extra + bigEndian (rest.take width) ≤ rest.length := by
      intro hle
      rw [if_pos hle] at hnone
      cases hnone
    -- the length field is filled up first, and tells how many zeros there have to be in all
    let filled := (rest ++ List.replicate width 0).take width
    have hfilled : ∀ n, width ≤ rest.length + n →
        (rest ++ List.replicate n 0).take width = filled := by
      intro n hn
      by_cases hle : width ≤ rest.length
      · rw [List.take_append_of_le_length hle]
        exact (List.take_append_of_le_length hle).symm
      · show _ = (rest ++ List.replicate width 0).take width
        rw [List.take_append, List.take_append, List.take_replicate, List.take_replicate,
          Nat.min_eq_left (by omega), Nat.min_eq_left (by omega)]
    have hlong : rest.length < width + extra + bigEndian filled := by
      by_cases hle : width ≤ rest.length
      · have hsame : filled = rest.take width := List.take_append_of_le_length hle
        rw [hsame]
        omega
      · omega
    refine ⟨width + extra + bigEndian filled - rest.length, 0, ?_⟩
    rw [hfilled _ (by omega), List.length_append, List.length_replicate, if_pos (by omega)]
    rw [show rest.length + (width + extra + bigEndian filled - rest.length) =
      width + extra + bigEndian filled by omega]
  | counted width valuesPerElement =>
    simp only [tail] at hnone ⊢
    have hlt : ¬ width ≤ rest.length := by
      intro hle
      rw [if_pos hle] at hnone
      cases hnone
    refine ⟨width - rest.length, valuesPerElement *
      bigEndian ((rest ++ List.replicate (width - rest.length) 0).take width), ?_⟩
    rw [List.length_append, List.length_replicate, if_pos (by omega)]
    rw [show rest.length + (width - rest.length) = width by omega]

/-- Zero is an item of its own, and completes what it is appended to. -/
theorem fillable (hzero : known 0 = true)
    (hvalid : ∀ code, known code = true → shape code ≠ .invalid) :
    format.Fillable known 0 where
  known_fill := hzero
  head as := by
    show (tail as (shape 0)).map (fun item => (item.1 + 1, item.2)) = some (1, 0)
    rw [show shape 0 = .fixed 0 0 from rfl, tail, if_pos (Nat.zero_le _)]
    rfl
  complete {code rest} hknown hnone := by
    have htail : tail rest (shape code) = none := Option.map_eq_none_iff.mp hnone
    -- a code that is not invalid asks for some number of bytes, and zeros will do
    obtain ⟨n, m, hn⟩ := exists_tail_append rest (hvalid code hknown) htail
    refine ⟨n, m, ?_⟩
    show (tail (rest ++ List.replicate n 0) (shape code)).map
      (fun item => (item.1 + 1, item.2)) = _
    rw [hn, Option.map_some, List.length_cons]
    rw [show rest.length + n + 1 = rest.length + 1 + n by omega]

end Msgpack
