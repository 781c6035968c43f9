import Kgd.Client.Lua

/-!
# The Lua decoder

`msgpack_next` asks for a byte more than there is of a `uint8` or an `int8`, so a value that ends
in one is not found before something follows it. A nil is not added to the messages.

## Key results

- `LuaClient.msgpackNext_agrees`: `msgpack_next` against the msgpack format
- `LuaClient.polls_eq`: what polls dispatch and keep
- `LuaClient.polls_exact_iff`: when every value is dispatched as soon as it has arrived
-/

namespace Kgd

namespace LuaClient

open Msgpack

/-- The type codes of the standard formats without extensions. -/
def standard (code : UInt8) : Bool :=
  let c := code.toNat
  !(c == 0xc1 || (0xc7 ≤ c && c ≤ 0xc9) || (0xd4 ≤ c && c ≤ 0xd8))

/-- `uint8` and `int8`. -/
def byteInt (code : UInt8) : Bool := code == 0xcc || code == 0xd0

/-- The msgpack format without extensions. -/
abbrev format : PrefixNotation UInt8 := Msgpack.format.restrict standard

/-- What `msgpack_next` finds. -/
abbrev found : PrefixNotation UInt8 := format.await byteInt

/-! ## Items -/

variable {code : UInt8} {buf rest : List UInt8} {i : Nat}

/-- What `msgpack_next` finds behind a code, other than that of an 8-bit integer. -/
theorem found_skip (hcode : standard code = true) (hbyte : byteInt code = false)
    (rest : List UInt8) :
    found.skip 1 (code :: rest) =
      (itemTail rest (shape code)).bind fun item => found.skip item.1 item.2 := by
  rw [PrefixNotation.skip_succ_item, PrefixNotation.await_item_of_not hbyte,
    item_restrict_cons hcode]
  rfl

/-- What the format has behind a code. -/
theorem format_skip (hcode : standard code = true) (rest : List UInt8) :
    format.skip 1 (code :: rest) =
      (itemTail rest (shape code)).bind fun item => format.skip item.1 item.2 :=
  skip_succ_restrict_cons hcode 0

/-- A `uint8` or an `int8` is found when there is a byte after it. -/
theorem found_skip_byteInt (hbyte : byteInt code = true) (rest : List UInt8) :
    found.skip 1 (code :: rest) = if 2 ≤ rest.length then some (rest.drop 1) else none := by
  have hshape : shape code = .fixed 1 0 := by
    rcases (by simpa [byteInt] using hbyte : code = 0xcc ∨ code = 0xd0) with rfl | rfl
    · rfl
    · rfl
  have hcode : standard code = true := by
    rcases (by simpa [byteInt] using hbyte : code = 0xcc ∨ code = 0xd0) with rfl | rfl
    · rfl
    · rfl
  have hhead : format.head (code :: rest) = if 1 ≤ rest.length then some (2, 0) else none := by
    rw [PrefixNotation.restrict_head_cons rest hcode]
    show (tail rest (shape code)).map _ = _
    rw [hshape, tail]
    split <;> rfl
  -- `msgpack_next` wants one byte more than the format does
  have hawait : found.head (code :: rest) = if 2 ≤ rest.length then some (2, 0) else none := by
    show (format.head (code :: rest)).filter
      (fun item => PrefixNotation.hasMore byteInt (code :: rest) item.1) = _
    rw [hhead]
    by_cases h1 : 1 ≤ rest.length
    · rw [if_pos h1, Option.filter_some]
      simp only [PrefixNotation.hasMore, List.head?_cons, Option.any_some, hbyte,
        List.length_cons, Bool.not_true, Bool.false_or, decide_eq_true_eq]
      congr 1
      exact propext ⟨fun h => by omega, fun h => by omega⟩
    · rw [if_neg h1, if_neg (by omega)]
      rfl
  rw [PrefixNotation.skip_succ, hawait]
  split
  · exact PrefixNotation.skip_zero _ _
  · rfl

/-! ## Positions -/

/-- A position agrees with what is found of so many values from `s` on: it is the position after
    them, or it is past the end of the buffer and they are not all there. -/
def Agrees (buf : List UInt8) (k : Nat) (s : List UInt8) (pos : Option Nat) : Prop :=
  (∀ rest, found.skip k s = some rest → pos = some (buf.length + 1 - rest.length)) ∧
  (found.skip k s = none → ∀ p ∈ pos, buf.length + 1 < p ∧ format.skip k s = none)

/-- Where the format finds nothing, finding nothing agrees with it. -/
theorem agrees_none {k : Nat} {s : List UInt8} (h : found.skip k s = none) :
    Agrees buf k s none := by
  constructor
  · intro rest hrest
    rw [h] at hrest
    exact nomatch hrest
  · exact fun _ p hp => nomatch hp

/-- Where the format finds a value, its end agrees with it. -/
theorem agrees_some {k : Nat} {s : List UInt8} {pos : Nat} (h : found.skip k s = some rest)
    (hpos : pos = buf.length + 1 - rest.length) : Agrees buf k s (some pos) := by
  constructor
  · intro rest' hrest
    rw [h] at hrest
    rw [hpos, Option.some.inj hrest]
  · intro hnone
    rw [h] at hnone
    exact nomatch hnone

/-- A position past the end of the buffer. -/
theorem agrees_past {k : Nat} {s : List UInt8} {pos : Nat} (h : format.skip k s = none)
    (hpos : buf.length + 1 < pos) : Agrees buf k s (some pos) := by
  constructor
  · intro rest hrest
    rw [PrefixNotation.skip_of_await hrest] at h
    exact nomatch h
  · intro _ p hp
    obtain rfl := Option.some.inj hp
    exact ⟨hpos, h⟩

/-- The loop over the values in an array or a map. -/
theorem nextTimes_agrees {next : Nat → Option Nat} {low : Nat} (hlow : 1 ≤ low)
    (hnext : ∀ i, low ≤ i → i ≤ buf.length + 1 → Agrees buf 1 (buf.drop (i - 1)) (next i))
    (hpast : ∀ i, buf.length < i → next i = none) (k : Nat) {i : Nat} (hi : low ≤ i)
    (hle : i ≤ buf.length + 1) :
    Agrees buf k (buf.drop (i - 1)) (nextTimes next k i) := by
  induction k generalizing i with
  | zero =>
    exact agrees_some (PrefixNotation.skip_zero _ _) (by rw [List.length_drop]; omega)
  | succ k ih =>
    obtain ⟨hthere, hnot⟩ := hnext i hi hle
    rw [nextTimes, Nat.add_comm k 1]
    cases hskip : found.skip 1 (buf.drop (i - 1)) with
    | some rest =>
      -- the next value starts where this one ends
      obtain ⟨front, hfront⟩ := found.skip_suffix hskip
      have hlen : front.length + rest.length = buf.length - (i - 1) := by
        rw [← List.length_append, hfront, List.length_drop]
      have hdrop : buf.drop (buf.length + 1 - rest.length - 1) = rest := by
        have hsum : buf.length + 1 - rest.length - 1 = (i - 1) + front.length := by omega
        rw [hsum, ← List.drop_drop, ← hfront, List.drop_left]
      have hlater := ih (show low ≤ buf.length + 1 - rest.length by omega) (by omega)
      rw [hdrop] at hlater
      rw [Agrees, PrefixNotation.skip_add, PrefixNotation.skip_add, hskip,
        PrefixNotation.skip_of_await hskip, hthere rest hskip]
      exact hlater
    | none =>
      have hnone : found.skip (1 + k) (buf.drop (i - 1)) = none := by
        rw [PrefixNotation.skip_add, hskip, Option.bind_none]
      cases hpos : next i with
      | none => exact agrees_none hnone
      | some pos =>
        obtain ⟨hpast', hformat⟩ := hnot hskip pos hpos
        cases k with
        | zero => exact agrees_past hformat hpast'
        | succ k =>
          dsimp only
          rw [nextTimes, hpast pos (by omega)]
          exact agrees_none hnone

/-! ## One value -/

/-- The elements after a code that tells their number. -/
theorem agrees_operands (hcode : standard code = true) (hbyte : byteInt code = false)
    {operands : Nat} {pos : Option Nat} (hs : shape code = .fixed 0 operands)
    (h : Agrees buf operands rest pos) : Agrees buf 1 (code :: rest) pos := by
  have hskip := found_skip hcode hbyte rest
  have hskip' := format_skip hcode rest
  rw [hs, itemTail_fixed, if_pos (Nat.zero_le _), Option.bind_some, List.drop_zero]
    at hskip hskip'
  rw [Agrees, hskip, hskip']
  exact h

section

variable (hlen : rest.length + i = buf.length) (hcode : standard code = true)
  (hbyte : byteInt code = false)
include hlen hcode hbyte

/-- Bytes that are asked for one by one. -/
theorem agrees_fixed {bytes : Nat} (hs : shape code = .fixed bytes 0) :
    Agrees buf 1 (code :: rest)
      (if i + bytes ≤ buf.length then some (i + bytes + 1) else none) := by
  have hskip := found_skip hcode hbyte rest
  rw [hs, itemTail_fixed] at hskip
  by_cases hbytes : bytes ≤ rest.length
  · rw [if_pos hbytes, Option.bind_some, PrefixNotation.skip_zero] at hskip
    rw [if_pos (by omega)]
    exact agrees_some hskip (by rw [List.length_drop]; omega)
  · rw [if_neg hbytes] at hskip
    rw [if_neg (by omega)]
    exact agrees_none hskip

/-- A code that is a value by itself ends at the next byte. -/
theorem agrees_single (hs : shape code = .fixed 0 0) :
    Agrees buf 1 (code :: rest) (some (i + 1)) := by
  have hfixed := agrees_fixed hlen hcode hbyte hs
  rwa [if_pos (by omega)] at hfixed

/-- A length field, whose bytes are not looked for. -/
theorem agrees_sized {width : Nat} (hs : shape code = .sized width 0) :
    Agrees buf 1 (code :: rest)
      (if buf.length < i + width then none
        else some (i + width + 1 + bigEndian (rest.take width))) := by
  have hskip := found_skip hcode hbyte rest
  have hskip' := format_skip hcode rest
  rw [hs, itemTail_sized] at hskip hskip'
  -- first the length field has to be there, then the bytes it counts
  by_cases hwidth : width ≤ rest.length
  · rw [if_pos hwidth] at hskip hskip'
    rw [if_neg (by omega)]
    by_cases hbytes : bigEndian (rest.take width) ≤ (rest.drop width).length
    · rw [if_pos hbytes, Option.bind_some, PrefixNotation.skip_zero] at hskip
      rw [List.length_drop] at hbytes
      exact agrees_some hskip (by rw [List.length_drop, List.length_drop]; omega)
    · rw [if_neg hbytes, Option.bind_none] at hskip'
      rw [List.length_drop] at hbytes
      exact agrees_past hskip' (by omega)
  · rw [if_neg hwidth] at hskip
    rw [if_pos (by omega)]
    exact agrees_none hskip

/-- The elements after a field that counts them. -/
theorem agrees_counted {width per : Nat} {pos : Option Nat}
    (hs : shape code = .counted width per)
    (h : width ≤ rest.length →
      Agrees buf (per * bigEndian (rest.take width)) (rest.drop width) pos) :
    Agrees buf 1 (code :: rest) (if buf.length < i + width then none else pos) := by
  have hskip := found_skip hcode hbyte rest
  have hskip' := format_skip hcode rest
  rw [hs, itemTail_counted] at hskip hskip'
  -- first the length field has to be there, then the values it counts
  by_cases hwidth : width ≤ rest.length
  · rw [if_pos hwidth, Option.bind_some] at hskip hskip'
    rw [if_neg (by omega), Agrees, hskip, hskip']
    exact h hwidth
  · rw [if_neg hwidth] at hskip
    rw [if_pos (by omega)]
    exact agrees_none hskip

end

/-- An 8-bit integer ends after its byte, which the source wants to see followed by another. -/
theorem agrees_byteInt (hlen : rest.length + i = buf.length) (hbyte : byteInt code = true) :
    Agrees buf 1 (code :: rest) (if i + 1 < buf.length then some (i + 2) else none) := by
  have hskip := found_skip_byteInt hbyte rest
  by_cases h2 : 2 ≤ rest.length
  · rw [if_pos h2] at hskip
    rw [if_pos (by omega)]
    exact agrees_some hskip (by rw [List.length_drop]; omega)
  · rw [if_neg h2] at hskip
    rw [if_neg (by omega)]
    exact agrees_none hskip

/-- The codes below nil are standard. -/
theorem standard_of_lt (h : code.toNat < 0xc0) : standard code = true := by
  simp [standard]
  omega

theorem standard_of_ge (h : 0xd9 ≤ code.toNat) : standard code = true := by
  simp [standard]
  omega

/-- The other codes are not those of 8-bit integers. -/
theorem byteInt_eq_false (h : code.toNat ≠ 0xcc) (h' : code.toNat ≠ 0xd0) :
    byteInt code = false := by
  rw [byteInt, Bool.or_eq_false_iff, beq_eq_false_iff_ne, beq_eq_false_iff_ne]
  constructor
  · rintro rfl
    exact h rfl
  · rintro rfl
    exact h' rfl

/-- A byte is a field of one byte. -/
theorem byte_succ (buf : List UInt8) (i : Nat) :
    byte buf (i + 1) = bigEndian ((buf.drop i).take 1) := by
  rw [byte, Nat.add_sub_cancel, ← List.head?_drop]
  cases buf.drop i with
  | nil => rfl
  | cons b rest => simp [bigEndian]

/-- `msgpack_next` past the end of the buffer. -/
theorem msgpackNextFuel_past (fuel : Nat) (h : buf.length < i) :
    msgpackNextFuel buf fuel i = none := by
  cases fuel with
  | zero => rfl
  | succ fuel => rw [msgpackNextFuel, if_pos h]

/-- `msgpack_next` at a code, if it agrees for the values after it. -/
theorem nextAt_agrees {next : Nat → Option Nat} (hlen : (buf.drop i).length + i = buf.length)
    (hvalues : ∀ width count, width ≤ (buf.drop i).length →
      Agrees buf count ((buf.drop i).drop width) (nextTimes next count (i + width + 1))) :
    Agrees buf 1 (code :: buf.drop i) (nextAt next buf i code.toNat) := by
  have helems : ∀ count, Agrees buf count (buf.drop i) (nextTimes next count (i + 1)) :=
    fun count => hvalues 0 count (Nat.zero_le _)
  unfold nextAt
  by_cases hfix : code.toNat ≤ 0x7f ∨ 0xe0 ≤ code.toNat
  · -- positive fixint, negative fixint
    rw [if_pos hfix]
    have hnot : byteInt code = false := byteInt_eq_false (by omega) (by omega)
    cases hfix with
    | inl hpos =>
      exact agrees_single hlen (standard_of_lt (by omega)) hnot (shape_fixint (by omega))
    | inr hneg =>
      exact agrees_single hlen (standard_of_ge (by omega)) hnot (shape_negative hneg)
  rw [if_neg hfix]
  by_cases hmap : 0x80 ≤ code.toNat ∧ code.toNat ≤ 0x8f
  · have hcount : (code.toNat - 0x80) * 2 = 2 * (code.toNat - 0x80) := Nat.mul_comm _ _
    rw [if_pos hmap, hcount]
    have hshape := shape_fixmap hmap.1 (by omega)
    exact agrees_operands (standard_of_lt (by omega)) (byteInt_eq_false (by omega) (by omega))
      hshape (helems _)
  rw [if_neg hmap]
  by_cases harray : 0x90 ≤ code.toNat ∧ code.toNat ≤ 0x9f
  · rw [if_pos harray]
    have hshape := shape_fixarray harray.1 (by omega)
    exact agrees_operands (standard_of_lt (by omega)) (byteInt_eq_false (by omega) (by omega))
      hshape (helems _)
  rw [if_neg harray]
  by_cases hstr : 0xa0 ≤ code.toNat ∧ code.toNat ≤ 0xbf
  · rw [if_pos hstr]
    have hfixed := agrees_fixed hlen (standard_of_lt (by omega))
      (byteInt_eq_false (by omega) (by omega)) (shape_fixstr hstr.1 (by omega))
    have hpos : i + 1 + (code.toNat - 0xa0) = i + (code.toNat - 0xa0) + 1 := by omega
    rw [hpos]
    by_cases hroom : i + (code.toNat - 0xa0) ≤ buf.length
    · rw [if_pos hroom] at hfixed
      rwa [if_pos (by omega)]
    · rw [if_neg hroom] at hfixed
      rwa [if_neg (by omega)]
  rw [if_neg hstr]
  have hcounted : ∀ width per, shape code = .counted width per → standard code = true →
      byteInt code = false → Agrees buf 1 (code :: buf.drop i)
        (if buf.length < i + width then none
          else nextTimes next (per * stringUnpack width buf (i + 1))
            (i + width + 1)) :=
    fun width per hs hcode hnot => agrees_counted hlen hcode hnot hs (hvalues width _)
  rw [byte_succ, Nat.mul_comm _ 2, Nat.mul_comm _ 2]
  generalize hc : code.toNat = c
  by_cases hsingle : c = 0xc0 ∨ c = 0xc2 ∨ c = 0xc3
  · -- nil, false, true
    rw [if_pos hsingle]
    rcases hsingle with rfl | rfl | rfl
    · obtain rfl : code = 0xc0 := UInt8.toNat_inj.mp hc
      exact agrees_single hlen rfl rfl rfl
    · obtain rfl : code = 0xc2 := UInt8.toNat_inj.mp hc
      exact agrees_single hlen rfl rfl rfl
    · obtain rfl : code = 0xc3 := UInt8.toNat_inj.mp hc
      exact agrees_single hlen rfl rfl rfl
  rw [if_neg hsingle]
  by_cases hsized8 : c = 0xc4 ∨ c = 0xd9
  · -- bin 8, str 8
    rw [if_pos hsized8]
    rcases hsized8 with rfl | rfl
    · obtain rfl : code = 0xc4 := UInt8.toNat_inj.mp hc
      exact agrees_sized hlen rfl rfl rfl
    · obtain rfl : code = 0xd9 := UInt8.toNat_inj.mp hc
      exact agrees_sized hlen rfl rfl rfl
  rw [if_neg hsized8]
  by_cases hsized16 : c = 0xc5 ∨ c = 0xda
  · -- bin 16, str 16
    rw [if_pos hsized16]
    rcases hsized16 with rfl | rfl
    · obtain rfl : code = 0xc5 := UInt8.toNat_inj.mp hc
      exact agrees_sized hlen rfl rfl rfl
    · obtain rfl : code = 0xda := UInt8.toNat_inj.mp hc
      exact agrees_sized hlen rfl rfl rfl
  rw [if_neg hsized16]
  by_cases hsized32 : c = 0xc6 ∨ c = 0xdb
  · -- bin 32, str 32
    rw [if_pos hsized32]
    rcases hsized32 with rfl | rfl
    · obtain rfl : code = 0xc6 := UInt8.toNat_inj.mp hc
      exact agrees_sized hlen rfl rfl rfl
    · obtain rfl : code = 0xdb := UInt8.toNat_inj.mp hc
      exact agrees_sized hlen rfl rfl rfl
  rw [if_neg hsized32]
  by_cases hint8 : c = 0xcc ∨ c = 0xd0
  · -- uint 8, int 8
    rw [if_pos hint8]
    rcases hint8 with rfl | rfl
    · obtain rfl : code = 0xcc := UInt8.toNat_inj.mp hc
      exact agrees_byteInt hlen rfl
    · obtain rfl : code = 0xd0 := UInt8.toNat_inj.mp hc
      exact agrees_byteInt hlen rfl
  rw [if_neg hint8]
  by_cases hint16 : c = 0xcd ∨ c = 0xd1
  · -- uint 16, int 16
    rw [if_pos hint16]
    rcases hint16 with rfl | rfl
    · obtain rfl : code = 0xcd := UInt8.toNat_inj.mp hc
      exact agrees_fixed hlen rfl rfl rfl
    · obtain rfl : code = 0xd1 := UInt8.toNat_inj.mp hc
      exact agrees_fixed hlen rfl rfl rfl
  rw [if_neg hint16]
  by_cases hint32 : c = 0xce ∨ c = 0xd2 ∨ c = 0xca
  · -- uint 32, int 32, float 32
    rw [if_pos hint32]
    rcases hint32 with rfl | rfl | rfl
    · obtain rfl : code = 0xce := UInt8.toNat_inj.mp hc
      exact agrees_fixed hlen rfl rfl rfl
    · obtain rfl : code = 0xd2 := UInt8.toNat_inj.mp hc
      exact agrees_fixed hlen rfl rfl rfl
    · obtain rfl : code = 0xca := UInt8.toNat_inj.mp hc
      exact agrees_fixed hlen rfl rfl rfl
  rw [if_neg hint32]
  by_cases hint64 : c = 0xcf ∨ c = 0xd3 ∨ c = 0xcb
  · -- uint 64, int 64, float 64
    rw [if_pos hint64]
    rcases hint64 with rfl | rfl | rfl
    · obtain rfl : code = 0xcf := UInt8.toNat_inj.mp hc
      exact agrees_fixed hlen rfl rfl rfl
    · obtain rfl : code = 0xd3 := UInt8.toNat_inj.mp hc
      exact agrees_fixed hlen rfl rfl rfl
    · obtain rfl : code = 0xcb := UInt8.toNat_inj.mp hc
      exact agrees_fixed hlen rfl rfl rfl
  rw [if_neg hint64]
  by_cases harray16 : c = 0xdc
  · -- array 16
    rw [if_pos harray16]
    obtain rfl : code = 0xdc := UInt8.toNat_inj.mp (hc.trans harray16)
    have hloop := hcounted 2 1 rfl rfl rfl
    rwa [Nat.one_mul] at hloop
  rw [if_neg harray16]
  by_cases harray32 : c = 0xdd
  · -- array 32
    rw [if_pos harray32]
    obtain rfl : code = 0xdd := UInt8.toNat_inj.mp (hc.trans harray32)
    have hloop := hcounted 4 1 rfl rfl rfl
    rwa [Nat.one_mul] at hloop
  rw [if_neg harray32]
  by_cases hmap16 : c = 0xde
  · -- map 16
    rw [if_pos hmap16]
    obtain rfl : code = 0xde := UInt8.toNat_inj.mp (hc.trans hmap16)
    exact hcounted 2 2 rfl rfl rfl
  rw [if_neg hmap16]
  by_cases hmap32 : c = 0xdf
  · -- map 32
    rw [if_pos hmap32]
    obtain rfl : code = 0xdf := UInt8.toNat_inj.mp (hc.trans hmap32)
    exact hcounted 4 2 rfl rfl rfl
  rw [if_neg hmap32]
  -- unknown or ext type
  have hunknown : standard code = false := by
    simp [standard, hc]
    omega
  exact agrees_none (PrefixNotation.await_skip_of_none (skip_restrict_unknown hunknown 0) byteInt)

/-- `msgpack_next` agrees with what is found. -/
theorem msgpackNextFuel_agrees (fuel : Nat) {i : Nat} (hi : 1 ≤ i) (hle : i ≤ buf.length + 1)
    (hfuel : buf.length < i + fuel) :
    Agrees buf 1 (buf.drop (i - 1)) (msgpackNextFuel buf fuel i) := by
  induction fuel generalizing i with
  | zero =>
    rw [List.drop_eq_nil_of_le (by omega)]
    exact agrees_none (PrefixNotation.skip_nil _ 0)
  | succ fuel ih =>
    by_cases hend : buf.length < i
    · rw [msgpackNextFuel_past _ hend, List.drop_eq_nil_of_le (by omega)]
      exact agrees_none (PrefixNotation.skip_nil _ 0)
    -- the code, and what follows it
    have hlt : i - 1 < buf.length := by omega
    have hs : buf.drop (i - 1) = buf[i - 1] :: buf.drop i := by
      rw [List.drop_eq_getElem_cons hlt, Nat.sub_add_cancel hi]
    have hbyte : byte buf i = (buf[i - 1]).toNat := by
      rw [byte, List.getElem?_eq_getElem hlt, Option.getD_some]
    have hlen : (buf.drop i).length + i = buf.length := by
      rw [List.length_drop]
      omega
    rw [hs, msgpackNextFuel, if_neg hend, hbyte]
    apply nextAt_agrees hlen
    intro width count hwidth
    have htimes := nextTimes_agrees (Nat.le_add_left 1 i)
      (fun j hj hj' => ih (by omega) hj' (by omega))
      (fun j hj => msgpackNextFuel_past fuel hj) count
      (show i + 1 ≤ i + width + 1 by omega) (by omega)
    rwa [Nat.add_sub_cancel, ← List.drop_drop] at htimes

/-- `msgpack_next` agrees with what is found. -/
theorem msgpackNext_agrees {i : Nat} (hi : 1 ≤ i) (hle : i ≤ buf.length + 1) :
    Agrees buf 1 (buf.drop (i - 1)) (msgpackNext buf i) :=
  msgpackNextFuel_agrees _ hi hle (by omega)

/-! ## Messages -/

/-- What is assumed of `mp.unpack`: it decodes one encoding, and raises an error on a truncated
    one. Nil, which is no value of `V`, is what 0xc0 encodes. -/
structure Unpack.Lawful {V : Type} (unpack : Unpack V) (value : List UInt8 → Option V) :
    Prop where
  encoding : ∀ b, format.IsValue b → unpack b = some (value b)
  truncated : ∀ b p, format.IsValue b → p <+: b → p ≠ b → unpack p = none
  value_nil : ∀ b, format.IsValue b → (value b = none ↔ b = [0xc0])

variable {V : Type} {unpack : Unpack V} {value : List UInt8 → Option V} {values : List (List UInt8)}

theorem sub_eq_take (buf : List UInt8) (offset j : Nat) :
    sub buf offset j = (buf.drop (offset - 1)).take (j - (offset - 1)) := List.drop_take

/-- `decode` takes the values that are found, if the buffer is the front of a stream. -/
theorem decodeLoop_eq (law : unpack.Lawful value) (hvalues : ∀ v ∈ values, format.IsValue v)
    {offset : Nat} (hpos : 1 ≤ offset) (hle : offset ≤ buf.length + 1)
    (hstream : buf.drop (offset - 1) <+: values.flatten) {fuel : Nat}
    (hfuel : (buf.drop (offset - 1)).length ≤ fuel) :
    decodeLoop unpack buf fuel offset =
      ((found.split (buf.drop (offset - 1))).1.filterMap value,
        buf.length + 1 - (found.split (buf.drop (offset - 1))).2.length) := by
  have hlen : (buf.drop (offset - 1)).length = buf.length - (offset - 1) := List.length_drop
  have hstop : buf.length + 1 - (buf.drop (offset - 1)).length = offset := by omega
  induction fuel generalizing offset values with
  | zero =>
    rw [List.length_eq_zero_iff.mp (Nat.le_zero.mp hfuel)] at hstop ⊢
    rw [PrefixNotation.split_nil, hstop]
    rfl
  | succ fuel ih =>
    rw [decodeLoop]
    by_cases hend : offset ≤ buf.length
    · rw [if_pos hend]
      obtain ⟨hthere, hnot⟩ := msgpackNext_agrees hpos hle
      cases hskip : found.skip 1 (buf.drop (offset - 1)) with
      | some rest =>
        have hformat := PrefixNotation.skip_of_await hskip
        obtain ⟨v, hv, happend⟩ := (format_exact.restrict standard).isValue_of_skip hformat
        rw [← List.append_nil (buf.drop (offset - 1))] at hstream
        obtain ⟨_, values', rfl, hstream'⟩ := format.prefix_after_value hvalues hformat hstream
        rw [List.append_nil] at hstream'
        have hsum : (buf.drop (offset - 1)).length = v.length + rest.length := by
          rw [happend, List.length_append]
        have hvpos := List.length_pos_of_ne_nil (PrefixNotation.ne_nil_of_isValue hv)
        -- the chunk is the value, and the next one starts after it
        have hchunk : sub buf offset (buf.length + 1 - rest.length - 1) = v := by
          rw [sub_eq_take, happend,
            show buf.length + 1 - rest.length - 1 - (offset - 1) = v.length by omega,
            List.take_left]
        have hnext : buf.drop (buf.length + 1 - rest.length - 1) = rest := by
          rw [show buf.length + 1 - rest.length - 1 = (offset - 1) + v.length by omega,
            ← List.drop_drop, happend, List.drop_left]
        have htake : (buf.drop (offset - 1)).take
            ((buf.drop (offset - 1)).length - rest.length) = v := by
          rw [happend, List.length_append, Nat.add_sub_cancel, List.take_left]
        have ih' := @ih values' (fun w hw => hvalues w (List.mem_cons_of_mem _ hw))
          (buf.length + 1 - rest.length) (by omega) (by omega) (by rwa [hnext])
          (by rw [hnext]; omega) (by rw [hnext]; omega) (by rw [hnext])
        rw [hthere rest hskip]
        dsimp only
        rw [hchunk, law.encoding v hv]
        dsimp only
        rw [ih', hnext, found.split_of_some hskip, htake, List.filterMap_cons]
        cases value v <;> rfl
      | none =>
        rw [found.split_of_none hskip, hstop]
        cases hnextPos : msgpackNext buf offset with
        | none => rfl
        | some pos =>
          obtain ⟨hpast, hformat⟩ := hnot hskip pos hnextPos
          -- the chunk is all that is left, which is a part of a value
          have hchunk : sub buf offset (pos - 1) = buf.drop (offset - 1) := by
            rw [sub_eq_take, List.take_of_length_le (by omega)]
          have hne : buf.drop (offset - 1) ≠ [] := List.ne_nil_of_length_pos (by omega)
          obtain ⟨v, hv, hstart, hv'⟩ :=
            format.prefix_of_incomplete hvalues hne hformat hstream
          dsimp only
          rw [hchunk, law.truncated v _ (hvalues v hv) hstart hv']
          rfl
    · rw [if_neg hend]
      rw [List.drop_eq_nil_of_le (by omega)] at hstop ⊢
      rw [PrefixNotation.split_nil, hstop]
      rfl

/-- Decoding splits what has arrived into the values that are found, and leaves the rest. -/
theorem decode_eq (law : unpack.Lawful value) (hvalues : ∀ v ∈ values, format.IsValue v)
    (hstream : buf <+: values.flatten) :
    decode unpack buf = ((found.split buf).1.filterMap value, (found.split buf).2) := by
  have hloop := decodeLoop_eq law hvalues (Nat.le_refl 1) (by omega) hstream (Nat.le_refl _)
  rw [decode]
  simp only [Nat.sub_self, List.drop_zero] at hloop
  rw [hloop]
  dsimp only
  -- the remainder starts where the loop stops
  obtain ⟨front, hfront⟩ := found.split_suffix buf
  have hlen : front.length + (found.split buf).2.length = buf.length := by
    rw [← List.length_append, hfront]
  congr 1
  split
  · exact (List.length_eq_zero_iff.mp (by omega)).symm
  · rw [sub_eq_take,
      show buf.length + 1 - (found.split buf).2.length - 1 = front.length by omega]
    conv_lhs => rw [← hfront]
    rw [List.drop_left, List.take_of_length_le (by rw [List.length_append]; omega)]

/-- Less than an encoding is no message. -/
theorem decode_incomplete (law : unpack.Lawful value) {b p : List UInt8} (hb : format.IsValue b)
    (hp : p <+: b) (hne : p ≠ b) : decode unpack p = ([], p) := by
  have hnone := PrefixNotation.await_skip_of_none (format.skip_of_prefix hp hne hb) byteInt
  have hvalues : ∀ v ∈ [b], format.IsValue v := by
    intro v hv
    rwa [List.mem_singleton.mp hv]
  rw [decode_eq law hvalues (by rwa [List.flatten_singleton]), found.split_of_none hnone]
  rfl

/-- After what is found of a stream the stream goes on. -/
theorem stream_after_split (hvalues : ∀ v ∈ values, format.IsValue v) {kept more : List UInt8}
    (hstream : kept ++ more <+: values.flatten) :
    ∃ values' : List (List UInt8), (∀ v ∈ values', format.IsValue v) ∧
      (found.split kept).2 ++ more <+: values'.flatten := by
  -- on the length: each value that is cut off is the first of the stream
  induction hn : kept.length using Nat.strongRecOn generalizing kept values with
  | ind n ih =>
    cases hskip : found.skip 1 kept with
    | none =>
      rw [found.split_of_none hskip]
      exact ⟨values, hvalues, hstream⟩
    | some rest =>
      have hlt := found.length_skip_lt hskip
      obtain ⟨_, values', rfl, hstream'⟩ := format.prefix_after_value hvalues
        (PrefixNotation.skip_of_await hskip) hstream
      rw [found.split_of_some hskip]
      exact ih rest.length (by omega) (fun v hv => hvalues v (List.mem_cons_of_mem _ hv))
        hstream' rfl

/-- What polls dispatch and keep. -/
theorem polls_eq (law : unpack.Lawful value) (hvalues : ∀ v ∈ values, format.IsValue v)
    {received : List (List UInt8)} (hstream : received.flatten <+: values.flatten) :
    polls unpack received =
      ⟨(found.split received.flatten).2, (found.split received.flatten).1.filterMap value⟩ := by
  rw [polls]
  suffices hmain : ∀ (values : List (List UInt8)) (kept : List UInt8) (dispatched : List V),
      (∀ v ∈ values, format.IsValue v) → found.skip 1 kept = none →
      kept ++ received.flatten <+: values.flatten →
      received.foldl (Client.poll unpack) ⟨kept, dispatched⟩ =
        ⟨(found.split (kept ++ received.flatten)).2,
          dispatched ++ (found.split (kept ++ received.flatten)).1.filterMap value⟩ by
    simpa using hmain values [] [] hvalues (found.skip_nil 0) (by simpa using hstream)
  -- the induction is on the polls, from any kept bytes
  clear hstream hvalues
  induction received with
  | nil =>
    intro values kept dispatched _ hkept _
    simp [found.split_of_none hkept]
  | cons data received ih =>
    intro values kept dispatched hvalues hkept hstream
    rw [List.flatten_cons, ← List.append_assoc] at hstream ⊢
    have hpoll : Client.poll unpack ⟨kept, dispatched⟩ data =
        ⟨(found.split (kept ++ data)).2,
          dispatched ++ (found.split (kept ++ data)).1.filterMap value⟩ := by
      have hfront : kept ++ data <+: values.flatten := (List.prefix_append _ _).trans hstream
      unfold Client.poll
      dsimp only
      rw [decode_eq law hvalues hfront]
      split
      · rfl
      · rename_i hempty
        rw [List.length_eq_zero_iff.mp (by omega : (kept ++ data).length = 0),
          PrefixNotation.split_nil, List.filterMap_nil, List.append_nil]
    obtain ⟨values', hvalues', hstream'⟩ := stream_after_split hvalues hstream
    rw [List.foldl_cons, hpoll, ih values' _ _ hvalues' (found.skip_split _) hstream',
      found.split_append (kept ++ data), List.filterMap_append, List.append_assoc]

/-! ## Every value in time -/

/-- The values that have arrived with all their bytes. -/
def arrived (received : List (List UInt8)) : List (List UInt8) :=
  (format.split received.flatten).1

/-- The messages are the values, none of which is nil. -/
theorem filterMap_value (law : unpack.Lawful value) (hvalues : ∀ v ∈ values, format.IsValue v)
    (hnil : ∀ v ∈ values, v ≠ [0xc0]) :
    (values.filterMap value).map some = values.map value := by
  induction values with
  | nil => rfl
  | cons v values ih =>
    have ih' := ih (fun w hw => hvalues w (List.mem_cons_of_mem v hw))
      fun w hw => hnil w (List.mem_cons_of_mem v hw)
    cases hv : value v with
    | none =>
      -- a value that decodes to nothing is nil
      have hnil' := (law.value_nil v (hvalues v List.mem_cons_self)).mp hv
      exact absurd hnil' (hnil v List.mem_cons_self)
    | some a => rw [List.filterMap_cons_some hv, List.map_cons, List.map_cons, ih', hv]

/-- Every poll has dispatched the values that have arrived, and at the end nothing is kept,
    exactly if no value is nil and no poll ends with the last byte of a value whose last item is
    a `uint8` or an `int8`. Nothing is dispatched from less than a value. -/
theorem polls_exact_iff (law : unpack.Lawful value) :
    (∀ values : List (List UInt8), (∀ v ∈ values, format.IsValue v) →
      ∀ received : List (List UInt8), received.flatten = values.flatten →
      ((∀ polled, polled <+: received →
          (polls unpack polled).dispatched.map some = (arrived polled).map value) ∧
        (polls unpack received).buf = [] ↔
      (∀ v ∈ values, v ≠ [0xc0]) ∧
      ∀ polled, polled <+: received → ∀ done v, done ++ [v] <+: values →
        polled.flatten = (done ++ [v]).flatten →
        ¬ PrefixNotation.EndsIn format byteInt 1 v)) ∧
    ∀ b p, format.IsValue b → p <+: b → p ≠ b → decode unpack p = ([], p) := by
  refine ⟨fun values hvalues received hflatten => ?_,
    fun b p hb hp hne => decode_incomplete law hb hp hne⟩
  have hstream : ∀ polled, polled <+: received → polled.flatten <+: values.flatten := by
    rintro polled ⟨later, rfl⟩
    rw [← hflatten, List.flatten_append]
    exact List.prefix_append _ _
  -- everything has arrived at the end
  have hall : arrived received = values := by
    rw [arrived, hflatten, format.split_flatten hvalues]
  constructor
  · rintro ⟨hdispatched, -⟩
    constructor
    · -- a nil among the values is not dispatched
      rintro v hv rfl
      have hend := hdispatched received (List.prefix_refl _)
      have hnone : value [0xc0] = none := (law.value_nil _ (hvalues _ hv)).mpr rfl
      have hmem : value [0xc0] ∈ (arrived received).map value :=
        List.mem_map_of_mem (hall ▸ hv)
      rw [← hend, hnone] at hmem
      simp at hmem
    · -- a last value that is not found is not dispatched
      intro polled hpolled done v hdone hvflatten hends
      have hpoll := hdispatched polled hpolled
      have hsplit := PrefixNotation.await_split_stuck
        (fun w hw => hvalues w (hdone.subset hw)) hends
      have harrived : arrived polled = done ++ [v] := by
        rw [arrived, hvflatten, format.split_flatten fun w hw => hvalues w (hdone.subset hw)]
      rw [polls_eq law hvalues (hstream polled hpolled), harrived, hvflatten, hsplit] at hpoll
      have hlen := congrArg List.length hpoll
      simp only [List.length_map, List.length_append, List.length_singleton] at hlen
      have hle := List.length_filterMap_le value done
      omega
  · rintro ⟨hnil, hends⟩
    have hfound : ∀ polled, polled <+: received →
        found.split polled.flatten = format.split polled.flatten := by
      intro polled hpolled
      have hstart := format.split_of_prefix hvalues (hstream polled hpolled)
      have heq := format.flatten_split polled.flatten
      conv_lhs => rw [← heq]
      refine PrefixNotation.await_split_eq (fun w hw => hvalues w (hstart.subset hw))
        (format.skip_split _) fun hkept v hv => ?_
      obtain ⟨done, hdone⟩ := List.getLast?_eq_some_iff.mp hv
      rw [hkept, List.append_nil, hdone] at heq
      exact hends polled hpolled done v (hdone ▸ hstart) heq.symm
    constructor
    · intro polled hpolled
      have hstart := format.split_of_prefix hvalues (hstream polled hpolled)
      rw [polls_eq law hvalues (hstream polled hpolled), hfound polled hpolled]
      exact filterMap_value law (fun w hw => hvalues w (hstart.subset hw))
        fun w hw => hnil w (hstart.subset hw)
    · rw [polls_eq law hvalues (hstream received (List.prefix_refl _)),
        hfound received (List.prefix_refl _), hflatten, format.split_flatten hvalues]

/-- A value as it is encoded. -/
def encodedValue (b : List UInt8) : Option (List UInt8) := if b = [0xc0] then none else some b

/-- An `unpack` that leaves values as they are encoded. -/
def asEncoded : Unpack (List UInt8) := fun b =>
  if format.skip 1 b = some [] then some (encodedValue b) else none

/-- Values taken as they are encoded follow the laws of the library. -/
theorem asEncoded_lawful : asEncoded.Lawful encodedValue where
  encoding b hb := if_pos hb
  truncated b p hb hp hne := by
    apply if_neg
    rw [format.skip_of_prefix hp hne hb]
    simp
  value_nil b _ := by simp [encodedValue]

/-- An array of three integers in two polls. -/
theorem polls_exact_array :
    (polls asEncoded [[0x93, 0x01, 0xcc], [0xff, 0x03]]).dispatched =
      [[0x93, 0x01, 0xcc, 0xff, 0x03]] := by
  have hvalue : format.IsValue [0x93, 0x01, 0xcc, 0xff, 0x03] := by
    show format.skip 1 _ = some []
    decide
  have hvalues : ∀ v ∈ [[0x93, 0x01, 0xcc, 0xff, 0x03]], format.IsValue v := by
    intro v hv
    rwa [List.mem_singleton.mp hv]
  have hexact := (((polls_exact_iff asEncoded_lawful).1 _ hvalues
    [[0x93, 0x01, 0xcc], [0xff, 0x03]] rfl).mpr ⟨?_, ?_⟩).1 _ (List.prefix_refl _)
  · have harrived : arrived [[0x93, 0x01, 0xcc], [0xff, 0x03]] =
        [[0x93, 0x01, 0xcc, 0xff, 0x03]] := by decide
    rw [harrived] at hexact
    simpa [encodedValue] using hexact
  · intro v hv
    rw [List.mem_singleton.mp hv]
    decide
  -- the 8-bit integer sits inside the array, so a byte always follows it
  · intro polled _ done v hdone _ hends
    have hv : v = [0x93, 0x01, 0xcc, 0xff, 0x03] := by
      have hmem := hdone.subset (List.mem_append_right done List.mem_cons_self)
      exact List.mem_singleton.mp hmem
    rw [hv] at hends
    have hnone := (PrefixNotation.await_skip_eq_none_iff hvalue).mpr hends
    have hsome : found.skip 1 [0x93, 0x01, 0xcc, 0xff, 0x03] = some [] := by decide
    rw [hsome] at hnone
    exact nomatch hnone

/-- A response with the result 200, and a nil. -/
theorem byte_result_not_dispatched :
    asEncoded.Lawful encodedValue ∧
    format.IsValue [0x94, 0x01, 0x01, 0xc0, 0xcc, 0xc8] ∧
    (polls asEncoded [[0x94, 0x01, 0x01, 0xc0, 0xcc, 0xc8]]).dispatched = [] ∧
    (polls asEncoded [[0x94, 0x01, 0x01, 0xc0, 0xcc, 0xc8]]).buf =
      [0x94, 0x01, 0x01, 0xc0, 0xcc, 0xc8] ∧
    (polls asEncoded [[0xc0, 0x05]]).dispatched = [[0x05]] := by
  refine ⟨asEncoded_lawful, ?_, by decide⟩
  show format.skip 1 _ = some []
  decide

end LuaClient

end Kgd
