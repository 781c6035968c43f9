import Kgd.Daemon.TermColors

/-!
# The grammar of terminal colors

A color is three components of 1 to 4 hex digits with a slash between them, each of which
stands for its digits repeated to four. `parseRGBColor` reads every such text as its color,
and every text with no part of this form as the zero color. Of other texts it takes the
components that it can read.

## Key results

- `Tty.parseHex16_bytes`, `Tty.parseHex16_of_not_channel`: what a component is read as
- `Tty.parseRGBColor_iff`: the texts that are read as the grammar says
-/

namespace Kgd

namespace Tty

/-- A hex digit as it is written; the case matters from ten on. -/
structure HexDigit where
  value : Fin 16
  upper : Bool

/-- The character of a digit. -/
def HexDigit.byte (d : HexDigit) : UInt8 :=
  .ofNat (if d.value < 10 then 48 + d.value else if d.upper then 55 + d.value else 87 + d.value)

/-- A component of a color. -/
structure Channel where
  digits : List HexDigit
  nonempty : digits ≠ []
  short : digits.length ≤ 4

namespace Channel

def bytes (c : Channel) : Bytes := c.digits.map HexDigit.byte

/-- The digits repeated to four. -/
def fourDigits (c : Channel) : List (Fin 16) :=
  ((List.replicate 4 (c.digits.map HexDigit.value)).flatten).take 4

/-- What the component stands for. -/
def value (c : Channel) : UInt16 := .ofNat (c.fourDigits.foldl (fun n d => n * 16 + d.val) 0)

/-- Only zeros. -/
def IsZero (c : Channel) : Prop := ∀ d ∈ c.digits, d.value = 0

end Channel

/-- A color of the grammar. -/
structure ColorText where
  r : Channel
  g : Channel
  b : Channel

namespace ColorText

def bytes (c : ColorText) : Bytes := c.r.bytes ++ slash :: (c.g.bytes ++ slash :: c.b.bytes)

/-- What the text stands for. -/
def color (c : ColorText) : Color := ⟨c.r.value, c.g.value, c.b.value⟩

end ColorText

/-! ## Digits -/

namespace HexDigit

/-- The byte of a digit, in either case. -/
theorem toNat_byte (d : HexDigit) :
    d.byte.toNat = if d.value.val < 10 then 48 + d.value.val
      else if d.upper then 55 + d.value.val else 87 + d.value.val := by
  have hv := d.value.isLt
  show (UInt8.ofNat (if d.value.val < 10 then 48 + d.value.val
    else if d.upper then 55 + d.value.val else 87 + d.value.val)).toNat = _
  rw [UInt8.toNat_ofNat', Nat.mod_eq_of_lt]
  split
  · omega
  · split <;> omega

/-- A digit is read as its value. -/
theorem hexDigit_byte (d : HexDigit) : hexDigit d.byte.toNat = some (.ofNat d.value) := by
  have hall : ∀ (v : Fin 16) (u : Bool),
      hexDigit (HexDigit.mk v u).byte.toNat = some (.ofNat v) := by decide
  exact hall d.value d.upper

/-- A digit is no slash. -/
theorem byte_ne_slash (d : HexDigit) : d.byte ≠ slash := by
  have hall : ∀ (v : Fin 16) (u : Bool), (HexDigit.mk v u).byte ≠ slash := by decide
  exact hall d.value d.upper

/-- Only digits are read. -/
theorem exists_of_hexDigit {b : UInt8} {v : UInt64} (h : hexDigit b.toNat = some v) :
    ∃ d : HexDigit, d.byte = b := by
  suffices hd : ∃ d : HexDigit, d.byte.toNat = b.toNat by
    obtain ⟨d, hd⟩ := hd
    exact ⟨d, UInt8.toNat_inj.mp hd⟩
  unfold hexDigit at h
  -- a decimal digit, a small letter or a capital one
  split at h
  · refine ⟨⟨⟨b.toNat - 48, by omega⟩, false⟩, ?_⟩
    rw [toNat_byte, if_pos (by simp only; omega)]
    show 48 + (b.toNat - 48) = b.toNat
    omega
  · split at h
    · refine ⟨⟨⟨b.toNat - 87, by omega⟩, false⟩, ?_⟩
      rw [toNat_byte, if_neg (by simp only; omega)]
      show 87 + (b.toNat - 87) = b.toNat
      omega
    · split at h
      · refine ⟨⟨⟨b.toNat - 55, by omega⟩, true⟩, ?_⟩
        rw [toNat_byte, if_neg (by simp only; omega)]
        show 55 + (b.toNat - 55) = b.toNat
        omega
      · exact nomatch h

end HexDigit

/-- A byte outside ASCII is no digit. -/
theorem addDigit_of_large (val : UInt64) (c : Nat) (h : 0x80 ≤ c) : addDigit val c = none := by
  rw [addDigit, hexDigit, if_neg (by omega), if_neg (by omega), if_neg (by omega)]
  rfl

/-- What the loop has when it has seen some digits. -/
def accumulate (val : UInt64) (ds : List HexDigit) : UInt64 :=
  ds.foldl (fun val d => val <<< 4 ||| .ofNat d.value) val

/-- Digits are accumulated one after the other. -/
theorem foldlM_addDigit (ds : List HexDigit) (val : UInt64) :
    (Strings.runes (ds.map HexDigit.byte)).foldlM addDigit val = some (accumulate val ds) := by
  rw [Strings.foldlM_runes addDigit_of_large]
  induction ds generalizing val with
  | nil => rfl
  | cons d ds ih =>
    simp only [List.map_cons, List.foldlM_cons, addDigit, d.hexDigit_byte]
    exact ih _

/-- A loop that does not return early has seen digits alone. -/
theorem digits_of_foldlM {s : Bytes} {val val' : UInt64}
    (h : (Strings.runes s).foldlM addDigit val = some val') :
    ∃ ds : List HexDigit, s = ds.map HexDigit.byte := by
  rw [Strings.foldlM_runes addDigit_of_large] at h
  induction s generalizing val with
  | nil => exact ⟨[], rfl⟩
  | cons b s ih =>
    rw [List.map_cons, List.foldlM_cons] at h
    -- the fold goes on over hex digits only
    cases hb : hexDigit b.toNat with
    | none =>
      rw [addDigit, hb] at h
      exact nomatch h
    | some v =>
      rw [addDigit, hb] at h
      obtain ⟨ds, hs⟩ := ih h
      obtain ⟨d, hd⟩ := HexDigit.exists_of_hexDigit hb
      exact ⟨d :: ds, by rw [List.map_cons, hd, hs]⟩

/-! ## Components -/

/-- A digit that is shifted in is the lowest one. -/
theorem toNat_shiftIn {val : UInt64} (hval : val.toNat < 4096) (v : Fin 16) :
    (val <<< 4 ||| .ofNat v).toNat = val.toNat * 16 + v := by
  have hv : v.val < 2 ^ 4 := v.isLt
  have hv' : (UInt64.ofNat v.val).toNat = v.val := by
    rw [UInt64.toNat_ofNat', Nat.mod_eq_of_lt (by omega)]
  rw [UInt64.toNat_or, UInt64.toNat_shiftLeft, hv', Nat.shiftLeft_eq, Nat.mod_eq_of_lt]
  · show val.toNat * 2 ^ 4 ||| v.val = _
    rw [← Nat.shiftLeft_eq, ← Nat.shiftLeft_add_eq_or_of_lt hv, Nat.shiftLeft_eq]
  · show val.toNat * 2 ^ 4 < _
    omega

/-- The number that some digits are written for. -/
def number (n : Nat) (ds : List HexDigit) : Nat := ds.foldl (fun n d => n * 16 + d.value.val) n

/-- Up to four digits accumulate to their number. -/
theorem toNat_accumulate {k : Nat} {val : UInt64} {ds : List HexDigit} (hval : val.toNat < 16 ^ k)
    (hk : k + ds.length ≤ 4) : (accumulate val ds).toNat = number val.toNat ds := by
  induction ds generalizing k val with
  | nil => rfl
  | cons d ds ih =>
    rw [List.length_cons] at hk
    have hle : 16 ^ k ≤ 16 ^ 3 := Nat.pow_le_pow_right (by decide) (by omega)
    have hsmall : val.toNat < 4096 := by omega
    -- below 2^12 the shift does not overflow, and the digit fits below it
    have hstep := toNat_shiftIn hsmall d.value
    have hval' : (val <<< 4 ||| .ofNat d.value : UInt64).toNat < 16 ^ (k + 1) := by
      have hd := d.value.isLt
      rw [hstep, Nat.pow_succ]
      omega
    show (accumulate (val <<< 4 ||| .ofNat d.value) ds).toNat = _
    rw [ih hval' (by omega), hstep]
    rfl

/-- A component is read as what it stands for. -/
theorem parseHex16_bytes (c : Channel) : parseHex16 c.bytes = c.value := by
  obtain ⟨ds, hne, hshort⟩ := c
  have hlength : (ds.map HexDigit.byte).length = ds.length := List.length_map _
  have hnumber : (accumulate 0 ds).toNat = number 0 ds :=
    toNat_accumulate (k := 0) (by decide) (by omega)
  rw [parseHex16, Channel.bytes, foldlM_addDigit, hlength, if_neg]
  · apply UInt16.toNat_inj.mp
    match ds, hne, hshort with
    | [a], _, _ =>
      have ha := a.value.isLt
      show (accumulate 0 [a] * 0x1111).toUInt16.toNat =
        (UInt16.ofNat
          ((((0 * 16 + a.value.val) * 16 + a.value) * 16 + a.value) * 16 + a.value)).toNat
      rw [UInt64.toNat_toUInt16, UInt64.toNat_mul, hnumber, UInt16.toNat_ofNat']
      show (0 * 16 + a.value.val) * 0x1111 % 2 ^ 64 % 2 ^ 16 = _
      omega
    | [a, b], _, _ =>
      have ha := a.value.isLt
      have hb := b.value.isLt
      show (accumulate 0 [a, b] * 0x0101).toUInt16.toNat =
        (UInt16.ofNat
          ((((0 * 16 + a.value.val) * 16 + b.value) * 16 + a.value) * 16 + b.value)).toNat
      rw [UInt64.toNat_toUInt16, UInt64.toNat_mul, hnumber, UInt16.toNat_ofNat']
      show ((0 * 16 + a.value.val) * 16 + b.value.val) * 0x0101 % 2 ^ 64 % 2 ^ 16 = _
      omega
    | [a, b, c], _, _ =>
      have ha := a.value.isLt
      have hb := b.value.isLt
      have hc := c.value.isLt
      show (accumulate 0 [a, b, c] <<< 4 ||| accumulate 0 [a, b, c] >>> 8).toUInt16.toNat =
        (UInt16.ofNat
          ((((0 * 16 + a.value.val) * 16 + b.value) * 16 + c.value) * 16 + a.value)).toNat
      -- the first digit again, below the three
      have hfirst : accumulate 0 [a, b, c] >>> 8 = .ofNat a.value := by
        apply UInt64.toNat_inj.mp
        rw [UInt64.toNat_shiftRight, hnumber, Nat.shiftRight_eq_div_pow, UInt64.toNat_ofNat']
        show (((0 * 16 + a.value.val) * 16 + b.value.val) * 16 + c.value.val) / 2 ^ 8 = _ % 2 ^ 64
        omega
      rw [UInt64.toNat_toUInt16, hfirst, toNat_shiftIn, hnumber, UInt16.toNat_ofNat']
      · rfl
      · rw [hnumber]
        show ((0 * 16 + a.value.val) * 16 + b.value.val) * 16 + c.value.val < 4096
        omega
    | [a, b, c, d], _, _ =>
      show (accumulate 0 [a, b, c, d]).toUInt16.toNat = (UInt16.ofNat (number 0 [a, b, c, d])).toNat
      rw [UInt64.toNat_toUInt16, hnumber, UInt16.toNat_ofNat']
  · rintro (h | h)
    · exact hne (List.length_eq_zero_iff.mp h)
    · omega

/-- What is no component is read as zero. -/
theorem parseHex16_of_not_channel {s : Bytes} (h : ∀ c : Channel, c.bytes ≠ s) :
    parseHex16 s = 0 := by
  rw [parseHex16]
  split
  · rfl
  · rename_i hlength
    rw [not_or, List.length_eq_zero_iff] at hlength
    obtain ⟨hne, hshort⟩ := hlength
    cases hval : (Strings.runes s).foldlM addDigit 0 with
    | none => rfl
    | some val =>
      -- one to four bytes that all are digits would be a channel
      obtain ⟨ds, rfl⟩ := digits_of_foldlM hval
      rw [List.map_eq_nil_iff] at hne
      rw [List.length_map] at hshort
      exact absurd rfl (h ⟨ds, hne, by omega⟩)

namespace Channel
variable {c c' : Channel}

theorem length_fourDigits (c : Channel) : c.fourDigits.length = 4 := by
  have hpos := List.length_pos_iff.mpr c.nonempty
  simp only [fourDigits, List.length_take, List.length_flatten, List.map_replicate,
    List.sum_replicate_nat, List.length_map]
  omega

/-- The four digits have the values of the digits there are. -/
theorem mem_fourDigits {v : Fin 16} : v ∈ c.fourDigits ↔ ∃ d ∈ c.digits, d.value = v := by
  rw [← List.mem_map]
  constructor
  · intro hv
    obtain ⟨l, hl, hv⟩ := List.mem_flatten.mp (List.mem_of_mem_take hv)
    rwa [List.eq_of_mem_replicate hl] at hv
  · intro hv
    -- four places have room for all digits of the channel
    have hshort : (c.digits.map HexDigit.value).length ≤ 4 := by
      rw [List.length_map]
      exact c.short
    rw [fourDigits, List.replicate_succ, List.flatten_cons, List.take_append]
    rw [List.take_of_length_le hshort]
    exact List.mem_append_left _ hv

/-- Components stand for the same number if their digits repeated to four are the same. -/
theorem value_eq_iff : c.value = c'.value ↔ c.fourDigits = c'.fourDigits := by
  refine ⟨fun h => ?_, fun h => by rw [value, value, h]⟩
  have hlength := c.length_fourDigits
  have hlength' := c'.length_fourDigits
  have h := congrArg UInt16.toNat h
  rw [value, value, UInt16.toNat_ofNat', UInt16.toNat_ofNat'] at h
  -- four digits each, and sixteen bits are four digits
  revert h
  match c.fourDigits, hlength, c'.fourDigits, hlength' with
  | [⟨v, _⟩, ⟨w, _⟩, ⟨x, _⟩, ⟨y, _⟩], _, [⟨v', _⟩, ⟨w', _⟩, ⟨x', _⟩, ⟨y', _⟩], _ =>
    simp only [List.foldl_cons, List.foldl_nil, List.cons.injEq, Fin.mk.injEq, and_true]
    omega

/-- A channel is 0 exactly if its digits are. -/
theorem value_eq_zero_iff : c.value = 0 ↔ c.IsZero := by
  have hzero : ∀ c' : Channel, (∀ v ∈ c'.fourDigits, v = 0) → c'.value = 0 := by
    intro c' h
    rw [value, List.eq_replicate_iff.mpr ⟨c'.length_fourDigits, h⟩]
    rfl
  constructor
  · intro h
    have hfour : c.fourDigits = List.replicate 4 0 := by
      -- the channel of a single zero has four zeros as well
      let z : Channel := ⟨[⟨0, false⟩], by simp, by simp⟩
      have hz : c.value = z.value := h.trans rfl
      exact value_eq_iff.mp hz
    intro d hd
    have hmem : d.value ∈ c.fourDigits := mem_fourDigits.mpr ⟨d, hd, rfl⟩
    rw [hfour] at hmem
    exact List.eq_of_mem_replicate hmem
  · intro h
    apply hzero
    intro v hv
    obtain ⟨d, hd, rfl⟩ := mem_fourDigits.mp hv
    exact h d hd

/-- A channel has no slash in it. -/
theorem slash_not_mem (c : Channel) : slash ∉ c.bytes := by
  intro h
  obtain ⟨d, _, hd⟩ := List.mem_map.mp h
  exact d.byte_ne_slash hd

end Channel

/-- The source reads 0 exactly where there is no channel, or one of zeros. -/
theorem parseHex16_eq_zero_iff {s : Bytes} :
    parseHex16 s = 0 ↔ ∀ c : Channel, c.bytes = s → c.IsZero := by
  constructor
  · intro h c hc
    rw [← hc, parseHex16_bytes] at h
    exact Channel.value_eq_zero_iff.mp h
  · intro h
    by_cases hc : ∃ c : Channel, c.bytes = s
    · obtain ⟨c, rfl⟩ := hc
      rw [parseHex16_bytes]
      exact Channel.value_eq_zero_iff.mpr (h c rfl)
    · exact parseHex16_of_not_channel fun c hc' => hc ⟨c, hc'⟩

/-! ## Colors -/

/-- A color is split into its channels. -/
@[simp] theorem ColorText.splitOn_bytes (c : ColorText) :
    c.bytes.splitOn slash = [c.r.bytes, c.g.bytes, c.b.bytes] := by
  rw [bytes, List.splitOn_append_cons_self_of_not_mem c.r.slash_not_mem,
    List.splitOn_append_cons_self_of_not_mem c.g.slash_not_mem,
    List.splitOn_eq_singleton c.b.slash_not_mem]

/-- A text of the grammar is read as its color. -/
theorem parseRGBColor_bytes (c : ColorText) : parseRGBColor c.bytes = c.color := by
  rw [parseRGBColor, c.splitOn_bytes]
  simp only [parseHex16_bytes]
  rfl

/-- A text without exactly two slashes is no color. -/
theorem parseRGBColor_of_length {s : Bytes} (h : (s.splitOn slash).length ≠ 3) :
    parseRGBColor s = noColor := by
  rw [parseRGBColor]
  split
  · rename_i hs
    rw [hs] at h
    exact absurd rfl h
  · rfl

/-- `s` is read as its color if it is of the grammar, and as the zero color if it is not. -/
def ReadByGrammar (s : Bytes) : Prop :=
  (∀ c : ColorText, s = c.bytes → parseRGBColor s = c.color) ∧
    ((∀ c : ColorText, s ≠ c.bytes) → parseRGBColor s = noColor)

/-- If `s` is not of the grammar and of three parts all the same, its components, if any, are
    only zeros. -/
def NoStrayComponent (s : Bytes) : Prop :=
  (∀ c : ColorText, s ≠ c.bytes) → (s.splitOn slash).length = 3 →
    ∀ c : Channel, c.bytes ∈ s.splitOn slash → c.IsZero

/-- Exactly these texts are read as the grammar says. -/
theorem parseRGBColor_iff (s : Bytes) : ReadByGrammar s ↔ NoStrayComponent s := by
  constructor
  · intro h hno hlength c hc
    have hparse := h.2 hno
    obtain ⟨x, y, z, hparts⟩ := List.length_eq_three.mp hlength
    simp only [parseRGBColor, hparts, noColor, Color.mk.injEq, parseHex16_eq_zero_iff] at hparse
    obtain ⟨hx, hy, hz⟩ := hparse
    simp only [hparts, List.mem_cons, List.not_mem_nil, or_false] at hc
    -- a stray component that is a channel is not zero, and neither is the color
    rcases hc with hc | hc | hc
    · exact hx c hc
    · exact hy c hc
    · exact hz c hc
  · intro h
    refine ⟨fun c hc => hc ▸ parseRGBColor_bytes c, fun hno => ?_⟩
    -- three components are parsed one by one, any other number is no color
    by_cases hlength : (s.splitOn slash).length = 3
    · have hzero := h hno hlength
      obtain ⟨x, y, z, hparts⟩ := List.length_eq_three.mp hlength
      simp only [hparts, List.mem_cons, List.not_mem_nil, or_false] at hzero
      simp only [parseRGBColor, hparts, noColor, Color.mk.injEq, parseHex16_eq_zero_iff]
      exact ⟨fun c hc => hzero c (Or.inl hc), fun c hc => hzero c (Or.inr (Or.inl hc)),
        fun c hc => hzero c (Or.inr (Or.inr hc))⟩
    · exact parseRGBColor_of_length hlength

/-- A corrupted red component and two good ones are taken for a color. -/
theorem corrupt_red_read : ¬ ∀ s, ReadByGrammar s := by
  intro h
  -- `z` is no hex digit, so the text is outside the grammar
  have hno : ∀ c : ColorText, bytes "zz/ff/ff" ≠ c.bytes := by
    intro c hc
    have hred : bytes "zz" = c.r.bytes := by
      have hparts := c.splitOn_bytes
      rw [← hc] at hparts
      exact (List.cons.inj hparts).1
    have hz : 0x7a ∈ c.r.bytes := by
      rw [← hred]
      decide
    obtain ⟨d, _, hd⟩ := List.mem_map.mp hz
    have hdigit := d.hexDigit_byte
    have hnone : hexDigit (0x7a : UInt8).toNat = none := by decide
    rw [hd, hnone] at hdigit
    exact nomatch hdigit
  exact absurd ((h (bytes "zz/ff/ff")).2 hno) (by decide)

end Tty

end Kgd
