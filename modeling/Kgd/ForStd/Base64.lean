import Mathlib.Data.List.Basic
import Mathlib.Data.Option.Basic

/-!
# Base64

The decoder for the standard alphabet with padding. A group of four characters gives three
bytes; the last one may end in one or two padding characters, and the bits that these stand for
are zero.

## Key results

- `Base64.decode?_group`, `Base64.decode?_two`, `Base64.decode?_one`: the groups
-/

namespace Base64

/-- The padding character. -/
def pad : UInt8 := 61

/-- The six bits that a character of the alphabet stands for. -/
def value? (c : UInt8) : Option Nat :=
  if 65 ≤ c ∧ c ≤ 90 then some (c.toNat - 65)
  else if 97 ≤ c ∧ c ≤ 122 then some (c.toNat - 71)
  else if 48 ≤ c ∧ c ≤ 57 then some (c.toNat + 4)
  else if c = 43 then some 62
  else if c = 47 then some 63
  else none

/-- The two bytes of a group with one padding character. -/
def decodeTwo? (a b c : UInt8) : Option (List UInt8) := do
  let x ← value? a
  let y ← value? b
  let z ← value? c
  guard (z % 4 = 0)
  return [UInt8.ofNat (x * 4 + y / 16), UInt8.ofNat (y % 16 * 16 + z / 4)]

/-- The byte of a group with two padding characters. -/
def decodeOne? (a b : UInt8) : Option (List UInt8) := do
  let x ← value? a
  let y ← value? b
  guard (y % 16 = 0)
  return [UInt8.ofNat (x * 4 + y / 16)]

/-- The bytes that a text stands for. -/
def decode? : List UInt8 → Option (List UInt8)
  | [] => some []
  | a :: b :: c :: d :: rest =>
    if d = pad then
      if rest ≠ [] then none
      else if c = pad then decodeOne? a b
      else decodeTwo? a b c
    else do
      let x ← value? a
      let y ← value? b
      let z ← value? c
      let w ← value? d
      let bytes ← decode? rest
      return UInt8.ofNat (x * 4 + y / 16) :: UInt8.ofNat (y % 16 * 16 + z / 4) ::
        UInt8.ofNat (z % 4 * 64 + w) :: bytes
  | _ => none

/-- A padding character stands for no bits. -/
theorem ne_pad {c : UInt8} {n : Nat} (h : value? c = some n) : c ≠ pad := by
  intro hc
  have hnone : value? pad = none := by decide
  rw [hc, hnone] at h
  exact nomatch h

section Groups
variable {a b c d : UInt8} {x y z w : Nat}

/-- Four digits are three bytes. -/
theorem decode?_group (ha : value? a = some x) (hb : value? b = some y) (hc : value? c = some z)
    (hd : value? d = some w) (rest : List UInt8) :
    decode? (a :: b :: c :: d :: rest) = (decode? rest).map fun bytes =>
      UInt8.ofNat (x * 4 + y / 16) :: UInt8.ofNat (y % 16 * 16 + z / 4) ::
        UInt8.ofNat (z % 4 * 64 + w) :: bytes := by
  rw [decode?, if_neg (ne_pad hd), ha, hb, hc, hd]
  cases decode? rest <;> rfl

/-- Three digits and a padding character are two bytes, if no bits are left over. -/
theorem decode?_two (ha : value? a = some x) (hb : value? b = some y) (hc : value? c = some z)
    (hz : z % 4 = 0) :
    decode? [a, b, c, pad] =
      some [UInt8.ofNat (x * 4 + y / 16), UInt8.ofNat (y % 16 * 16 + z / 4)] := by
  rw [decode?, if_pos rfl, if_neg (not_not_intro rfl), if_neg (ne_pad hc), decodeTwo?, ha, hb, hc]
  simp [hz]

/-- Two digits and two padding characters are one byte, if no bits are left over. -/
theorem decode?_one (ha : value? a = some x) (hb : value? b = some y) (hy : y % 16 = 0) :
    decode? [a, b, pad, pad] = some [UInt8.ofNat (x * 4 + y / 16)] := by
  rw [decode?, if_pos rfl, if_neg (not_not_intro rfl), if_pos rfl, decodeOne?, ha, hb]
  simp [hy]

end Groups

end Base64
