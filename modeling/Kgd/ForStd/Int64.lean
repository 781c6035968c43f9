import Mathlib.Algebra.Order.Ring.Int

/-!
# 64-bit integers as integers

A sum or difference of 64-bit integers is the mathematical one up to a multiple of 2⁶⁴. With the
range of the type (`Int64.le_toInt`, `Int64.toInt_lt`) this is all that linear arithmetic needs.
-/

namespace Int64

/-- A sum that wraps around is off by a multiple of 2⁶⁴. -/
theorem exists_toInt_add (a b : Int64) :
    ∃ k : Int, (a + b).toInt = a.toInt + b.toInt + 2 ^ 64 * k := by
  refine ⟨-(Int.bdiv (a.toInt + b.toInt) (2 ^ 64)), ?_⟩
  rw [toInt_add]
  have hdiv := Int.bmod_add_bdiv (a.toInt + b.toInt) (2 ^ 64)
  rw [show ((2 ^ 64 : Nat) : Int) = 2 ^ 64 from rfl] at hdiv
  omega

/-- A difference is the difference of the integers, up to a multiple of 2^64. -/
theorem exists_toInt_sub (a b : Int64) :
    ∃ k : Int, (a - b).toInt = a.toInt - b.toInt + 2 ^ 64 * k := by
  refine ⟨-(Int.bdiv (a.toInt - b.toInt) (2 ^ 64)), ?_⟩
  rw [toInt_sub]
  have hdiv := Int.bmod_add_bdiv (a.toInt - b.toInt) (2 ^ 64)
  rw [show ((2 ^ 64 : Nat) : Int) = 2 ^ 64 from rfl] at hdiv
  omega

/-- A sum in the range of the type does not wrap around. -/
theorem toInt_add_of_lt {a b : Int64} (hlower : -2 ^ 63 ≤ a.toInt + b.toInt)
    (hupper : a.toInt + b.toInt < 2 ^ 63) : (a + b).toInt = a.toInt + b.toInt := by
  obtain ⟨k, hk⟩ := exists_toInt_add a b
  have hle := le_toInt (a + b)
  have hlt := toInt_lt (a + b)
  omega

end Int64
