import Mathlib.Data.List.Basic

/-!
# Calls of a client library

What the C and the Zig client have in common: a call goes out as a request with a message id,
and waits in the slot of its id, one of 64. The reader takes a response apart and leaves it in
the slot of the response's id.
-/

namespace Kgd

/-- A response, `[1, msgid, error, result]`, as the reader takes it apart. -/
structure Response where
  msgid : UInt32
  /-- the error field is not nil -/
  hasError : Bool
  /-- the message in the error field -/
  message : Option (List UInt8)
  /-- the bytes of the result; none if the array ends before it -/
  result : List UInt8
  deriving DecidableEq

/-- `MAX_PENDING`. -/
abbrev maxPending : Nat := 64

/-- `msgid % MAX_PENDING`. -/
def slot (msgid : UInt32) : Fin maxPending :=
  ⟨msgid.toNat % maxPending, Nat.mod_lt _ (by decide)⟩

/-- The number of a call, by when it starts. -/
abbrev CallNo := Nat

/-- A key of a table of Python or Lua: an integer (or what equals one), or some other value. -/
inductive Key (K : Type)
  | int (n : Int)
  | other (k : K)
  deriving DecidableEq

end Kgd
