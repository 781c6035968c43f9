import Mathlib.Data.List.Basic
import Std.Data.String.ToInt

/-!
# Fields of the form key=value

Reading text as bytes: a list of fields with a separator between them, each a key and a value,
and integers in decimal.

## Key results

- `splitAt?_append`, `fields?_join`: what was joined is split again
- `parseInt?_repr`: the decimal form of an integer is read as the integer
- `mem_repr`: it has no other bytes than digits and a minus sign
-/

namespace KeyValue

variable {α : Type u} [DecidableEq α]

/-- The parts before and after the first `sep`. -/
def splitAt? (sep : α) : List α → Option (List α × List α)
  | [] => none
  | a :: l =>
    if a = sep then some ([], l)
    else (splitAt? sep l).map fun parts => (a :: parts.1, parts.2)

theorem splitAt?_append {sep : α} {l : List α} (hl : sep ∉ l) (rest : List α) :
    splitAt? sep (l ++ sep :: rest) = some (l, rest) := by
  induction l with
  | nil => simp [splitAt?]
  | cons a l ih =>
    rw [List.mem_cons, not_or] at hl
    rw [List.cons_append, splitAt?, if_neg (Ne.symm hl.1), ih hl.2]
    rfl

/-- What follows a separator is shorter than the text. -/
theorem length_lt_of_splitAt? {sep : α} {l before after : List α}
    (h : splitAt? sep l = some (before, after)) : after.length < l.length := by
  induction l generalizing before with
  | nil => cases h
  | cons a l ih =>
    rw [splitAt?] at h
    split at h
    · obtain ⟨-, rfl⟩ := Prod.mk.inj (Option.some.inj h)
      rw [List.length_cons]
      omega
    · obtain ⟨parts, hparts, heq⟩ := Option.map_eq_some_iff.mp h
      obtain ⟨-, rfl⟩ := Prod.mk.inj heq
      have hlt := ih hparts
      rw [List.length_cons]
      omega

/-- A field with its key before `eq`. -/
def field (eq : α) (p : List α × List α) : List α := p.1 ++ eq :: p.2

/-- The keys and values of the fields between separators. -/
def fields? (sep eq : α) (l : List α) : Option (List (List α × List α)) :=
  (l.splitOn sep).mapM (splitAt? eq)

/-- Fields that were joined are read again, if no key has an `eq` in it and no field a
    separator. -/
theorem fields?_join {sep eq : α} {ps : List (List α × List α)} (hps : ps ≠ [])
    (hkeys : ∀ p ∈ ps, eq ∉ p.1) (hsep : ∀ p ∈ ps, sep ∉ field eq p) :
    fields? sep eq ([sep].intercalate (ps.map (field eq))) = some ps := by
  have hsplit : ([sep].intercalate (ps.map (field eq))).splitOn sep = ps.map (field eq) := by
    refine List.splitOn_intercalate sep ?_ (by simpa using hps)
    intro l hl
    obtain ⟨p, hp, rfl⟩ := List.mem_map.mp hl
    exact hsep p hp
  rw [fields?, hsplit]
  clear hsplit hsep hps
  -- no key or value has a separator in it, so splitting undoes
  -- joining; each part is then split by itself
  induction ps with
  | nil => rfl
  | cons p ps ih =>
    have hp : splitAt? eq (field eq p) = some p :=
      splitAt?_append (hkeys p List.mem_cons_self) p.2
    have hrest := ih fun q hq => hkeys q (List.mem_cons_of_mem _ hq)
    rw [List.map_cons, List.mapM_cons, hp, hrest]
    rfl

omit [DecidableEq α] in
/-- An element of no field, and not the separator, is not in the joined fields. -/
theorem not_mem_intercalate {a sep : α} (hne : a ≠ sep) {ls : List (List α)}
    (h : ∀ l ∈ ls, a ∉ l) : a ∉ [sep].intercalate ls := by
  induction ls with
  | nil => simp
  | cons l ls ih =>
    have hl : a ∉ l := h l List.mem_cons_self
    have hls := ih fun l' hl' => h l' (List.mem_cons_of_mem _ hl')
    by_cases hnil : ls = []
    · rw [hnil, List.intercalate_singleton]
      exact hl
    · rw [List.intercalate_cons_of_ne_nil hnil]
      simp only [List.mem_append, List.mem_singleton, not_or]
      exact ⟨⟨hl, hne⟩, hls⟩

omit [DecidableEq α] in
/-- Fields after other fields, each with its separator. -/
theorem intercalate_append {sep : α} {ls : List (List α)} (hls : ls ≠ []) (more : List (List α)) :
    [sep].intercalate (ls ++ more) =
      [sep].intercalate ls ++ more.flatMap fun l => [sep] ++ l := by
  induction more generalizing ls with
  | nil => simp
  -- `l` joins the front, which is not empty, and the induction goes on behind it
  | cons l more ih =>
    have hsnoc : [sep].intercalate (ls ++ [l]) = [sep].intercalate ls ++ ([sep] ++ l) := by
      clear ih
      induction ls with
      | nil => exact absurd rfl hls
      | cons l' ls ih =>
        by_cases hnil : ls = []
        · simp [hnil]
        · rw [List.cons_append, List.intercalate_cons_of_ne_nil (by simp), ih hnil,
            List.intercalate_cons_of_ne_nil hnil]
          simp only [List.append_assoc]
    have happend : ls ++ l :: more = (ls ++ [l]) ++ more := by simp
    rw [happend, ih (by simp), hsnoc, List.flatMap_cons, List.append_assoc]

/-! ## Integers -/

/-- The integer whose decimal form the bytes are. -/
def parseInt? (l : List UInt8) : Option Int :=
  (String.fromUTF8? ⟨l.toArray⟩).bind String.toInt?

/-- A number is read from the bytes of a text as from the text. -/
theorem parseInt?_toUTF8 (s : String) : parseInt? s.toUTF8.data.toList = s.toInt? := by
  have hvalid : String.fromUTF8? s.toUTF8 = some s := by
    simp only [String.fromUTF8?, String.toUTF8_eq_toByteArray, dif_pos s.isValidUTF8]
    rfl
  show (String.fromUTF8? ⟨s.toUTF8.data.toList.toArray⟩).bind String.toInt? = _
  rw [Array.toArray_toList, hvalid]
  rfl

/-- The decimal form of an integer is read as the integer. -/
theorem parseInt?_repr (n : Int) : parseInt? n.repr.toUTF8.data.toList = some n := by
  rw [parseInt?_toUTF8, Int.toInt?_repr]

/-- A digit is one byte. -/
theorem mem_utf8EncodeChar {c : Char} (hc : c.isDigit = true) {b : UInt8}
    (hb : b ∈ String.utf8EncodeChar c) : 48 ≤ b ∧ b ≤ 57 := by
  simp only [Char.isDigit, Bool.and_eq_true, decide_eq_true_eq] at hc
  have hlower : 48 ≤ c.val.toNat := UInt32.le_iff_toNat_le.mp hc.1
  have hupper : c.val.toNat ≤ 57 := UInt32.le_iff_toNat_le.mp hc.2
  -- a digit is ASCII, so it is its own encoding
  have hsize : c.utf8Size = 1 := by
    have hascii : c.val ≤ 0x7f := UInt32.le_iff_toNat_le.mpr (Nat.le_trans hupper (by decide))
    unfold Char.utf8Size
    exact if_pos hascii
  rw [String.utf8EncodeChar_eq_singleton hsize, List.mem_singleton] at hb
  subst hb
  have hbyte : c.val.toUInt8.toNat = c.val.toNat := by
    rw [UInt32.toNat_toUInt8]
    omega
  rw [UInt8.le_iff_toNat_le, UInt8.le_iff_toNat_le]
  exact ⟨hbyte ▸ hlower, hbyte ▸ hupper⟩

/-- The bytes of a decimal number are digits. -/
theorem mem_natRepr {n : Nat} {b : UInt8} (hb : b ∈ n.repr.toUTF8.data.toList) :
    48 ≤ b ∧ b ≤ 57 := by
  have hbytes : n.repr.toUTF8.data.toList = (Nat.toDigits 10 n).flatMap String.utf8EncodeChar := by
    rw [Nat.repr_eq_ofList_toDigits, String.toUTF8_eq_toByteArray, String.toByteArray_ofList]
    simp [List.utf8Encode]
  rw [hbytes, List.mem_flatMap] at hb
  obtain ⟨c, hc, hb⟩ := hb
  exact mem_utf8EncodeChar (Nat.isDigit_of_mem_toDigits (by decide) (by decide) hc) hb

/-- The decimal form of an integer has digits, and a minus sign at most. -/
theorem mem_repr {n : Int} {b : UInt8} (hb : b ∈ n.repr.toUTF8.data.toList) :
    b = 45 ∨ (48 ≤ b ∧ b ≤ 57) := by
  cases n with
  | ofNat n => exact Or.inr (mem_natRepr hb)
  | negSucc n =>
    -- a negative number has its sign and then digits
    have hminus : ("-" ++ n.succ.repr).toUTF8.data.toList =
        45 :: n.succ.repr.toUTF8.data.toList := by
      simp only [String.toUTF8_eq_toByteArray, String.toByteArray_append, ByteArray.data_append,
        Array.toList_append]
      rfl
    rw [Int.repr, hminus, List.mem_cons] at hb
    exact hb.imp_right mem_natRepr

end KeyValue
