import Mathlib.Data.List.Basic

/-!
# Frames with a doubled escape character

A frame starts with a fixed opening, doubles every escape character of its contents, and ends
with the escape character followed by a closing one. `Framing.scan` reads a sequence of such
frames and yields their contents: in a frame, the escape character followed by anything but the
closing one stands for what follows it.

## Key results

- `Framing.scan_wrap`: a frame is read back, whatever its contents are
- `Framing.scan_flatMap_wrap`: so is a sequence of frames, with nothing left over
-/

universe u

/-- The characters of a framing. -/
structure Framing (α : Type u) where
  opening : List α
  esc : α
  close : α
  opening_ne_nil : opening ≠ []
  close_ne_esc : close ≠ esc

namespace Framing

variable {α : Type u} [DecidableEq α] (f : Framing α)

/-- The contents of a frame, with every escape character doubled. -/
def stuff (s : List α) : List α := s.flatMap fun a => if a = f.esc then [f.esc, f.esc] else [a]

/-- A frame around `s`. -/
def wrap (s : List α) : List α := f.opening ++ f.stuff s ++ [f.esc, f.close]

/-- Where a scanner is. -/
inductive ScanState
  /-- past this many characters of an opening; at 0, between frames -/
  | opening (matched : Nat)
  | inside
  /-- in a frame, past an escape character -/
  | escaped

/-- The contents of the frames, if the input is a sequence of frames. -/
def scan : ScanState → List α → Option (List α)
  | .opening 0, [] => some []
  | .opening (_ + 1), [] | .inside, [] | .escaped, [] => none
  | .opening n, a :: as =>
    if f.opening[n]? = some a then
      if n + 1 = f.opening.length then scan .inside as else scan (.opening (n + 1)) as
    else none
  | .inside, a :: as => if a = f.esc then scan .escaped as else (scan .inside as).map (a :: ·)
  | .escaped, a :: as =>
    if a = f.close then scan (.opening 0) as else (scan .inside as).map (a :: ·)

@[simp] theorem stuff_nil : f.stuff [] = [] := rfl

/-- Stuffing goes element by element, and writes an escape twice. -/
theorem stuff_cons (a : α) (s : List α) :
    f.stuff (a :: s) = (if a = f.esc then [f.esc, f.esc] else [a]) ++ f.stuff s :=
  List.flatMap_cons

/-- The rest of an opening leads into the frame. -/
theorem scan_opening {n : Nat} (hn : n < f.opening.length) (rest : List α) :
    f.scan (.opening n) (f.opening.drop n ++ rest) = f.scan .inside rest := by
  -- induction on what is left of the opening
  induction hk : f.opening.length - n generalizing n with
  | zero => omega
  | succ k ih =>
    rw [List.drop_eq_getElem_cons hn, List.cons_append, scan, if_pos (List.getElem?_eq_getElem hn)]
    by_cases hlast : n + 1 = f.opening.length
    · rw [if_pos hlast, hlast, List.drop_length, List.nil_append]
    · rw [if_neg hlast]
      exact ih (by omega) (by omega)

/-- Stuffed contents are read back, and the scanner stays in the frame. -/
theorem scan_stuff (s rest : List α) :
    f.scan .inside (f.stuff s ++ rest) = (f.scan .inside rest).map (s ++ ·) := by
  induction s with
  | nil => simp
  | cons a s ih =>
    rw [stuff_cons, List.append_assoc]
    by_cases ha : a = f.esc
    · -- the first of the two escapes, the second does not close the frame
      subst ha
      rw [if_pos rfl]
      show f.scan .inside (f.esc :: f.esc :: (f.stuff s ++ rest)) = _
      rw [scan, if_pos rfl, scan, if_neg (Ne.symm f.close_ne_esc), ih, Option.map_map]
      rfl
    · rw [if_neg ha]
      show f.scan .inside (a :: (f.stuff s ++ rest)) = _
      rw [scan, if_neg ha, ih, Option.map_map]
      rfl

/-- A frame is read back, and the scanner is between frames again. -/
theorem scan_wrap (s rest : List α) :
    f.scan (.opening 0) (f.wrap s ++ rest) = (f.scan (.opening 0) rest).map (s ++ ·) := by
  have hopening := f.scan_opening (List.length_pos_iff.mpr f.opening_ne_nil)
    (f.stuff s ++ (f.esc :: f.close :: rest))
  rw [List.drop_zero] at hopening
  have hclosing : f.scan .inside (f.esc :: f.close :: rest) = f.scan (.opening 0) rest := by
    rw [scan, if_pos rfl, scan, if_pos rfl]
  rw [wrap, List.append_assoc, List.append_assoc]
  show f.scan (.opening 0) (f.opening ++ (f.stuff s ++ (f.esc :: f.close :: rest))) = _
  rw [hopening, scan_stuff, hclosing]

/-- A sequence of frames is read back, with every frame closed and nothing left over. -/
theorem scan_flatMap_wrap (ss : List (List α)) :
    f.scan (.opening 0) (ss.flatMap f.wrap) = some ss.flatten := by
  induction ss with
  | nil => rfl
  | cons s ss ih => rw [List.flatMap_cons, scan_wrap, ih, List.flatten_cons, Option.map_some]

end Framing
