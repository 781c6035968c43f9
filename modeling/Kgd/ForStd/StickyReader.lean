import Mathlib.Data.List.Basic

/-!
# Readers with an error that stays

A reader of a library that flags an error once and for all: what is read after it has a made-up
value, and a program that does not look at the flag goes on with such values. What a program
reads if there is no error in the end (`StickyReader.parse`) is a parser of its own, and is
composed like one; only what the program returns in spite of an error needs its run.

## Key results

- `StickyReader.parse_bind`: a sequence of reads is a sequence of parsers
- `StickyReader.parse_repeatOk_succ`: so is a loop that ends at an error
- `StickyReader.Ensures.bind`: what holds of the value with or without an error
-/

universe u

/-- A program that reads from an input, which is gone after an error. -/
structure StickyReader (ι α : Type u) where
  run : Option ι → α × Option ι
  run_none : (run none).2 = none

namespace StickyReader

variable {ι α β : Type u}

/-- What is read if there is no error. -/
def parse (p : StickyReader ι α) : StateT ι (Except Unit) α := fun input =>
  match (p.run (some input)).2 with
  | some rest => .ok ((p.run (some input)).1, rest)
  | none => .error ()

/-- Where the parser succeeds, the reader has its value and goes on behind it. -/
theorem run_of_parse {p : StickyReader ι α} {input rest : ι} {a : α}
    (h : p.parse input = .ok (a, rest)) : p.run (some input) = (a, some rest) := by
  rw [parse] at h
  split at h
  · rename_i rest' hrest
    obtain ⟨rfl, rfl⟩ := Prod.mk.inj (Except.ok.inj h)
    exact Prod.ext rfl hrest
  · exact nomatch h

/-- Where the parser fails, the reader is in error. -/
theorem run_of_parse_error {p : StickyReader ι α} {input : ι} {e : Unit}
    (h : p.parse input = .error e) : (p.run (some input)).2 = none := by
  rw [parse] at h
  split at h
  · exact nomatch h
  · assumption

/-! ## Programs -/

/-- A parser; this is its value if there is an error. -/
def ofParse (parser : StateT ι (Except Unit) α) (zero : α) : StickyReader ι α where
  run
    | none => (zero, none)
    | some input =>
      match parser input with
      | .ok (a, rest) => (a, some rest)
      | .error _ => (zero, none)
  run_none := rfl

/-- The parser of a reader that was made of one. -/
@[simp] theorem parse_ofParse (parser : StateT ι (Except Unit) α) (zero : α) :
    (ofParse parser zero).parse = parser := by
  funext input
  simp only [parse, ofParse]
  cases parser input with
  | error e => rfl
  | ok r => rfl

protected def pure (a : α) : StickyReader ι α := ⟨fun s => (a, s), rfl⟩

/-- One program after the other. -/
protected def bind (p : StickyReader ι α) (f : α → StickyReader ι β) : StickyReader ι β where
  run s := (f (p.run s).1).run (p.run s).2
  run_none := by
    rw [p.run_none]
    exact (f _).run_none

@[simp] theorem parse_pure (a : α) : (StickyReader.pure a : StickyReader ι α).parse = pure a := rfl

/-- A sequence of reads is a sequence of parsers. -/
theorem parse_bind (p : StickyReader ι α) (f : α → StickyReader ι β) :
    (p.bind f).parse = p.parse >>= fun a => (f a).parse := by
  funext input
  show _ = Except.bind (p.parse input) fun r => (f r.1).parse r.2
  cases h : p.parse input with
  | error e =>
    -- the second reader starts without input, and so ends without any
    have hfailed : ((p.bind f).run (some input)).2 = none := by
      show ((f (p.run (some input)).1).run (p.run (some input)).2).2 = none
      rw [run_of_parse_error h]
      exact (f _).run_none
    rw [parse, hfailed]
    rfl
  | ok r =>
    simp only [parse, StickyReader.bind, run_of_parse h]
    rfl

instance : Monad (StickyReader ι) where
  pure := StickyReader.pure
  bind := StickyReader.bind

@[simp] theorem parse_return (a : α) : (Pure.pure a : StickyReader ι α).parse = Pure.pure a := rfl

/-- The parser of a sequence is the sequence of the parsers. -/
@[simp] theorem parse_do (p : StickyReader ι α) (f : α → StickyReader ι β) :
    (p >>= f).parse = p.parse >>= fun a => (f a).parse := parse_bind p f

/-- A program goes on with what has been read. -/
theorem run_bind_of_parse {p : StickyReader ι α} {input rest : ι} {a : α}
    (h : p.parse input = .ok (a, rest)) (f : α → StickyReader ι β) :
    (p >>= f).run (some input) = (f a).run (some rest) := by
  show (f (p.run (some input)).1).run (p.run (some input)).2 = _
  rw [run_of_parse h]

/-- `n` times, as long as there is no error. -/
def repeatOk (body : α → StickyReader ι α) : Nat → α → StickyReader ι α
  | 0, a => .pure a
  | n + 1, a =>
    { run := fun
        | none => (a, none)
        | some input => ((body a).bind (repeatOk body n)).run (some input)
      run_none := rfl }

@[simp] theorem parse_repeatOk_zero (body : α → StickyReader ι α) (a : α) :
    (repeatOk body 0 a).parse = pure a := rfl

/-- A repetition reads one body and repeats the rest. -/
theorem parse_repeatOk_succ (body : α → StickyReader ι α) (n : Nat) (a : α) :
    (repeatOk body (n + 1) a).parse = (body a).parse >>= fun b => (repeatOk body n b).parse := by
  rw [← parse_bind]
  rfl

/-! ## With or without an error -/

/-- What holds of the value that is returned, whatever has been read. -/
def Ensures (p : StickyReader ι α) (P : α → Prop) : Prop := ∀ s, P (p.run s).1

theorem Ensures.pure {P : α → Prop} {a : α} (h : P a) :
    Ensures (Pure.pure a : StickyReader ι α) P := fun _ => h

/-- The rule of sequences: the second reader may rely on what the first one ensures. -/
theorem Ensures.bind {P : α → Prop} {Q : β → Prop} {p : StickyReader ι α}
    {f : α → StickyReader ι β} (hp : Ensures p P) (hf : ∀ a, P a → Ensures (f a) Q) :
    Ensures (p >>= f) Q := fun s => hf _ (hp s) _

theorem ensures_true (p : StickyReader ι α) : Ensures p fun _ => True := fun _ => trivial

/-- An invariant of the loop. -/
theorem Ensures.repeatOk {P : α → Prop} {body : α → StickyReader ι α}
    (hbody : ∀ a, P a → Ensures (body a) P) (n : Nat) {a : α} (h : P a) :
    Ensures (repeatOk body n a) P := by
  induction n generalizing a with
  | zero => exact Ensures.pure h
  | succ n ih =>
    intro s
    cases s with
    | none => exact h
    | some input => exact (hbody a h).bind (fun _ => ih) (some input)

end StickyReader
