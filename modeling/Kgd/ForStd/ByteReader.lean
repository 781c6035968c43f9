import Kgd.ForStd.MsgpackBytes

/-!
# Readers of bytes

A reader takes bytes off the front of a buffer and returns a value, or fails. Two things are
said of readers: which value they read from which bytes, and what they leave of a buffer.

## Key results

- `ByteReader.Reads.bind`: one reader after another reads the concatenation
- `ByteReader.Extends.bind`: what follows a value does not change it
- `ByteReader.leftover_bind`: what readers leave, whatever they have read
- `Msgpack.leftover_counted`: reading the elements that an array or a map announces is skipping
  them in the format
-/

/-- Reading from a buffer: the value, and what follows it. -/
abbrev ByteReader (ε : Type) := StateT (List UInt8) (Except ε)

namespace ByteReader

variable {ε α β : Type} {eof : ε}

theorem bind_apply (r : ByteReader ε α) (f : α → ByteReader ε β) (buf : List UInt8) :
    (r >>= f) buf = Except.bind (r buf) fun p => f p.1 p.2 := rfl

/-! ## Fields and slices -/

/-- The reader reads a big-endian field of this width. -/
def IsField (eof : ε) (r : ByteReader ε Nat) (width : Nat) : Prop :=
  ∀ buf, r buf = if width ≤ buf.length then
    .ok (Msgpack.bigEndian (buf.take width), buf.drop width) else .error eof

/-- The reader reads as many bytes as it is asked for. -/
def IsSlice (eof : ε) (r : Nat → ByteReader ε (List UInt8)) : Prop :=
  ∀ len buf, r len buf = if buf.length < len then .error eof
    else .ok (buf.take len, buf.drop len)

/-! ## Values -/

/-- The reader reads the value from these bytes, whatever follows them. -/
def Reads (r : ByteReader ε α) (a : α) (bytes : List UInt8) : Prop :=
  ∀ rest, r (bytes ++ rest) = .ok (a, rest)

/-- Nothing else follows. -/
theorem Reads.apply_self {r : ByteReader ε α} {a : α} {bytes : List UInt8}
    (h : Reads r a bytes) : r bytes = .ok (a, []) := by
  have hread := h []
  rwa [List.append_nil] at hread

/-- At most one value is read from the same bytes. -/
theorem Reads.unique {r : ByteReader ε α} {a b : α} {bytes : List UInt8} (ha : Reads r a bytes)
    (hb : Reads r b bytes) : a = b := by
  have heq := (ha []).symm.trans (hb [])
  exact (Prod.mk.inj (Except.ok.inj heq)).1

theorem Reads.pure (a : α) : Reads (Pure.pure a : ByteReader ε α) a [] := fun _ => rfl

/-- One reader after another reads the concatenation. -/
theorem Reads.bind {r : ByteReader ε α} {f : α → ByteReader ε β} {a : α} {b : β}
    {bytes bytes' : List UInt8} (hr : Reads r a bytes) (hf : Reads (f a) b bytes') :
    Reads (r >>= f) b (bytes ++ bytes') := by
  intro rest
  rw [bind_apply, List.append_assoc, hr]
  exact hf rest

/-- A reader, and then something that reads nothing more. -/
theorem Reads.bind_pure {r : ByteReader ε α} {a : α} {bytes : List UInt8} (hr : Reads r a bytes)
    (f : α → β) : Reads (r >>= fun a => Pure.pure (f a)) (f a) bytes := by
  have hbind := hr.bind (f := fun a => (Pure.pure (f a) : ByteReader ε β)) (Reads.pure (f a))
  rwa [List.append_nil] at hbind

/-- A field that was written is read, up to its width. -/
theorem IsField.reads_mod {r : ByteReader ε Nat} {width : Nat}
    (hr : IsField eof r width) (v : Nat) :
    Reads r (v % 256 ^ width) (Msgpack.beBytes width v) := by
  intro rest
  rw [hr, if_pos (by simp), List.take_left' (Msgpack.length_beBytes width v),
    List.drop_left' (Msgpack.length_beBytes width v), Msgpack.bigEndian_beBytes]

/-- A field reads a number that fits it from its big-endian bytes. -/
theorem IsField.reads {r : ByteReader ε Nat} {width v : Nat}
    (hr : IsField eof r width) (hv : v < 256 ^ width) :
    Reads r v (Msgpack.beBytes width v) := by
  have hmod := hr.reads_mod v
  rwa [Nat.mod_eq_of_lt hv] at hmod

/-- A slice reads the bytes whose number it is given. -/
theorem IsSlice.reads {r : Nat → ByteReader ε (List UInt8)}
    (hr : IsSlice eof r) (bytes : List UInt8) : Reads (r bytes.length) bytes bytes := by
  intro rest
  rw [hr, if_neg (by simp), List.take_left, List.drop_left]

/-! ## What follows a value -/

/-- What the first reader reads, the second one reads too, whatever follows it. -/
def Extends (r r' : ByteReader ε α) : Prop :=
  ∀ ⦃buf a rest⦄, r buf = .ok (a, rest) → ∀ more, r' (buf ++ more) = .ok (a, rest ++ more)

theorem Extends.pure (a : α) : Extends (Pure.pure a : ByteReader ε α) (Pure.pure a) := by
  intro buf b rest h more
  obtain ⟨rfl, rfl⟩ := Prod.mk.inj (Except.ok.inj h)
  rfl

theorem Extends.throw (e : ε) (r' : ByteReader ε α) :
    Extends (throwThe ε e : ByteReader ε α) r' := fun _ _ _ h => nomatch h

/-- A sequence is extended part by part. -/
theorem Extends.bind {r r' : ByteReader ε α} {f f' : α → ByteReader ε β} (hr : Extends r r')
    (hf : ∀ a, Extends (f a) (f' a)) : Extends (r >>= f) (r' >>= f') := by
  intro buf b rest h more
  rw [bind_apply] at h ⊢
  cases hread : r buf with
  | error e =>
    rw [hread] at h
    exact nomatch h
  | ok p =>
    rw [hread] at h
    rw [hr hread more]
    exact hf p.1 h more

/-- A field looks at its own bytes only. -/
theorem IsField.extends {r : ByteReader ε Nat} {width : Nat} (hr : IsField eof r width) :
    Extends r r := by
  intro buf a rest h more
  rw [hr] at h ⊢
  split at h
  · rename_i hwidth
    obtain ⟨rfl, rfl⟩ := Prod.mk.inj (Except.ok.inj h)
    rw [if_pos (by rw [List.length_append]; omega), List.take_append_of_le_length hwidth,
      List.drop_append_of_le_length hwidth]
  · exact nomatch h

theorem IsSlice.extends {r : Nat → ByteReader ε (List UInt8)} (hr : IsSlice eof r) (len : Nat) :
    Extends (r len) (r len) := by
  intro buf a rest h more
  rw [hr] at h ⊢
  split at h
  · exact nomatch h
  · rename_i hlen
    obtain ⟨rfl, rfl⟩ := Prod.mk.inj (Except.ok.inj h)
    rw [if_neg (by rw [List.length_append]; omega), List.take_append_of_le_length (by omega),
      List.drop_append_of_le_length (by omega)]

/-! ## What holds of a value -/

/-- Whatever is read satisfies the predicate. -/
def Ensures (r : ByteReader ε α) (P : α → Prop) : Prop :=
  ∀ ⦃buf a rest⦄, r buf = .ok (a, rest) → P a

/-- Every reader ensures what always holds. -/
theorem ensures_true (r : ByteReader ε α) : Ensures r fun _ => True := fun _ _ _ _ => trivial

theorem Ensures.pure {P : α → Prop} {a : α} (h : P a) :
    Ensures (Pure.pure a : ByteReader ε α) P := by
  intro buf b rest hread
  obtain ⟨rfl, rfl⟩ := Prod.mk.inj (Except.ok.inj hread)
  exact h

theorem Ensures.throw (e : ε) (P : α → Prop) : Ensures (throwThe ε e : ByteReader ε α) P :=
  fun _ _ _ h => nomatch h

/-- The rule of sequences: the second reader may rely on what the first one ensures. -/
theorem Ensures.bind {P : α → Prop} {Q : β → Prop} {r : ByteReader ε α}
    {f : α → ByteReader ε β} (hr : Ensures r P) (hf : ∀ a, P a → Ensures (f a) Q) :
    Ensures (r >>= f) Q := by
  intro buf b rest h
  rw [bind_apply] at h
  cases hread : r buf with
  | error e =>
    rw [hread] at h
    exact nomatch h
  | ok p =>
    rw [hread] at h
    exact hf p.1 (hr hread) h

/-! ## What is left -/

/-- What follows the value that was read. -/
def leftover (result : Except ε (α × List UInt8)) : Option (List UInt8) :=
  result.toOption.map Prod.snd

@[simp] theorem leftover_pure (a : α) (buf : List UInt8) :
    leftover ((Pure.pure a : ByteReader ε α) buf) = some buf := rfl

/-- A sequence fails where its first reader does. -/
theorem leftover_bind_of_none {r : ByteReader ε α} {f : α → ByteReader ε β} {buf : List UInt8}
    (h : leftover (r buf) = none) : leftover ((r >>= f) buf) = none := by
  rw [bind_apply]
  cases hr : r buf with
  | error e => rfl
  | ok p =>
    rw [hr] at h
    exact nomatch h

/-- A reader, and then others that leave the same whatever the first one has read. -/
theorem leftover_bind {r : ByteReader ε α} {f : α → ByteReader ε β} {buf rest : List UInt8}
    {after : Option (List UInt8)} (h : leftover (r buf) = some rest)
    (hf : ∀ a, leftover (f a rest) = after) : leftover ((r >>= f) buf) = after := by
  rw [bind_apply]
  cases hr : r buf with
  | error e =>
    rw [hr] at h
    exact nomatch h
  | ok p =>
    rw [hr] at h
    obtain rfl := Option.some.inj h
    exact hf p.1

/-- Behind a field the reader goes on with its number, if its bytes are there. -/
theorem leftover_field {r : ByteReader ε Nat} {width : Nat}
    (hr : IsField eof r width) (f : Nat → ByteReader ε β) (buf : List UInt8) :
    leftover ((r >>= f) buf) =
      if width ≤ buf.length then
        leftover (f (Msgpack.bigEndian (buf.take width)) (buf.drop width))
      else none := by
  rw [bind_apply, hr buf]
  split <;> rfl

/-- Behind a slice is what follows its bytes, if they are there. -/
theorem leftover_slice {r : Nat → ByteReader ε (List UInt8)}
    (hr : IsSlice eof r) (len : Nat) (f : List UInt8 → β) (buf : List UInt8) :
    leftover ((r len >>= fun b => (Pure.pure (f b) : ByteReader ε β)) buf) =
      if len ≤ buf.length then some (buf.drop len) else none := by
  rw [bind_apply, hr len buf]
  by_cases hlen : len ≤ buf.length
  · rw [if_neg (by omega), if_pos hlen]
    rfl
  · rw [if_pos (by omega), if_neg hlen]
    rfl

end ByteReader

/-! ## Reading the msgpack format -/

namespace Msgpack

open ByteReader

variable {ε β : Type} {eof : ε} {known : UInt8 → Bool} {code : UInt8} {width : Nat}
  {r : ByteReader ε Nat} {slice : Nat → ByteReader ε (List UInt8)}

/-- Nothing is read after a code that is all of its item. -/
theorem leftover_code (hcode : known code = true) (hs : shape code = .fixed 0 0) (v : β)
    (rest : List UInt8) :
    leftover ((pure v : ByteReader ε β) rest) =
      (format.restrict known).skip 1 (code :: rest) := by
  rw [leftover_pure, skip_code hcode hs, PrefixNotation.skip_zero]

/-- Reading a field is reading the bytes of an item of that length. -/
theorem leftover_int (hr : IsField eof r width) (hcode : known code = true)
    (hs : shape code = .fixed width 0) (f : Nat → β) (rest : List UInt8) :
    leftover ((r >>= fun v => (pure (f v) : ByteReader ε β)) rest) =
      (format.restrict known).skip 1 (code :: rest) := by
  rw [leftover_field hr, skip_fixed hcode hs]
  split
  · rw [leftover_pure, PrefixNotation.skip_zero]
  · rfl

/-- A short string is its code and so many bytes. -/
theorem leftover_fixed {len : Nat} (hslice : IsSlice eof slice) (hcode : known code = true)
    (hs : shape code = .fixed len 0) (f : List UInt8 → β) (rest : List UInt8) :
    leftover ((slice len >>= fun b => (pure (f b) : ByteReader ε β)) rest) =
      (format.restrict known).skip 1 (code :: rest) := by
  rw [skip_fixed hcode hs, leftover_slice hslice]
  split
  · rw [PrefixNotation.skip_zero]
  · rfl

/-- A length and as many bytes are left as the format skips them. -/
theorem leftover_sized (hr : IsField eof r width) (hslice : IsSlice eof slice)
    (hcode : known code = true) (hs : shape code = .sized width 0) (f : List UInt8 → β)
    (rest : List UInt8) :
    leftover ((r >>= fun len => slice len >>= fun b => (pure (f b) : ByteReader ε β)) rest) =
      (format.restrict known).skip 1 (code :: rest) := by
  rw [leftover_field hr, skip_sized hcode hs]
  split
  · rw [leftover_slice hslice]
  · rfl

/-- Readers of values, one after the other, on a short enough buffer. -/
theorem leftover_bind_skip {f : PrefixNotation UInt8} {α : Type} {r : ByteReader ε α}
    {g : α → ByteReader ε β} {j k n : Nat}
    (hr : ∀ buf, buf.length ≤ n → leftover (r buf) = f.skip j buf)
    (hg : ∀ a buf, buf.length ≤ n → leftover (g a buf) = f.skip k buf) {buf : List UInt8}
    (hbuf : buf.length ≤ n) : leftover ((r >>= g) buf) = f.skip (j + k) buf := by
  rw [PrefixNotation.skip_add, ← hr buf hbuf]
  cases hread : leftover (r buf) with
  | none =>
    rw [leftover_bind_of_none hread]
    rfl
  | some rest =>
    -- the second reader starts on what the first left, which is no longer
    have hrest : rest.length ≤ n := by
      rw [hr buf hbuf] at hread
      have hsuffix := (f.skip_suffix hread).length_le
      omega
    exact leftover_bind hread fun a => hg a rest hrest

/-- A loop over a body that consumes `per` values. -/
theorem leftover_loop {f : PrefixNotation UInt8} {body : ByteReader ε Unit}
    {loop : Nat → ByteReader ε Unit} (hzero : loop 0 = pure ())
    (hsucc : ∀ count, loop (count + 1) = body >>= fun _ => loop count) {per n : Nat}
    (h : ∀ buf, buf.length ≤ n → leftover (body buf) = f.skip per buf) (count : Nat)
    {buf : List UInt8} (hbuf : buf.length ≤ n) :
    leftover (loop count buf) = f.skip (per * count) buf := by
  induction count generalizing buf with
  | zero =>
    rw [hzero, Nat.mul_zero, PrefixNotation.skip_zero]
    rfl
  | succ count ih =>
    rw [hsucc, Nat.mul_succ, Nat.add_comm]
    exact leftover_bind_skip h (fun _ _ hle => ih hle) hbuf

/-- The loop over the elements that a field announces. -/
theorem leftover_counted {per n : Nat} {loop : Nat → ByteReader ε β} (hr : IsField eof r width)
    (hcode : known code = true) (hs : shape code = .counted width per)
    (hloop : ∀ count buf, buf.length ≤ n →
      leftover (loop count buf) = (format.restrict known).skip (per * count) buf)
    {rest : List UInt8} (hrest : rest.length ≤ n) :
    leftover ((r >>= loop) rest) = (format.restrict known).skip 1 (code :: rest) := by
  rw [leftover_field hr, skip_counted hcode hs]
  split
  · exact hloop _ _ (by rw [List.length_drop]; omega)
  · rfl

end Msgpack
