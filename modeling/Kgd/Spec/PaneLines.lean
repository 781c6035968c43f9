import Kgd.Daemon.Panes
import Kgd.ForStd.KeyValue

/-!
# The panes of tmux's output

A line is of a pane if its first five or six words are the pane's ID, its geometry in decimal and
whether its window is active. `QueryPanes` reads the panes whose lines were printed, in order, and
no line that is not a pane's changes that.

## Key results

- `atoi_eq_some_iff`, `parsePaneLine_eq_ok_iff`: what is accepted
- `queryPanes_eq_iff`: what is read of any output
- `queryPanes_listPanes`: what tmux prints for a layout is read as the layout
-/

namespace Kgd

open Words

/-! ## Numbers -/

/-- The text is the number in decimal, with or without a sign. -/
def Numeral (n : Int64) (s : List Char) : Prop :=
  ∃ digits : List Char, digits ≠ [] ∧ (∀ c ∈ digits, c.isDigit = true) ∧
    ((s = digits ∨ s = '+' :: digits) ∧ n.toInt = Nat.ofDigitChars 10 digits 0 ∨
      s = '-' :: digits ∧ n.toInt = -(Nat.ofDigitChars 10 digits 0))

/-- A decimal number without a sign is a non-empty list of digits. -/
theorem decimal?_eq_some_iff {digits : List Char} {n : Nat} :
    decimal? digits = some n ↔
      digits ≠ [] ∧ (∀ c ∈ digits, c.isDigit = true) ∧ Nat.ofDigitChars 10 digits 0 = n := by
  rw [decimal?, ← and_assoc]
  split
  · rename_i h
    rw [List.all_eq_true] at h
    rw [Option.some.injEq]
    exact (and_iff_right h).symm
  · rename_i h
    rw [List.all_eq_true] at h
    exact iff_of_false (Option.some_ne_none n).symm fun hand => h hand.1

/-- An integer is in range exactly if it is one of 64 bits. -/
theorem inRange?_eq_some_iff {n : Int} {m : Int64} : inRange? n = some m ↔ m.toInt = n := by
  rw [inRange?]
  split
  · rename_i h
    rw [Option.some.injEq]
    constructor
    · rintro rfl
      exact Int64.toInt_ofInt_of_le h.1 h.2
    · rintro rfl
      exact Int64.ofInt_toInt m
  · rename_i h
    apply iff_of_false
    · exact (Option.some_ne_none m).symm
    · rintro rfl
      -- a 64-bit integer is in the range
      exact h ⟨m.le_toInt, m.toInt_lt⟩

/-- The number of the digits, with a sign, if it is in range. -/
theorem bind_inRange?_eq_some_iff {digits : List Char} {f : Nat → Int} {m : Int64} :
    ((decimal? digits).bind fun n => inRange? (f n)) = some m ↔
      digits ≠ [] ∧ (∀ c ∈ digits, c.isDigit = true) ∧
        m.toInt = f (Nat.ofDigitChars 10 digits 0) := by
  rw [Option.bind_eq_some_iff]
  constructor
  · rintro ⟨n, hn, hm⟩
    obtain ⟨hne, hdigits, rfl⟩ := decimal?_eq_some_iff.mp hn
    exact ⟨hne, hdigits, inRange?_eq_some_iff.mp hm⟩
  · rintro ⟨hne, hdigits, hm⟩
    exact ⟨_, decimal?_eq_some_iff.mpr ⟨hne, hdigits, rfl⟩, inRange?_eq_some_iff.mpr hm⟩

theorem isDigit_minus : '-'.isDigit = false := by decide

theorem isDigit_plus : '+'.isDigit = false := by decide

/-- `Atoi` accepts the decimals of the numbers of 64 bits. -/
theorem atoi_eq_some_iff {s : List Char} {n : Int64} : atoi s = some n ↔ Numeral n s := by
  unfold atoi
  split
  -- a minus sign, a plus sign, no sign
  · rename_i digits
    rw [bind_inRange?_eq_some_iff]
    constructor
    · rintro ⟨hne, hdigits, hn⟩
      exact ⟨digits, hne, hdigits, Or.inr ⟨rfl, hn⟩⟩
    · rintro ⟨digits', hne, hdigits, h⟩
      rcases h with ⟨rfl | hs, -⟩ | ⟨hs, hn⟩
      · have hminus := hdigits '-' List.mem_cons_self
        rw [isDigit_minus] at hminus
        cases hminus
      · cases hs
      · cases hs
        exact ⟨hne, hdigits, hn⟩
  · rename_i digits
    rw [bind_inRange?_eq_some_iff]
    constructor
    · rintro ⟨hne, hdigits, hn⟩
      exact ⟨digits, hne, hdigits, Or.inl ⟨Or.inr rfl, hn⟩⟩
    · rintro ⟨digits', hne, hdigits, h⟩
      rcases h with ⟨rfl | hs, hn⟩ | ⟨hs, hn⟩
      · have hplus := hdigits '+' List.mem_cons_self
        rw [isDigit_plus] at hplus
        cases hplus
      · cases hs
        exact ⟨hne, hdigits, hn⟩
      · cases hs
  · rename_i hminus hplus
    rw [bind_inRange?_eq_some_iff]
    constructor
    · rintro ⟨hne, hdigits, hn⟩
      exact ⟨s, hne, hdigits, Or.inl ⟨Or.inl rfl, hn⟩⟩
    · rintro ⟨digits', hne, hdigits, h⟩
      rcases h with ⟨rfl | hs, hn⟩ | ⟨hs, hn⟩
      · exact ⟨hne, hdigits, hn⟩
      · exact absurd hs (hplus digits')
      · exact absurd hs (hminus digits')

/-! ## Lines -/

/-- The line has the pane's ID, its geometry and, if tmux prints that, whether its window is
    active. -/
def IsPaneLine (p : PaneGeometry) (line : List Char) : Prop :=
  ∃ top left width height rest,
    words isSpace line = p.id.toList :: top :: left :: width :: height :: rest ∧
      Numeral p.top top ∧ Numeral p.left left ∧ Numeral p.width width ∧
      Numeral p.height height ∧ (p.active = true ↔ ∀ field, rest.head? = some field → field = ['1'])

/-- A number of a pane is accepted exactly if it is a numeral. -/
theorem paneNumber_eq_ok_iff {field : String} {s : List Char} {n : Int64} :
    paneNumber field s = .ok n ↔ Numeral n s := by
  rw [paneNumber, ← atoi_eq_some_iff]
  cases hatoi : atoi s with
  | none => exact iff_of_false (by simp) (Option.some_ne_none n).symm
  | some m => simp

/-- A pane is active if the sixth field is missing or `1`. -/
theorem paneActive_iff (rest : List (List Char)) :
    paneActive rest = true ↔ ∀ field, rest.head? = some field → field = ['1'] := by
  cases rest with
  | nil => simp [paneActive]
  | cons field rest => simp [paneActive]

/-- A sequence that succeeds does so in both parts. -/
theorem exists_of_bind_ok {ε α β : Type} {x : Except ε α} {f : α → Except ε β} {b : β}
    (h : x >>= f = .ok b) : ∃ a, x = .ok a ∧ f a = .ok b := by
  cases x with
  | error e => cases h
  | ok a => exact ⟨a, rfl, h⟩

/-- `parsePaneLine` accepts the lines of panes. -/
theorem parsePaneLine_eq_ok_iff {p : PaneGeometry} {line : List Char} :
    parsePaneLine line = .ok p ↔ IsPaneLine p line := by
  unfold parsePaneLine paneOfFields
  constructor
  · intro h
    split at h
    · rename_i id top left width height rest hwords
      obtain ⟨t, htop, h⟩ := exists_of_bind_ok h
      obtain ⟨l, hleft, h⟩ := exists_of_bind_ok h
      obtain ⟨w, hwidth, h⟩ := exists_of_bind_ok h
      obtain ⟨g, hheight, h⟩ := exists_of_bind_ok h
      obtain rfl := Except.ok.inj h
      refine ⟨top, left, width, height, rest, ?_, paneNumber_eq_ok_iff.mp htop,
        paneNumber_eq_ok_iff.mp hleft, paneNumber_eq_ok_iff.mp hwidth,
        paneNumber_eq_ok_iff.mp hheight, paneActive_iff rest⟩
      rw [String.toList_ofList]
      exact hwords
    · cases h
  · rintro ⟨top, left, width, height, rest, hwords, htop, hleft, hwidth, hheight, hactive⟩
    -- `pane_active` is the sixth word when there is one
    have hsame : paneActive rest = p.active :=
      Bool.eq_iff_iff.mpr ((paneActive_iff rest).trans hactive.symm)
    simp only [hwords]
    rw [paneNumber_eq_ok_iff.mpr htop, paneNumber_eq_ok_iff.mpr hleft,
      paneNumber_eq_ok_iff.mpr hwidth, paneNumber_eq_ok_iff.mpr hheight]
    simp only [bind, Except.bind, pure, Except.pure, hsame, String.ofList_toList]

/-! ## Output -/

/-- The lines that are of panes are of these. -/
inductive Printed : List (List Char) → List PaneGeometry → Prop
  | nil : Printed [] []
  | pane {line lines p panes} (hline : IsPaneLine p line) (hrest : Printed lines panes) :
    Printed (line :: lines) (p :: panes)
  | other {line lines panes} (hline : ∀ p, ¬ IsPaneLine p line) (hrest : Printed lines panes) :
    Printed (line :: lines) panes

/-- What the lines are read as is what was printed on them. -/
theorem printed_iff {lines : List (List Char)} {panes : List PaneGeometry} :
    lines.filterMap (fun line => (parsePaneLine line).toOption) = panes ↔
      Printed lines panes := by
  induction lines generalizing panes with
  | nil =>
    constructor
    · rintro rfl
      exact .nil
    · intro h
      cases h
      rfl
  | cons line lines ih =>
    cases hparse : parsePaneLine line with
    | error e =>
      -- a line that does not parse is skipped, as `queryPanes` does
      have hother : ∀ p, ¬ IsPaneLine p line := by
        intro p hp
        rw [parsePaneLine_eq_ok_iff.mpr hp] at hparse
        cases hparse
      rw [List.filterMap_cons_none (by rw [hparse]; rfl), ih]
      constructor
      · intro h
        exact .other hother h
      · intro h
        cases h with
        | pane hline hrest => exact absurd hline (hother _)
        | other _ hrest => exact hrest
    | ok p =>
      have hpane := parsePaneLine_eq_ok_iff.mp hparse
      rw [List.filterMap_cons_some (by rw [hparse]; rfl)]
      constructor
      · rintro rfl
        exact .pane hpane (ih.mp rfl)
      · intro h
        cases h with
        | pane hline hrest =>
          rw [parsePaneLine_eq_ok_iff.mpr hline] at hparse
          rw [Except.ok.inj hparse, ih.mpr hrest]
        | other hline _ => exact absurd hpane (hline p)

theorem isSpace_newline : isSpace '\n' = true := by decide

/-- `QueryPanes` reads line by line: neither trimming the output nor leaving out empty lines makes
    a difference. -/
theorem queryPanes_unlines {lines : List (List Char)} (h : ∀ l ∈ lines, '\n' ∉ l) :
    queryPanes (unlines '\n' lines) =
      lines.filterMap fun line => (parsePaneLine line).toOption := by
  have hempty : ∀ line : List Char, (if line = [] then none else (parsePaneLine line).toOption) =
      (paneOfFields (words isSpace line)).toOption := by
    intro line
    split
    · rename_i hnil
      rw [hnil]
      rfl
    · rfl
  simp only [queryPanes, hempty]
  -- an empty line has no words, and is no pane
  have hnil : (paneOfFields []).toOption = none := rfl
  exact filterMap_trim_unlines (g := fun ws => (paneOfFields ws).toOption) isSpace_newline hnil h

/-- What `QueryPanes` reads of any output is the panes whose lines were printed. -/
theorem queryPanes_eq_iff {lines : List (List Char)} {panes : List PaneGeometry}
    (h : ∀ l ∈ lines, '\n' ∉ l) :
    queryPanes (unlines '\n' lines) = panes ↔ Printed lines panes := by
  rw [queryPanes_unlines h]
  exact printed_iff

/-- A pane, a message, a line of blanks and a pane with neither its state nor plain numbers. -/
theorem queryPanes_two_panes :
    queryPanes (unlines '\n' ["%0 0 0 80 24 1".toList, "no server running".toList, "  ".toList,
      " %12\t3 -1 040 +7".toList]) =
      [⟨"%0", 0, 0, 80, 24, true⟩, ⟨"%12", 3, -1, 40, 7, true⟩] := by
  have hother : ∀ {line : List Char}, (parsePaneLine line).toOption = none →
      ∀ p, ¬ IsPaneLine p line := by
    intro line hnone p hp
    rw [parsePaneLine_eq_ok_iff.mpr hp] at hnone
    cases hnone
  refine (queryPanes_eq_iff (by decide)).mpr ?_
  exact .pane (parsePaneLine_eq_ok_iff.mp rfl) <| .other (hother rfl) <| .other (hother rfl) <|
    .pane (parsePaneLine_eq_ok_iff.mp rfl) .nil

/-! ## What tmux prints -/

/-- A pane in the format that `QueryPanes` asks for. -/
def paneLine (p : PaneGeometry) : List Char :=
  [' '].intercalate [p.id.toList, p.top.toInt.repr.toList, p.left.toInt.repr.toList,
    p.width.toInt.repr.toList, p.height.toInt.repr.toList, if p.active then ['1'] else ['0']]

def listPanes (layout : List PaneGeometry) : List Char := unlines '\n' (layout.map paneLine)

/-- A pane ID is one word. -/
def PaneID (id : String) : Prop := id.toList ≠ [] ∧ ∀ c ∈ id.toList, isSpace c = false

/-- The decimal form of an integer has digits alone, after a minus sign if it has one. -/
theorem repr_cases (n : Int) : ∃ digits : List Char, digits ≠ [] ∧
    (∀ c ∈ digits, c.isDigit = true) ∧
    (n.repr.toList = digits ∧ n = Nat.ofDigitChars 10 digits 0 ∨
      n.repr.toList = '-' :: digits ∧ n = -(Nat.ofDigitChars 10 digits 0)) := by
  -- the text of a natural number is its digits
  have hdigits : ∀ n : Nat, ∀ c ∈ Nat.toDigits 10 n, c.isDigit = true := fun n c hc =>
    Nat.isDigit_of_mem_toDigits (by decide) (by decide) hc
  cases n with
  | ofNat n =>
    refine ⟨Nat.toDigits 10 n, Nat.toDigits_ne_nil, hdigits n, Or.inl ⟨Nat.toList_repr, ?_⟩⟩
    rw [Nat.ofDigitChars_ten_toDigits]
    rfl
  | negSucc n =>
    refine ⟨Nat.toDigits 10 (n + 1), Nat.toDigits_ne_nil, hdigits _, Or.inr ⟨?_, ?_⟩⟩
    · rw [Int.repr, String.toList_append, Nat.toList_repr]
      rfl
    · rw [Nat.ofDigitChars_ten_toDigits]
      rfl

/-- The decimal form of a number is a numeral of it. -/
theorem numeral_repr (n : Int64) : Numeral n n.toInt.repr.toList := by
  obtain ⟨digits, hne, hdigits, h⟩ := repr_cases n.toInt
  refine ⟨digits, hne, hdigits, ?_⟩
  rcases h with ⟨hs, hn⟩ | ⟨hs, hn⟩
  · exact Or.inl ⟨Or.inl hs, hn⟩
  · exact Or.inr ⟨hs, hn⟩

theorem isSpace_of_isDigit {c : Char} (h : c.isDigit = true) : isSpace c = false := by
  simp only [Char.isDigit, Bool.and_eq_true, decide_eq_true_eq] at h
  have hlower : 48 ≤ c.toNat := UInt32.le_iff_toNat_le.mp h.1
  have hupper : c.toNat ≤ 57 := UInt32.le_iff_toNat_le.mp h.2
  simp only [isSpace, Bool.or_eq_false_iff, Bool.and_eq_false_iff, decide_eq_false_iff_not,
    beq_eq_false_iff_ne]
  omega

/-- A word has no white space in it. -/
theorem isSpace_of_all {w : List Char} (h : w.all (fun c => !isSpace c) = true) :
    ∀ c ∈ w, isSpace c = false := by
  intro c hc
  have hc' := List.all_eq_true.mp h c hc
  rwa [Bool.not_eq_true'] at hc'

/-- A number is one word. -/
theorem word_repr (n : Int) : n.repr.toList ≠ [] ∧ ∀ c ∈ n.repr.toList, isSpace c = false := by
  obtain ⟨digits, hne, hdigits, ⟨hs, -⟩ | ⟨hs, -⟩⟩ := repr_cases n
  · rw [hs]
    exact ⟨hne, fun c hc => isSpace_of_isDigit (hdigits c hc)⟩
  · rw [hs]
    refine ⟨List.cons_ne_nil _ _, fun c hc => ?_⟩
    rcases List.mem_cons.mp hc with rfl | hc
    · decide
    · exact isSpace_of_isDigit (hdigits c hc)

/-- The words of a pane's line are its fields. -/
theorem words_paneLine {p : PaneGeometry} (h : PaneID p.id) :
    words isSpace (paneLine p) = [p.id.toList, p.top.toInt.repr.toList, p.left.toInt.repr.toList,
      p.width.toInt.repr.toList, p.height.toInt.repr.toList,
      if p.active then ['1'] else ['0']] := by
  apply words_join (by decide)
  simp only [List.forall_mem_cons, List.not_mem_nil, false_implies, implies_true, and_true]
  refine ⟨h, word_repr _, word_repr _, word_repr _, word_repr _, ?_⟩
  cases p.active with
  | true => exact ⟨List.cons_ne_nil _ _, isSpace_of_all rfl⟩
  | false => exact ⟨List.cons_ne_nil _ _, isSpace_of_all rfl⟩

/-- The line that tmux prints for a pane is a line of that pane. -/
theorem isPaneLine_paneLine {p : PaneGeometry} (h : PaneID p.id) : IsPaneLine p (paneLine p) := by
  refine ⟨_, _, _, _, _, words_paneLine h, numeral_repr _, numeral_repr _, numeral_repr _,
    numeral_repr _, ?_⟩
  cases p.active with
  | true => simp
  | false => simp

/-- The line of a pane is a single line. -/
theorem newline_not_mem_paneLine {p : PaneGeometry} (h : PaneID p.id) : '\n' ∉ paneLine p := by
  -- a newline is white space, and no word has any
  have hword : ∀ {w : List Char}, (w ≠ [] ∧ ∀ c ∈ w, isSpace c = false) → '\n' ∉ w := by
    intro w hw hmem
    have hspace := hw.2 '\n' hmem
    rw [isSpace_newline] at hspace
    cases hspace
  apply KeyValue.not_mem_intercalate (by decide)
  simp only [List.forall_mem_cons, List.not_mem_nil, false_implies, implies_true, and_true]
  refine ⟨hword h, hword (word_repr _), hword (word_repr _), hword (word_repr _),
    hword (word_repr _), ?_⟩
  cases p.active with
  | true => decide
  | false => decide

/-- What tmux prints for a layout is read as the layout. -/
theorem queryPanes_listPanes {layout : List PaneGeometry} (h : ∀ p ∈ layout, PaneID p.id) :
    queryPanes (listPanes layout) = layout := by
  -- each pane is one line
  have hlines : ∀ l ∈ layout.map paneLine, '\n' ∉ l := by
    intro l hl
    obtain ⟨p, hp, rfl⟩ := List.mem_map.mp hl
    exact newline_not_mem_paneLine (h p hp)
  rw [listPanes, queryPanes_unlines hlines]
  clear hlines
  induction layout with
  | nil => rfl
  | cons p layout ih =>
    have hp := isPaneLine_paneLine (h p List.mem_cons_self)
    rw [List.map_cons, List.filterMap_cons_some (by rw [parsePaneLine_eq_ok_iff.mpr hp]; rfl),
      ih fun q hq => h q (List.mem_cons_of_mem p hq)]

/-- A window split in two panes. -/
theorem queryPanes_listPanes_split :
    queryPanes (listPanes [⟨"%0", 0, 0, 80, 12, true⟩, ⟨"%3", 13, 0, 80, 11, true⟩]) =
      [⟨"%0", 0, 0, 80, 12, true⟩, ⟨"%3", 13, 0, 80, 11, true⟩] :=
  queryPanes_listPanes (by
    simp only [List.forall_mem_cons, List.not_mem_nil, false_implies, implies_true, and_true]
    exact ⟨⟨by decide, isSpace_of_all rfl⟩, ⟨by decide, isSpace_of_all rfl⟩⟩)

end Kgd
