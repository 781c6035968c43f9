import Mathlib.Data.List.TakeWhile

/-!
# Words and lines

Text that is taken apart at white space: its words, its lines, and the words of each line. Space
around a text changes the words of none of its lines.

## Key results

- `Words.words_join`: words with a space between them are read as these words
- `Words.lineWords_trim`: trimming a text only drops lines without words
- `Words.filterMap_trim_unlines`: lines that are put together are read one by one
-/

namespace Words

variable {α : Type u}

/-- The longest parts without white space, as `strings.Fields` has them. -/
def words (space : α → Bool) (l : List α) : List (List α) :=
  (l.splitOnP space).filter fun w => !w.isEmpty

/-- The text without the white space around it, as `strings.TrimSpace` has it. -/
def trim (space : α → Bool) (l : List α) : List α :=
  ((l.dropWhile space).reverse.dropWhile space).reverse

section
variable {space : α → Bool} {c : α}

@[simp] theorem words_nil : words space [] = [] := rfl

/-- White space is between words. -/
theorem words_append_cons (hc : space c = true) (xs ys : List α) :
    words space (xs ++ c :: ys) = words space xs ++ words space ys := by
  rw [words, List.splitOnP_append_cons xs ys hc, List.filter_append]
  rfl

/-- A space at the front separates nothing. -/
theorem words_cons (hc : space c = true) (ys : List α) :
    words space (c :: ys) = words space ys := by
  have h := words_append_cons hc [] ys
  simpa using h

theorem words_concat (hc : space c = true) (xs : List α) :
    words space (xs ++ [c]) = words space xs := by
  rw [words_append_cons hc, words_nil, List.append_nil]

/-- A text without spaces is one word. -/
theorem words_word {w : List α} (hw : ∀ a ∈ w, space a = false) (hne : w ≠ []) :
    words space w = [w] := by
  rw [words, List.splitOnP_eq_singleton hw]
  cases w with
  | nil => exact absurd rfl hne
  | cons a w => rfl

/-- Words with white space between them. -/
theorem words_join (hc : space c = true) {ws : List (List α)}
    (h : ∀ w ∈ ws, w ≠ [] ∧ ∀ a ∈ w, space a = false) : words space ([c].intercalate ws) = ws := by
  induction ws with
  | nil => rfl
  | cons w ws ih =>
    obtain ⟨hne, hw⟩ := h w List.mem_cons_self
    have hrest := ih fun w' hw' => h w' (List.mem_cons_of_mem w hw')
    -- the last word has no separator behind it
    by_cases hnil : ws = []
    · rw [hnil, List.intercalate_singleton]
      exact words_word hw hne
    · rw [List.intercalate_cons_of_ne_nil hnil, List.append_assoc, List.singleton_append,
        words_append_cons hc, words_word hw hne, hrest]
      rfl

/-- What is trimmed is white space before and after the text. -/
theorem trim_decompose (space : α → Bool) (l : List α) :
    ∃ before after, l = before ++ trim space l ++ after ∧ (∀ a ∈ before, space a = true) ∧
      ∀ a ∈ after, space a = true := by
  refine ⟨l.takeWhile space, ((l.dropWhile space).reverse.takeWhile space).reverse, ?_, ?_, ?_⟩
  -- the end is trimmed as the beginning of the reversed list
  · have hsplit : (l.dropWhile space).reverse.takeWhile space ++
        (l.dropWhile space).reverse.dropWhile space = (l.dropWhile space).reverse :=
      List.takeWhile_append_dropWhile
    rw [trim, List.append_assoc, ← List.reverse_append, hsplit, List.reverse_reverse,
      List.takeWhile_append_dropWhile]
  · intro a ha
    exact List.mem_takeWhile_imp ha
  · intro a ha
    exact List.mem_takeWhile_imp (List.mem_reverse.mp ha)

end

/-! ## Lines -/

section
variable [DecidableEq α] {space : α → Bool} {newline c : α}

/-- The words of each line that has any. -/
def lineWords (space : α → Bool) (newline : α) (l : List α) : List (List (List α)) :=
  ((l.splitOn newline).map (words space)).filter fun ws => !ws.isEmpty

/-- A newline is between lines. -/
theorem lineWords_append_cons (xs ys : List α) :
    lineWords space newline (xs ++ newline :: ys) =
      lineWords space newline xs ++ lineWords space newline ys := by
  rw [lineWords, List.splitOn_append_cons_self, List.map_append, List.filter_append]
  rfl

/-- A single line has its words, if it has any. -/
theorem lineWords_line {l : List α} (hl : newline ∉ l) :
    lineWords space newline l = [words space l].filter fun ws => !ws.isEmpty := by
  rw [lineWords, List.splitOn_eq_singleton hl]
  rfl

/-- A space in front of the first line is not in a word. -/
theorem lineWords_cons (hnewline : space newline = true) (hc : space c = true) (ys : List α) :
    lineWords space newline (c :: ys) = lineWords space newline ys := by
  by_cases heq : c = newline
  · subst heq
    have h : lineWords space c ([] ++ c :: ys) = lineWords space c [] ++ lineWords space c ys :=
      lineWords_append_cons [] ys
    rw [lineWords_line List.not_mem_nil] at h
    simpa using h
  · by_cases hys : newline ∈ ys
    · -- the white space is in the first line
      obtain ⟨first, rest, rfl, hfirst⟩ := List.eq_append_cons_of_mem hys
      have hcons : newline ∉ c :: first := by simp [Ne.symm heq, hfirst]
      rw [← List.cons_append, lineWords_append_cons, lineWords_append_cons, lineWords_line hcons,
        lineWords_line hfirst, words_cons hc]
    · have hcons : newline ∉ c :: ys := by simp [Ne.symm heq, hys]
      rw [lineWords_line hcons, lineWords_line hys, words_cons hc]

theorem lineWords_concat (hnewline : space newline = true) (hc : space c = true) (xs : List α) :
    lineWords space newline (xs ++ [c]) = lineWords space newline xs := by
  induction hn : xs.length using Nat.strongRecOn generalizing xs with
  | ind n ih =>
    -- the first line is not touched
    by_cases hxs : newline ∈ xs
    · obtain ⟨first, rest, rfl, -⟩ := List.eq_append_cons_of_mem hxs
      have hlt : rest.length < n := by
        rw [List.length_append, List.length_cons] at hn
        omega
      rw [List.append_assoc, List.cons_append, lineWords_append_cons, lineWords_append_cons,
        ih rest.length hlt rest rfl]
    · by_cases heq : c = newline
      · subst heq
        rw [lineWords_append_cons, lineWords_line List.not_mem_nil]
        simp
      · have hconcat : newline ∉ xs ++ [c] := by simp [Ne.symm heq, hxs]
        rw [lineWords_line hconcat, lineWords_line hxs, words_concat hc]

/-- Spaces and newlines in front make no difference. -/
theorem lineWords_append_left (hnewline : space newline = true) {before : List α}
    (h : ∀ a ∈ before, space a = true) (text : List α) :
    lineWords space newline (before ++ text) = lineWords space newline text := by
  induction before with
  | nil => rfl
  | cons a before ih =>
    rw [List.cons_append, lineWords_cons hnewline (h a List.mem_cons_self)]
    exact ih fun b hb => h b (List.mem_cons_of_mem a hb)

/-- Spaces and newlines at the end make no difference. -/
theorem lineWords_append_right (hnewline : space newline = true) {after : List α}
    (h : ∀ a ∈ after, space a = true) (text : List α) :
    lineWords space newline (text ++ after) = lineWords space newline text := by
  induction after generalizing text with
  | nil => rw [List.append_nil]
  | cons a after ih =>
    have hrest := ih (fun b hb => h b (List.mem_cons_of_mem a hb)) (text ++ [a])
    rw [List.append_assoc, List.singleton_append] at hrest
    rw [hrest, lineWords_concat hnewline (h a List.mem_cons_self)]

/-- Trimming a text only drops lines without words. -/
theorem lineWords_trim (hnewline : space newline = true) (l : List α) :
    lineWords space newline (trim space l) = lineWords space newline l := by
  obtain ⟨before, after, hl, hbefore, hafter⟩ := trim_decompose space l
  have hsame := lineWords_append_right hnewline hafter (before ++ trim space l)
  rw [lineWords_append_left hnewline hbefore, ← hl] at hsame
  exact hsame.symm

/-- Lines, each with a newline at its end. -/
def unlines (newline : α) (lines : List (List α)) : List α :=
  lines.flatMap fun l => l ++ [newline]

/-- The lines that were put together are read, but for those without words. -/
theorem lineWords_unlines {lines : List (List α)} (h : ∀ l ∈ lines, newline ∉ l) :
    lineWords space newline (unlines newline lines) =
      (lines.map (words space)).filter fun ws => !ws.isEmpty := by
  induction lines with
  | nil => rw [unlines, List.flatMap_nil, lineWords_line List.not_mem_nil]
           rfl
  | cons l lines ih =>
    have hl := h l List.mem_cons_self
    have hrest := ih fun l' hl' => h l' (List.mem_cons_of_mem l hl')
    have hcons : (l :: lines).map (words space) = [words space l] ++ lines.map (words space) := rfl
    rw [unlines, List.flatMap_cons, List.append_assoc, List.singleton_append,
      lineWords_append_cons, ← unlines, hrest, lineWords_line hl, hcons, List.filter_append]

section
variable {β : Type v} {g : List (List α) → Option β}

omit [DecidableEq α] in
/-- Lines without words may be left out where nothing is read of them. -/
theorem filterMap_filter_words (hg : g [] = none) (lines : List (List (List α))) :
    (lines.filter fun ws => !ws.isEmpty).filterMap g = lines.filterMap g := by
  have hsame : (fun ws : List (List α) => if (!ws.isEmpty) = true then g ws else none) = g := by
    funext ws
    cases ws with
    | nil => simp [hg]
    | cons w ws => simp
  rw [List.filterMap_filter, hsame]

/-- Trimming a text before it is split into lines changes nothing that is made of the words of each
    line, if nothing is made of a line without words. -/
theorem filterMap_trim_unlines (hnewline : space newline = true) (hg : g [] = none)
    {lines : List (List α)} (h : ∀ l ∈ lines, newline ∉ l) :
    ((trim space (unlines newline lines)).splitOn newline).filterMap
        (fun line => g (words space line)) =
      lines.filterMap fun line => g (words space line) := by
  have hsplit : ∀ l : List α, (l.splitOn newline).filterMap (fun line => g (words space line)) =
      (lineWords space newline l).filterMap g := by
    intro l
    rw [lineWords, filterMap_filter_words hg, List.filterMap_map]
    rfl
  rw [hsplit, lineWords_trim hnewline, lineWords_unlines h, filterMap_filter_words hg,
    List.filterMap_map]
  rfl

end

end

end Words
