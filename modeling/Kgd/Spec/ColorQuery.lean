import Mathlib.Algebra.Order.Ring.Int
import Kgd.ForStd.List
import Kgd.Spec.ColorGrammar

/-!
# The colors of a reply that arrives in parts

`queryColors` stops to read at the end of the first read with which `rgb:` has come twice, and
parses what it has then. The background color is right if that is all of its digits, or as many
as stand for the same color.

## Key results

- `Tty.readResponse_reply`: what the loop has read when it stops
- `Tty.parseRGBColor_of_prefix`: what a color of which the end is missing is read as
- `Tty.queryColors_iff`: the splits of a reply with which its colors are returned
-/

namespace Kgd

namespace Tty

/-- An answer's color and what ends it. -/
structure Answer where
  text : ColorText
  bel : Bool

/-- BEL, or ST. -/
def Answer.terminator (a : Answer) : Bytes := if a.bel then [0x07] else [0x1b, 0x5c]

/-- What comes before the color in the answer to OSC `num`. -/
def opening (num : Bytes) : Bytes := bytes "\x1b]" ++ num ++ bytes ";rgb:"

/-- The answers to OSC 10 and OSC 11. -/
structure Reply where
  fg : Answer
  bg : Answer

namespace Reply

/-- The reply up to the background color. -/
def beforeBg (r : Reply) : Bytes :=
  opening (bytes "10") ++ (r.fg.text.bytes ++ (r.fg.terminator ++ opening (bytes "11")))

def bytes (r : Reply) : Bytes := r.beforeBg ++ (r.bg.text.bytes ++ r.bg.terminator)

def colors (r : Reply) : TermColors := ⟨r.fg.text.color, r.bg.text.color⟩

end Reply

/-- `tail` is what has come of a reply after the second `rgb:` at the end of the first read at
    which that has come. -/
def FirstTail (r : Reply) (reads : List Bytes) (tail : Bytes) : Prop :=
  ∃ first last rest, reads = first ++ last :: rest ∧
    first.flatten.length < r.beforeBg.length ∧ first.flatten ++ last = r.beforeBg ++ tail

namespace ColorText

/-- The text up to the blue component. -/
def beforeBlue (c : ColorText) : Bytes := c.r.bytes ++ slash :: (c.g.bytes ++ [slash])

/-- Only zeros. -/
def IsZero (c : ColorText) : Prop := c.r.IsZero ∧ c.g.IsZero ∧ c.b.IsZero

/-- `tail` has all digits of the color, or none are missing that matter: all digits are zeros, or
    only digits of the blue component are missing and it is zeros, or repeated to four digits it
    is what has come of it. -/
def SameIn (c : ColorText) (tail : Bytes) : Prop :=
  c.bytes <+: tail ∨ c.IsZero ∨ (c.beforeBlue <+: tail ∧ c.b.IsZero) ∨
    ∃ b : Channel, tail = c.beforeBlue ++ b.bytes ∧ b.fourDigits = c.b.fourDigits

end ColorText

/-! ## What is not in a color -/

/-- A digit is none of the bytes that frame an answer. -/
theorem HexDigit.byte_not_mem (d : HexDigit) : d.byte ∉ [0x07, 0x1b, 0x5c, 0x5d, 0x72] := by
  have hall : ∀ (v : Fin 16) (u : Bool),
      (HexDigit.mk v u).byte ∉ [0x07, 0x1b, 0x5c, 0x5d, 0x72] := by decide
  exact hall d.value d.upper

namespace ColorText
variable {c : ColorText} {b : UInt8}

theorem bytes_eq_beforeBlue (c : ColorText) : c.bytes = c.beforeBlue ++ c.b.bytes := by
  simp [bytes, beforeBlue]

/-- A color has slashes and digits in it. -/
theorem mem_bytes (h : b ∈ c.bytes) : b = slash ∨ ∃ d : HexDigit, d.byte = b := by
  simp only [bytes, Channel.bytes, List.mem_append, List.mem_cons, List.mem_map] at h
  rcases h with ⟨d, -, hd⟩ | rfl | ⟨d, -, hd⟩ | rfl | ⟨d, -, hd⟩
  · exact Or.inr ⟨d, hd⟩
  · exact Or.inl rfl
  · exact Or.inr ⟨d, hd⟩
  · exact Or.inl rfl
  · exact Or.inr ⟨d, hd⟩

/-- No byte of the rest of a reply. -/
theorem not_mem_bytes (h : b ∈ [0x07, 0x1b, 0x5c, 0x5d, 0x72]) : b ∉ c.bytes := by
  intro hb
  rcases mem_bytes hb with rfl | ⟨d, rfl⟩
  · exact absurd h (by decide)
  · exact d.byte_not_mem h

/-- A color has nothing in it that would end it. -/
theorem not_terminator (h : b ∈ c.bytes) : b ∉ terminators := by
  intro hb
  refine not_mem_bytes (c := c) ?_ h
  simp only [terminators, List.mem_cons, List.not_mem_nil, or_false] at hb
  rcases hb with rfl | rfl | rfl <;> decide

end ColorText

/-- What ends an answer does not begin another one. -/
theorem Answer.not_mem_terminator (a : Answer) {b : UInt8} (h : b ∈ [0x5d, 0x72]) :
    b ∉ a.terminator := by
  intro hb
  unfold Answer.terminator at hb
  simp only [List.mem_cons, List.not_mem_nil, or_false] at h
  split at hb <;> rcases h with rfl | rfl <;> exact absurd hb (by decide)

/-! ## The read loop -/

/-- `rgb:`, of which only the first character matters below. -/
theorem rgb_eq : Kgd.bytes "rgb:" = 0x72 :: Kgd.bytes "gb:" := rfl

/-- The loop goes on while `rgb:` has not come twice. -/
theorem readResponse_append {response last : Bytes} {first rest : List Bytes}
    (hfirst : Strings.count (bytes "rgb:") (response ++ first.flatten) < 2)
    (hlast : 2 ≤ Strings.count (bytes "rgb:") (response ++ (first.flatten ++ last))) :
    readResponse response ((first ++ last :: rest).map fun data => ⟨data, false⟩) =
      response ++ (first.flatten ++ last) := by
  induction first generalizing response with
  | nil =>
    rw [List.flatten_nil, List.nil_append] at hlast
    simp only [List.nil_append, List.map_cons, List.flatten_nil, readResponse, if_pos hlast]
    rfl
  | cons data first ih =>
    rw [List.flatten_cons, ← List.append_assoc] at hfirst
    rw [List.flatten_cons, List.append_assoc, ← List.append_assoc] at hlast
    have hle := Strings.count_le_append (bytes "rgb:") (response ++ data) first.flatten
    -- after this read there is still at most one answer begun
    have hfew : ¬ 2 ≤ Strings.count (bytes "rgb:") (response ++ data) := by omega
    simp only [List.cons_append, List.map_cons, readResponse, if_neg hfew]
    rw [List.flatten_cons, List.append_assoc, ← List.append_assoc]
    exact ih hfirst hlast

/-- The opening of an answer has one `rgb:`. -/
theorem count_opening (num : Bytes) (hnum : 0x72 ∉ num) (t : Bytes) :
    Strings.count (bytes "rgb:") (opening num ++ t) = Strings.count (bytes "rgb:") t + 1 := by
  have hsplit : opening num ++ t =
      (bytes "\x1b]" ++ (num ++ bytes ";")) ++ (bytes "rgb:" ++ t) := by
    simp only [opening, List.append_assoc]
    rfl
  have hnot : 0x72 ∉ bytes "\x1b]" ++ (num ++ bytes ";") := by
    simp only [List.mem_append, not_or]
    exact ⟨by decide, hnum, by decide⟩
  rw [hsplit, rgb_eq, Strings.count_append hnot, Strings.count_self_append]

namespace Reply
variable (r : Reply)

/-- Up to the color of the second answer there are two `rgb:`. -/
theorem count_beforeBg (t : Bytes) :
    2 ≤ Strings.count (Kgd.bytes "rgb:") (r.beforeBg ++ t) := by
  have hfg : 0x72 ∉ r.fg.text.bytes ++ r.fg.terminator := by
    rw [List.mem_append, not_or]
    exact ⟨ColorText.not_mem_bytes (by decide), r.fg.not_mem_terminator (by decide)⟩
  rw [beforeBg, List.append_assoc, count_opening _ (by decide), ← List.append_assoc,
    List.append_assoc, rgb_eq, Strings.count_append hfg, ← rgb_eq, count_opening _ (by decide)]
  omega

/-- Before its last character, the part up to the background color has `rgb:` once. -/
theorem count_lt_of_prefix {p : Bytes} (hp : p <+: r.beforeBg)
    (hlt : p.length < r.beforeBg.length) :
    Strings.count (Kgd.bytes "rgb:") p < 2 := by
  have hnot : 0x72 ∉ (r.fg.text.bytes ++ r.fg.terminator) ++ Kgd.bytes "\x1b]11;" := by
    simp only [List.mem_append, not_or]
    exact ⟨⟨ColorText.not_mem_bytes (by decide), r.fg.not_mem_terminator (by decide)⟩, by decide⟩
  -- without its last byte the second opening is not complete
  have hdrop : r.beforeBg = (opening (Kgd.bytes "10") ++
      ((r.fg.text.bytes ++ r.fg.terminator) ++ Kgd.bytes "\x1b]11;" ++ Kgd.bytes "rgb")) ++
        Kgd.bytes ":" := by
    simp only [beforeBg, List.append_assoc]
    rfl
  rw [hdrop] at hp hlt
  obtain ⟨u, hu⟩ : p <+: opening (Kgd.bytes "10") ++
      ((r.fg.text.bytes ++ r.fg.terminator) ++ Kgd.bytes "\x1b]11;" ++ Kgd.bytes "rgb") := by
    apply List.prefix_of_prefix_length_le hp (List.prefix_append _ _)
    rw [List.length_append] at hlt
    exact Nat.le_of_lt_succ hlt
  -- a beginning has no more of them than the whole, which has one
  have hle := Strings.count_le_append (Kgd.bytes "rgb:") p u
  rw [hu, count_opening _ (by decide), rgb_eq, Strings.count_append hnot] at hle
  have hrgb : Strings.count (0x72 :: Kgd.bytes "gb:") (Kgd.bytes "rgb") = 0 := by decide
  rw [rgb_eq]
  omega

/-- The loop ends with the first read at whose end `rgb:` has come twice. -/
theorem readResponse_reply {reads : List Bytes} {tail : Bytes} (hreads : reads.flatten = r.bytes)
    (h : FirstTail r reads tail) :
    readResponse [] (reads.map fun data => ⟨data, false⟩) = r.beforeBg ++ tail := by
  obtain ⟨first, last, rest, rfl, hlt, htail⟩ := h
  have hread : first.flatten <+: r.bytes := by
    rw [← hreads, List.flatten_append]
    exact List.prefix_append _ _
  -- the reads before the last one end before the second answer's digits
  have hprefix : first.flatten <+: r.beforeBg :=
    List.prefix_of_prefix_length_le hread (List.prefix_append _ _) (Nat.le_of_lt hlt)
  rw [readResponse_append, List.nil_append, htail]
  · exact r.count_lt_of_prefix hprefix hlt
  · rw [List.nil_append, htail]
    exact r.count_beforeBg tail

/-- There is such a read, and what it ends with is part of the background answer. -/
theorem exists_firstTail {reads : List Bytes} (hreads : reads.flatten = r.bytes) :
    ∃ tail, FirstTail r reads tail := by
  have hlength : r.beforeBg.length ≤ reads.flatten.length := by
    rw [hreads, bytes, List.length_append]
    omega
  have hpos : 0 < r.beforeBg.length := by
    show 0 < (Kgd.bytes "\x1b]10;rgb:" ++ _).length
    rw [List.length_append]
    exact Nat.lt_of_lt_of_le (by decide) (Nat.le_add_right _ _)
  -- the read that gets to the end of the second `rgb:`
  obtain ⟨first, last, rest, rfl, hlt, hle⟩ := List.exists_first_reaching hpos hlength
  have hprefix : first.flatten ++ last <+: r.bytes := by
    rw [← hreads, List.flatten_append, List.flatten_cons, ← List.append_assoc]
    exact List.prefix_append _ _
  obtain ⟨tail, htail⟩ := List.prefix_of_prefix_length_le (List.prefix_append _ _) hprefix hle
  exact ⟨tail, first, last, rest, rfl, hlt, htail.symm⟩

end Reply

/-! ## The parser of the response -/

/-- What a color is parsed from: the bytes before the first that ends it. -/
def beforeTerminator (rest : Bytes) : Bytes := rest.takeWhile fun b => !decide (b ∈ terminators)

/-- The color is parsed from what follows the first opening. -/
theorem parseOSCColor_of_index {num before rest : Bytes}
    (h : Strings.index (bytes "]" ++ num ++ bytes ";rgb:")
      (before ++ (bytes "]" ++ num ++ bytes ";rgb:" ++ rest)) = some before.length) :
    parseOSCColor (before ++ (bytes "]" ++ num ++ bytes ";rgb:" ++ rest)) num =
      parseRGBColor (beforeTerminator rest) := by
  simp only [parseOSCColor, h]
  rw [← List.append_assoc, ← List.length_append, List.drop_left,
    ← List.findIdx_eq_getD_findIdx?, beforeTerminator, List.takeWhile_eq_take_findIdx_not]
  simp only [Bool.not_not]

/-- A color that has begun goes on behind what there is of it. -/
theorem beforeTerminator_append (c : ColorText) {s : Bytes} (hs : s <+: c.bytes) (t : Bytes) :
    beforeTerminator (s ++ t) = s ++ beforeTerminator t := by
  apply List.takeWhile_append_of_pos
  intro b hb
  simpa using ColorText.not_terminator (hs.subset hb)

/-- What begins with a terminator, or is empty. -/
theorem beforeTerminator_of_prefix_terminator {a : Answer} {s t : Bytes}
    (h : s <+: a.terminator ++ t) : beforeTerminator s = [] := by
  cases s with
  | nil => rfl
  | cons b s =>
    have hb : b ∈ terminators := by
      unfold Answer.terminator at h
      split at h <;> rw [(List.cons_prefix_cons.mp h).1] <;> decide
    rw [beforeTerminator, List.takeWhile_cons_of_neg (by simpa using hb)]

/-- All of the color, whatever comes after what ends it. -/
theorem beforeTerminator_answer (a : Answer) (t : Bytes) :
    beforeTerminator (a.text.bytes ++ (a.terminator ++ t)) = a.text.bytes := by
  rw [beforeTerminator_append a.text List.prefix_rfl,
    beforeTerminator_of_prefix_terminator List.prefix_rfl, List.append_nil]

/-- All of the color, or what has come of it. -/
theorem beforeTerminator_of_prefix {a : Answer} {t : Bytes}
    (h : t <+: a.text.bytes ++ a.terminator) :
    beforeTerminator t = if a.text.bytes <+: t then a.text.bytes else t := by
  rcases List.prefix_append_iff.mp h with ⟨hp, hne⟩ | ⟨u, rfl, hu⟩
  · rw [if_neg fun hp' => hne (hp.eq_of_length_le hp'.length_le), ← List.append_nil t,
      beforeTerminator_append a.text hp]
    rfl
  · rw [← List.append_nil a.terminator] at hu
    rw [if_pos (List.prefix_append _ _), beforeTerminator_append a.text List.prefix_rfl,
      beforeTerminator_of_prefix_terminator hu, List.append_nil]

namespace Reply
variable (r : Reply)

/-- The foreground color does not depend on what has come after it. -/
theorem parse_fg (t : Bytes) :
    parseOSCColor (r.beforeBg ++ t) (Kgd.bytes "10") = r.fg.text.color := by
  -- the first answer is complete, whatever has come of the second
  have hresponse : r.beforeBg ++ t = Kgd.bytes "\x1b" ++ (Kgd.bytes "]" ++ Kgd.bytes "10" ++
      Kgd.bytes ";rgb:" ++
        (r.fg.text.bytes ++ (r.fg.terminator ++ (opening (Kgd.bytes "11") ++ t)))) := by
    simp only [beforeBg, List.append_assoc]
    rfl
  rw [hresponse, parseOSCColor_of_index, beforeTerminator_answer, parseRGBColor_bytes]
  show Strings.index (0x5d :: Kgd.bytes "10;rgb:") _ = _
  rw [Strings.index_append (by decide)]
  show (Strings.index (Kgd.bytes "]10;rgb:") (Kgd.bytes "]10;rgb:" ++ _)).map _ = _
  rw [Strings.index_self_append]
  rfl

/-- The background color is parsed from what has come of it. -/
theorem parse_bg (t : Bytes) :
    parseOSCColor (r.beforeBg ++ t) (Kgd.bytes "11") = parseRGBColor (beforeTerminator t) := by
  have hnot : 0x5d ∉ Kgd.bytes "10;rgb:" ++ (r.fg.text.bytes ++ (r.fg.terminator ++
      Kgd.bytes "\x1b")) := by
    simp only [List.mem_append, not_or]
    exact ⟨by decide, ColorText.not_mem_bytes (by decide), r.fg.not_mem_terminator (by decide),
      by decide⟩
  generalize hmid : r.fg.text.bytes ++ (r.fg.terminator ++ Kgd.bytes "\x1b") = mid at hnot
  have hresponse : r.beforeBg ++ t = (Kgd.bytes "\x1b]" ++ (Kgd.bytes "10;rgb:" ++ mid)) ++
      (Kgd.bytes "]" ++ Kgd.bytes "11" ++ Kgd.bytes ";rgb:" ++ t) := by
    simp only [beforeBg, ← hmid, List.append_assoc]
    rfl
  rw [hresponse, parseOSCColor_of_index]
  -- the first answer begins as the second, up to its number
  have hother : ¬ Kgd.bytes "]11;rgb:" <+: 0x5d :: (Kgd.bytes "10;rgb:" ++ mid ++
      (Kgd.bytes "]11;rgb:" ++ t)) := by
    intro hp
    have hnum := (List.cons_prefix_cons.mp (List.cons_prefix_cons.mp hp).2).2
    exact absurd (List.cons_prefix_cons.mp hnum).1 (by decide)
  have hindex : Strings.index (0x5d :: Kgd.bytes "11;rgb:") (Kgd.bytes "10;rgb:" ++ mid ++
      (Kgd.bytes "]11;rgb:" ++ t)) = some (0 + (Kgd.bytes "10;rgb:" ++ mid).length) := by
    rw [Strings.index_append hnot]
    show (Strings.index (Kgd.bytes "]11;rgb:") (Kgd.bytes "]11;rgb:" ++ t)).map _ = _
    rw [Strings.index_self_append]
    rfl
  show Strings.index (0x5d :: Kgd.bytes "11;rgb:") (0x1b :: 0x5d :: (Kgd.bytes "10;rgb:" ++ mid ++
    (Kgd.bytes "]11;rgb:" ++ t))) = some ((Kgd.bytes "10;rgb:" ++ mid).length + 1 + 1)
  rw [Strings.index_cons_of_ne (by decide), Strings.index]
  show ((if Kgd.bytes "]11;rgb:" <+: _ then some 0 else _).map _) = _
  rw [if_neg hother, hindex, Nat.zero_add]
  rfl

end Reply

/-! ## A color of which the end is missing -/

namespace ColorText
variable (c : ColorText)

/-- A color is black exactly if its digits are zeros. -/
theorem color_eq_noColor_iff : noColor = c.color ↔ c.IsZero := by
  simp only [noColor, color, Color.mk.injEq, IsZero, ← Channel.value_eq_zero_iff, eq_comm]

/-- Up to the blue component there are two parts. -/
theorem parse_of_short {t : Bytes} (hp : t <+: c.beforeBlue) (hne : t ≠ c.beforeBlue) :
    parseRGBColor t = noColor := by
  apply parseRGBColor_of_length
  -- a beginning without both slashes is no color
  have hred : t <+: c.r.bytes → (t.splitOn slash).length ≠ 3 := by
    intro hr
    have hnot : slash ∉ t := fun h => c.r.slash_not_mem (hr.subset h)
    rw [List.splitOn_eq_singleton hnot]
    exact Nat.noConfusion ∘ Nat.succ.inj
  rcases List.prefix_append_iff.mp hp with ⟨hr, -⟩ | ⟨u, rfl, hu⟩
  · exact hred hr
  · cases u with
    | nil =>
      apply hred
      rw [List.append_nil]
    | cons b u =>
      obtain ⟨rfl, hu'⟩ := List.cons_prefix_cons.mp hu
      rcases List.prefix_concat_iff.mp hu' with rfl | hg
      · exact absurd rfl hne
      · have hnot : slash ∉ u := fun h => c.g.slash_not_mem (hg.subset h)
        rw [List.splitOn_append_cons_self_of_not_mem c.r.slash_not_mem,
          List.splitOn_eq_singleton hnot]
        exact Nat.noConfusion ∘ Nat.succ.inj ∘ Nat.succ.inj

/-- With all of red and green, what is parsed depends on the blue digits. -/
theorem parse_beforeBlue {u : Bytes} (hu : slash ∉ u) :
    parseRGBColor (c.beforeBlue ++ u) = ⟨c.r.value, c.g.value, parseHex16 u⟩ := by
  have hsplit : (c.beforeBlue ++ u).splitOn slash = [c.r.bytes, c.g.bytes, u] := by
    rw [beforeBlue, List.append_assoc, List.cons_append, List.append_assoc, List.singleton_append,
      List.splitOn_append_cons_self_of_not_mem c.r.slash_not_mem,
      List.splitOn_append_cons_self_of_not_mem c.g.slash_not_mem, List.splitOn_eq_singleton hu]
  simp only [parseRGBColor, hsplit, parseHex16_bytes]

end ColorText

/-- What has come of a component is nothing, or a component of some of its digits. -/
theorem Channel.eq_nil_or_bytes_of_prefix {c : Channel} {u : Bytes} (hu : u <+: c.bytes) :
    u = [] ∨ ∃ b : Channel, u = b.bytes ∧ (c.IsZero → b.IsZero) := by
  obtain ⟨v, hv⟩ := hu
  obtain ⟨ds, ds', hdigits, rfl, rfl⟩ := List.map_eq_append_iff.mp hv.symm
  by_cases hds : ds = []
  · exact Or.inl (by rw [hds, List.map_nil])
  · have hshort := c.short
    rw [hdigits, List.length_append] at hshort
    refine Or.inr ⟨⟨ds, hds, by omega⟩, rfl, fun hzero d hd => hzero d ?_⟩
    rw [hdigits]
    exact List.mem_append_left _ hd

/-- What has come of the blue component is read as what the component stands for. -/
theorem Channel.parseHex16_of_prefix {c : Channel} {u : Bytes} (hu : u <+: c.bytes) :
    parseHex16 u = c.value ↔
      c.IsZero ∨ ∃ b : Channel, u = b.bytes ∧ b.fourDigits = c.fourDigits := by
  have hzero : parseHex16 u = c.value → u = [] → c.IsZero := by
    intro h hnil
    rw [hnil] at h
    exact Channel.value_eq_zero_iff.mp h.symm
  constructor
  · intro h
    -- no digits at all are read as 0, and digits as the channel they are
    rcases Channel.eq_nil_or_bytes_of_prefix hu with hnil | ⟨b, rfl, -⟩
    · exact Or.inl (hzero h hnil)
    · rw [parseHex16_bytes] at h
      exact Or.inr ⟨b, rfl, Channel.value_eq_iff.mp h⟩
  · rintro (h | ⟨b, rfl, hb⟩)
    · rw [Channel.value_eq_zero_iff.mpr h]
      rcases Channel.eq_nil_or_bytes_of_prefix hu with rfl | ⟨b, rfl, hb⟩
      · rfl
      · rw [parseHex16_bytes]
        exact Channel.value_eq_zero_iff.mpr (hb h)
    · rw [parseHex16_bytes]
      exact Channel.value_eq_iff.mpr hb

/-- What has arrived of a color is parsed as it exactly if nothing that matters is missing. -/
theorem parseRGBColor_of_prefix {c : ColorText} {t : Bytes} (hp : t <+: c.bytes)
    (hne : ¬ c.bytes <+: t) : parseRGBColor t = c.color ↔ c.SameIn t := by
  rw [ColorText.SameIn, or_iff_right hne]
  rw [c.bytes_eq_beforeBlue] at hp
  -- cut before the blue channel there is no color; cut inside it, the channel is shorter
  rcases List.prefix_append_iff.mp hp with ⟨hshort, hne'⟩ | ⟨u, rfl, hu⟩
  · rw [c.parse_of_short hshort hne', c.color_eq_noColor_iff, or_iff_left]
    have hlong : ¬ c.beforeBlue <+: t := fun h => hne' (hshort.eq_of_length_le h.length_le)
    rintro (⟨h, -⟩ | ⟨b, rfl, -⟩)
    · exact hlong h
    · exact hlong (List.prefix_append _ _)
  · have hnot : slash ∉ u := fun h => c.b.slash_not_mem (hu.subset h)
    rw [c.parse_beforeBlue hnot, ColorText.color, Color.mk.injEq, eq_self, eq_self, true_and,
      true_and, Channel.parseHex16_of_prefix hu]
    simp only [List.prefix_append, true_and, List.append_cancel_left_eq]
    exact (or_iff_right_of_imp fun h => Or.inl h.2.2).symm

/-! ## The colors returned -/

/-- A reply that comes in the reads `reads`, all before the deadline, gives its colors exactly if
    of the background color all digits that matter have come at the end of the first read at
    which `rgb:` has come twice. -/
theorem queryColors_iff (r : Reply) (reads : List Bytes) (hreads : reads.flatten = r.bytes)
    (inTmux : Bool) :
    (queryColors ⟨false, false, reads.map fun data => ⟨data, false⟩⟩ inTmux).2 = r.colors ↔
      ∀ tail, FirstTail r reads tail → r.bg.text.SameIn tail := by
  have hcolors : ∀ tail, FirstTail r reads tail →
      ((queryColors ⟨false, false, reads.map fun data => ⟨data, false⟩⟩ inTmux).2 = r.colors ↔
        r.bg.text.SameIn tail) := by
    intro tail htail
    -- what has been read is a beginning of the reply
    have hprefix : tail <+: r.bg.text.bytes ++ r.bg.terminator := by
      obtain ⟨first, last, rest, rfl, -, hread⟩ := htail
      apply (List.prefix_append_right_inj r.beforeBg).mp
      rw [← hread, ← Reply.bytes, ← hreads, List.flatten_append, List.flatten_cons,
        ← List.append_assoc]
      exact List.prefix_append _ _
    have hresponse := r.readResponse_reply hreads htail
    simp only [queryColors, Bool.or_self, Bool.false_eq_true, if_false, hresponse, r.parse_fg,
      r.parse_bg, beforeTerminator_of_prefix hprefix, Reply.colors, TermColors.mk.injEq, true_and]
    -- with all digits there the color is right; else it is what a part of them says
    by_cases hall : r.bg.text.bytes <+: tail
    · rw [if_pos hall, parseRGBColor_bytes]
      exact iff_of_true rfl (Or.inl hall)
    · rw [if_neg hall]
      apply parseRGBColor_of_prefix _ hall
      rcases List.prefix_append_iff.mp hprefix with ⟨hp, -⟩ | ⟨u, rfl, -⟩
      · exact hp
      · exact absurd (List.prefix_append _ _) hall
  obtain ⟨tail, htail⟩ := r.exists_firstTail hreads
  constructor
  · intro h tail' htail'
    exact (hcolors tail' htail').mp h
  · intro h
    exact (hcolors tail htail).mpr (h tail htail)

/-! ## Two splits of a reply -/

local instance hexDigit_neZero : NeZero 16 := ⟨by decide⟩

/-- `ffff/ffff/ffff` on `1/2/34`, the latter ended by ST. -/
private def lightOnDark : Reply :=
  let digit (v : Fin 16) : HexDigit := ⟨v, false⟩
  let white : Channel := ⟨[digit 15, digit 15, digit 15, digit 15], by decide, by decide⟩
  let dark (ds : List (Fin 16)) (h : ds ≠ []) (h' : ds.length ≤ 4) : Channel :=
    ⟨ds.map digit, by simpa using h, by simpa using h'⟩
  { fg := ⟨⟨white, white, white⟩, true⟩
    bg := ⟨⟨dark [1] (by decide) (by decide), dark [2] (by decide) (by decide),
      dark [3, 4] (by decide) (by decide)⟩, false⟩ }

/-- In one read the colors are right. -/
theorem queryColors_iff_whole :
    (queryColors ⟨false, false, [⟨lightOnDark.bytes, false⟩]⟩ false).2 = lightOnDark.colors := by
  apply (queryColors_iff lightOnDark [lightOnDark.bytes] (List.append_nil _) false).mpr
  rintro tail ⟨first, last, rest, hreads, -, htail⟩
  -- one read: it is the one that gets to the second answer
  cases first with
  | nil =>
    obtain rfl := (List.cons.inj hreads).1
    have htail' : lightOnDark.beforeBg ++ _ = lightOnDark.beforeBg ++ tail := htail
    rw [← List.append_cancel_left htail']
    exact Or.inl (List.prefix_append _ _)
  | cons data first =>
    have hnil := (List.cons.inj hreads).2
    simp at hnil

/-- A split behind the first digit of the blue component gives another blue. -/
theorem split_reply_misread :
    ¬ ∀ (r : Reply) (reads : List Bytes), reads.flatten = r.bytes → (∀ data ∈ reads, data ≠ []) →
      ∀ inTmux, (queryColors ⟨false, false, reads.map fun data => ⟨data, false⟩⟩ inTmux).2 =
        r.colors := by
  intro h
  have hsplit := h lightOnDark [lightOnDark.bytes.take 38, lightOnDark.bytes.drop 38] (by decide)
    (by decide) false
  exact absurd hsplit (by decide)

end Tty

end Kgd
