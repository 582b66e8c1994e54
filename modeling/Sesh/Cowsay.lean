import Mathlib.Algebra.Ring.Nat
import Sesh.Text

/-!
# The greeting

Before a parallel run, `GirlSay` (`util.go`) prints a text in a balloon over
a drawing (`cowsay/cowsay.go`): white space is collapsed, the text is broken
at spaces into lines of about forty characters, and the lines are put in a
box.

The width of the box is that of the longest line in bytes. Rows of several
lines are padded to it, which makes the box wider than it has to be where
there are other characters than those of ASCII, and rectangular all the same.
A single line is not padded, and there the two bars are longer than the row
as soon as it has such a character (`box_rectangular_iff`).
-/

namespace Cowsay

/-- `len(s)`: a Go string is measured in bytes. -/
def byteLen (s : GoString) : ℕ := (s.map Char.utf8Size).sum

/-- `LongestLine`: the first of the lines that are longest, in bytes. -/
def longestLine (lines : List GoString) : GoString :=
  lines.foldl (fun longest line =>
    if byteLen longest < byteLen line then line else longest) []

/-- The verb `%-*s`, which pads on the right and counts characters. -/
def padRight (width : ℕ) (s : GoString) : GoString :=
  s ++ List.replicate (width - s.length) ' '

/-- A line in its frame. -/
def boxRow (width n : ℕ) (li : GoString × ℕ) : GoString :=
  if li.2 = 0 then "/ ".toList ++ padRight width li.1 ++ " \\".toList
  else if li.2 = n - 1 then "\\ ".toList ++ padRight width li.1 ++ " /".toList
  else "| ".toList ++ padRight width li.1 ++ " |".toList

/-- `BoxedStrings`. -/
def boxedStrings (lines : List GoString) : List GoString :=
  let lines := if lines = [] then [[]] else lines
  let width := byteLen (longestLine lines)
  let bar := fun c : Char => ' ' :: List.replicate (width + 2) c
  let rows :=
    match lines with
    | [line] => ["< ".toList ++ line ++ " >".toList]
    | lines => lines.zipIdx.map (boxRow width lines.length)
  bar '_' :: rows ++ [bar '-']

/-- The class `\s` of a regular expression. -/
def isBlank (c : Char) : Bool :=
  c = '\t' || c = '\n' || c.val = 0x0C || c = '\r' || c = ' '

/-- Every run of white space as one space; `inRun` where the characters
before were white space. -/
def collapse (inRun : Bool) : GoString → GoString
  | [] => []
  | c :: s =>
    if isBlank c then if inRun then collapse true s else ' ' :: collapse true s
    else c :: collapse false s

/-- The positions of the spaces. -/
def spacePositions (s : GoString) : List ℕ :=
  (s.zipIdx.filter (fun ci => ci.1 = ' ')).map Prod.snd

/-- The loop of `Format` over the spaces, after the space `last`: one that
is more than forty characters past the break before it gives a break at the
space before. -/
def breakPositions : Option ℕ → ℤ → List ℕ → List ℕ
  | _, _, [] => []
  | last, prevBreakPos, v :: vs =>
    if v - prevBreakPos > 40 then last.toList ++ breakPositions (some v) v vs
    else breakPositions (some v) prevBreakPos vs

/-- The lines `Format` breaks a text into. -/
def textParts (text : GoString) : List GoString :=
  let cleaned := collapse false text
  let breaks := breakPositions none (-1) (spacePositions cleaned)
  (breaks.foldl (fun s v => s.set v '\n') cleaned).splitOn '\n'

/-- The drawing under the balloon. -/
def cowFooter : GoString :=
  ("\n    \\        ____\n"
    ++ "     \\      &&&&&&\\\\\n"
    ++ "       \\    / \\&&&(/\n"
    ++ "        \\   ),> &&|\\\n"
    ++ "            \\_  &&| )\n"
    ++ "            _ ) &.'/\n"
    ++ "           /  )__|/\n"
    ++ "          /./| _)_)\n"
    ++ "         ( | \\.--|\n"
    ++ "          \\|  ) !|\n"
    ++ "          /| /.__|_______\n"
    ++ "         (_// .\\_/______ )\n"
    ++ "  _________(            )|______________\n"
    ++ "____________'..____.-'/ ||____________\n"
    ++ "_|___|___|___|___|___(  ||__|___|___|_\n"
    ++ "  _|___|___|___|___|_ \\ |||___|___|_\n"
    ++ "    _|___|___|___|___| )||__|___|_\n"
    ++ "                      / ||\n"
    ++ "                       \\|\n").toList

/-- `Format`. -/
def format (text : GoString) : GoString :=
  ['\n'].intercalate (boxedStrings (textParts text)) ++ cowFooter

/-! ## The box -/

/-- The lines a box is drawn for. -/
def boxLines (lines : List GoString) : List GoString :=
  if lines = [] then [[]] else lines

/-- A row without the two characters on each side. -/
def unframe (row : GoString) : GoString := ((row.drop 2).dropLast).dropLast

/-- A text without the spaces at its end. -/
def trimSpaces (s : GoString) : GoString := s.rdropWhile (· == ' ')

/-- **A box is rectangular**: there is one row for each line, between two
bars; the rows have the same number of characters and the bars one less; and
each row shows its line, up to spaces at the end. -/
def Rectangular (lines box : List GoString) : Prop :=
  ∃ (w : ℕ) (top bottom : GoString) (rows : List GoString),
    box = top :: rows ++ [bottom]
    ∧ rows.length = (boxLines lines).length
    ∧ top.length = w - 1 ∧ bottom.length = w - 1 ∧ (∀ row ∈ rows, row.length = w)
    ∧ ∀ (i : ℕ) row line, rows[i]? = some row → (boxLines lines)[i]? = some line →
      trimSpaces (unframe row) = trimSpaces line

theorem length_le_byteLen (s : GoString) : s.length ≤ byteLen s := by
  induction s with
  | nil => exact le_refl 0
  | cons c s ih =>
    have hc : 0 < c.utf8Size := Char.utf8Size_pos c
    show s.length + 1 ≤ c.utf8Size + byteLen s
    omega

/-- A text has as many bytes as characters only where each takes one. -/
theorem byteLen_eq_length_iff {s : GoString} :
    byteLen s = s.length ↔ ∀ c ∈ s, c.utf8Size = 1 := by
  induction s with
  | nil => exact iff_of_true rfl (fun c hc => absurd hc List.not_mem_nil)
  | cons c s ih =>
    have hc : 0 < c.utf8Size := Char.utf8Size_pos c
    have hs := length_le_byteLen s
    rw [List.forall_mem_cons, ← ih]
    show c.utf8Size + byteLen s = s.length + 1 ↔ _
    omega

/-- No line is longer than the longest. -/
theorem byteLen_le_longestLine {lines : List GoString} :
    ∀ line ∈ lines, byteLen line ≤ byteLen (longestLine lines) := by
  -- what was found so far only grows
  have hfold : ∀ (ls : List GoString) (longest : GoString),
      byteLen longest ≤ byteLen (ls.foldl (fun longest line =>
        if byteLen longest < byteLen line then line else longest) longest)
      ∧ ∀ line ∈ ls, byteLen line ≤ byteLen (ls.foldl (fun longest line =>
        if byteLen longest < byteLen line then line else longest) longest) := by
    intro ls
    induction ls with
    | nil => exact fun longest => ⟨le_refl _, fun line hl => absurd hl List.not_mem_nil⟩
    | cons l ls ih =>
      intro longest
      rw [List.foldl_cons]
      obtain ⟨hle, hmem⟩ := ih (if byteLen longest < byteLen l then l else longest)
      have hboth : byteLen longest ≤ byteLen (if byteLen longest < byteLen l then l else longest)
          ∧ byteLen l ≤ byteLen (if byteLen longest < byteLen l then l else longest) := by
        split
        · exact ⟨le_of_lt ‹_›, le_refl _⟩
        · exact ⟨le_refl _, not_lt.mp ‹_›⟩
      exact ⟨hboth.1.trans hle, List.forall_mem_cons.mpr ⟨hboth.2.trans hle, hmem⟩⟩
  exact (hfold lines []).2

theorem length_padRight {width : ℕ} {s : GoString} (h : s.length ≤ width) :
    (padRight width s).length = width := by
  rw [padRight, List.length_append, List.length_replicate]
  omega

/-- Padding is spaces at the end. -/
theorem trimSpaces_padRight (width : ℕ) (s : GoString) :
    trimSpaces (padRight width s) = trimSpaces s := by
  rw [padRight]
  generalize width - s.length = n
  induction n with
  | zero => rw [List.replicate_zero, List.append_nil]
  | succ n ih =>
    rw [List.replicate_succ', ← List.append_assoc, trimSpaces,
      List.rdropWhile_concat_pos _ _ _ rfl]
    exact ih

/-- A row has a frame of two characters on each side of the padded line. -/
theorem exists_boxRow (width n : ℕ) (li : GoString × ℕ) :
    ∃ a b c d, boxRow width n li = a :: b :: (padRight width li.1 ++ [c, d]) := by
  unfold boxRow
  split
  · exact ⟨_, _, _, _, rfl⟩
  · split
    · exact ⟨_, _, _, _, rfl⟩
    · exact ⟨_, _, _, _, rfl⟩

theorem unframe_cons_cons (a b c d : Char) (s : GoString) :
    unframe (a :: b :: (s ++ [c, d])) = s := by
  have hsplit : s ++ [c, d] = (s ++ [c]) ++ [d] := by rw [List.append_assoc]; rfl
  show ((s ++ [c, d]).dropLast).dropLast = s
  rw [hsplit, List.dropLast_concat, List.dropLast_concat]

/-- **The rows of several lines** are as wide as the width, and the frame. -/
theorem rectangular_of_rows {lines : List GoString} (hne : lines ≠ []) {width : ℕ}
    (hwidth : ∀ line ∈ lines, line.length ≤ width) {top bottom : GoString}
    (htop : top.length = width + 3) (hbottom : bottom.length = width + 3) (n : ℕ) :
    Rectangular lines (top :: lines.zipIdx.map (boxRow width n) ++ [bottom]) := by
  refine ⟨width + 4, top, bottom, lines.zipIdx.map (boxRow width n), rfl, ?_, htop, hbottom,
    fun row hrow => ?_, fun i row line hrow hline => ?_⟩
  · rw [boxLines, if_neg hne, List.length_map, List.length_zipIdx]
  · obtain ⟨⟨line, i⟩, hli, rfl⟩ := List.mem_map.mp hrow
    obtain ⟨a, b, c, d, heq⟩ := exists_boxRow width n (line, i)
    have hlen := length_padRight (hwidth line (List.fst_mem_of_mem_zipIdx hli))
    rw [heq, List.length_cons, List.length_cons, List.length_append, hlen]
    rfl
  · rw [boxLines, if_neg hne] at hline
    rw [List.getElem?_map, List.getElem?_zipIdx, hline] at hrow
    obtain rfl := Option.some.inj hrow
    obtain ⟨a, b, c, d, heq⟩ := exists_boxRow width n (line, 0 + i)
    rw [heq, unframe_cons_cons, trimSpaces_padRight]

/-- **A single line has its row to itself**, and the box is rectangular where
the bars fit it. -/
theorem rectangular_singleton_iff {line top bottom : GoString} {width : ℕ}
    (htop : top.length = width + 3) (hbottom : bottom.length = width + 3) :
    Rectangular [line] [top, "< ".toList ++ line ++ " >".toList, bottom]
      ↔ width = line.length := by
  have hrow : "< ".toList ++ line ++ " >".toList = '<' :: ' ' :: (line ++ [' ', '>']) := rfl
  have hlen : ("< ".toList ++ line ++ " >".toList).length = line.length + 4 := by
    rw [hrow, List.length_cons, List.length_cons, List.length_append]
    rfl
  constructor
  · rintro ⟨w, top', bottom', rows, hbox, hcount, hw, -, hrows, -⟩
    obtain ⟨rfl, hrest⟩ := List.cons.inj hbox
    obtain ⟨row, rfl⟩ := List.length_eq_one_iff.mp hcount
    obtain ⟨rfl, -⟩ := List.cons.inj hrest
    have h := hrows _ List.mem_cons_self
    omega
  · rintro rfl
    refine ⟨line.length + 4, top, bottom, ["< ".toList ++ line ++ " >".toList], rfl, rfl, htop,
      hbottom, fun row hr => ?_, fun i row line' hr hl => ?_⟩
    · rw [List.mem_singleton.mp hr, hlen]
    · cases i with
      | zero =>
        obtain rfl := Option.some.inj hr
        obtain rfl := Option.some.inj hl
        rw [hrow, unframe_cons_cons]
      | succ i => cases hl

theorem byteLen_longestLine_singleton (line : GoString) :
    byteLen (longestLine [line]) = byteLen line := by
  show byteLen (if byteLen [] < byteLen line then line else []) = byteLen line
  split
  · rfl
  · rename_i h
    have hzero : byteLen [] = 0 := rfl
    omega

theorem length_bar (width : ℕ) (c : Char) :
    (' ' :: List.replicate (width + 2) c).length = width + 3 := by
  rw [List.length_cons, List.length_replicate]

/-- **The box is rectangular exactly where it is not for a single line with a
character of more than one byte.** -/
theorem box_rectangular_iff (lines : List GoString) :
    Rectangular lines (boxedStrings lines)
      ↔ ∀ line, lines = [line] → ∀ c ∈ line, c.utf8Size = 1 := by
  cases lines with
  | nil =>
    refine iff_of_true ?_ nofun
    -- the box of no line is that of an empty one
    have hbox : Rectangular [[]] (boxedStrings []) :=
      (rectangular_singleton_iff (length_bar 0 '_') (length_bar 0 '-')).mpr rfl
    exact hbox
  | cons line rest =>
    cases rest with
    | nil =>
      have hbox : Rectangular [line] (boxedStrings [line])
          ↔ byteLen (longestLine [line]) = line.length :=
        rectangular_singleton_iff (length_bar _ '_') (length_bar _ '-')
      rw [hbox, byteLen_longestLine_singleton, byteLen_eq_length_iff]
      constructor
      · intro h l hl
        obtain ⟨rfl, -⟩ := List.cons.inj hl
        exact h
      · exact fun h => h line rfl
    | cons line' rest =>
      refine iff_of_true ?_ nofun
      refine rectangular_of_rows (List.cons_ne_nil _ _) (fun l hl => ?_) (length_bar _ '_')
        (length_bar _ '-') _
      exact (length_le_byteLen l).trans (byteLen_le_longestLine l hl)

/-- A single line with an accent: the bars are a character longer than they
should be. -/
theorem box_not_rectangular :
    boxedStrings ["é".toList] = [" ____".toList, "< é >".toList, " ----".toList]
    ∧ ¬ Rectangular ["é".toList] (boxedStrings ["é".toList]) := by
  refine ⟨by decide, fun h => ?_⟩
  have hwidth : byteLen (longestLine ["é".toList]) = "é".toList.length :=
    (rectangular_singleton_iff (length_bar _ '_') (length_bar _ '-')).mp h
  exact absurd hwidth (by decide)

end Cowsay

/-- `GirlSay`: its content is printed as the slice it is. -/
def girlSay (content : GoString) : GoString :=
  Cowsay.format ('[' :: content ++ [']'])
