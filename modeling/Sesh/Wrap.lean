import Sesh.Cowsay
import Sesh.Runs

/-!
# Breaking the greeting into lines

`Format` (`cowsay/cowsay.go`) collapses the white space of a text, looks at
its spaces from left to right, and where one is more than forty characters
past a reference position, makes a line break of the space *before* it. The
break positions are put into the text at the end, and the text is split
there. Nothing is lost: the lines, with a space between them, are the
collapsed text again.

They are not all within the width. In terms of words (`wrapLines`), the loop
counts characters, and a word that would bring the count above forty begins
a new line. But the reference position is then set *after* that word, so the
first word of the new line is never counted; and the last word of the text is
followed by no space, so it is never looked at and stays on its line whatever
its length.

Where this does no harm can be told from the words alone. Fill lines with
them by the book (`fill`), each with as many as fit. `Format` can only break
later than that, since it counts less. It breaks at the same places, and the
lines are within the width, exactly if every line is full even without its
first word and the last line has a second word (`Firm`), or all of the text
fits on one line (`format_wraps_iff`).
-/

namespace Cowsay

/-! ## What the lines should be -/

/-- White space: tab, newline, form feed, carriage return and space. -/
def whiteSpace : List Char := ['\t', '\n', '\x0c', '\r', ' ']

/-- **A text, and the same with every run of white space as one space.** -/
inductive Collapses : GoString → GoString → Prop
  | nil : Collapses [] []
  | run {g s t : GoString} (hne : g ≠ []) (hg : ∀ c ∈ g, c ∈ whiteSpace)
      (hs : ∀ c ∈ s.head?, c ∉ whiteSpace) (h : Collapses s t) :
    Collapses (g ++ s) (' ' :: t)
  | char {c : Char} {s t : GoString} (hc : c ∉ whiteSpace) (h : Collapses s t) :
    Collapses (c :: s) (c :: t)

/-- **Lines a text is wrapped in**: with a space between them they are the
text, its white space collapsed, and each has at most forty characters or is
a single word. -/
structure Wraps (text : GoString) (lines : List GoString) : Prop where
  collapses : Collapses text ([' '].intercalate lines)
  width : ∀ line ∈ lines, line.length ≤ 40 ∨ ' ' ∉ line

/-! ## Lines by the book -/

/-- The length of a line of words. -/
def lineLength (line : List GoString) : ℕ := ([' '].intercalate line).length

/-- **Filling lines with words**: a line takes the next word if it stays within
its width, and otherwise the word begins a line of its own. All lines but the
current one have a width of forty. -/
def fill : ℕ → List GoString → List GoString → List (List GoString)
  | _, line, [] => [line]
  | width, line, w :: ws =>
    if lineLength (line ++ [w]) ≤ width then fill width (line ++ [w]) ws
    else line :: fill 40 [w] ws

/-- The words of a text on lines, the first line one character narrower than
the others. -/
def fillText (words : List GoString) : List (List GoString) :=
  fill 39 (words.take 1) (words.drop 1)

/-- **A line is full even without its first word**: the others and the first
word of the next line have forty characters. -/
def FullWithoutFirst (line next : List GoString) : Prop :=
  40 ≤ lineLength (line.tail ++ next.take 1)

instance : DecidableRel FullWithoutFirst := fun _ _ => inferInstanceAs (Decidable (_ ≤ _))

/-- **Lines that are broken at the same places though their first words are not
counted**, nor the last word of all. The first line is counted in full, unless
it is a word that is too long for it. -/
structure Firm (lines : List (List GoString)) : Prop where
  full : (if lineLength (lines.headD []) < 40 then lines.tail else lines).IsChain FullWithoutFirst
  last : ∀ line ∈ lines.tail.getLast?, 2 ≤ line.length

/-! ## What `Format` does, word by word -/

/-- The count after the first word: it is counted, unless it is too long for
a line. -/
def startCount (l : ℕ) : ℕ := if l + 1 > 40 then 0 else l + 1

/-- The words of a text, between the spaces of its collapsed form. -/
def wordsOf (text : GoString) : List GoString := (collapse false text).splitOn ' '

/-- **What `Format` does, word by word**: `line` is the current line, and
`count` what was counted of it. -/
def wrapLines : ℕ → GoString → List GoString → List GoString
  | _, line, [] => [line]
  | _, line, [w] => [line ++ ' ' :: w]
  | count, line, w :: w' :: ws =>
    if count + w.length + 1 > 40 then line :: wrapLines 0 w (w' :: ws)
    else wrapLines (count + w.length + 1) (line ++ ' ' :: w) (w' :: ws)

/-! ## Collapsing -/

theorem isBlank_iff {c : Char} : isBlank c = true ↔ c ∈ whiteSpace := by
  have hfeed : c.val = 0x0C ↔ c = '\x0c' := ⟨fun h => Char.ext h, fun h => h ▸ rfl⟩
  simp [isBlank, whiteSpace, hfeed, or_assoc]

theorem isBlank_eq_false_iff {c : Char} : isBlank c = false ↔ c ∉ whiteSpace := by
  rw [← isBlank_iff, Bool.not_eq_true]

/-- What follows a run of white space, once the run is over. -/
theorem collapse_true (s : GoString) : collapse true s = collapse false (s.dropWhile isBlank) := by
  induction s with
  | nil => rfl
  | cons c s ih =>
    rw [collapse]
    split
    · rename_i hc
      rw [if_pos rfl, List.dropWhile_cons_of_pos hc, ih]
    · rename_i hc
      rw [List.dropWhile_cons_of_neg hc, collapse, if_neg hc]

/-- **`collapse` collapses.** -/
theorem collapses_collapse (text : GoString) : Collapses text (collapse false text) := by
  -- by the length of the text: a whole run of white space is taken off it
  induction hn : text.length using Nat.strong_induction_on generalizing text with
  | _ n ih =>
    cases text with
    | nil => exact .nil
    | cons c s =>
      rw [List.length_cons] at hn
      cases hc : isBlank c with
      | false =>
        rw [collapse, hc]
        exact .char (isBlank_eq_false_iff.mp hc) (ih s.length (by omega) s rfl)
      | true =>
        have hsplit : c :: s = c :: s.takeWhile isBlank ++ s.dropWhile isBlank := by
          rw [List.cons_append, List.takeWhile_append_dropWhile]
        have hlen := List.length_dropWhile_le isBlank s
        have hrest := ih (s.dropWhile isBlank).length (by omega) _ rfl
        have hcollapse : collapse false (c :: s) = ' ' :: collapse false (s.dropWhile isBlank) := by
          rw [collapse, hc, ← collapse_true]
          rfl
        rw [hcollapse, hsplit]
        refine .run (List.cons_ne_nil _ _) ?_ (fun d hd => isBlank_eq_false_iff.mp ?_) hrest
        · exact List.forall_mem_cons.mpr
            ⟨isBlank_iff.mp hc, fun d hd => isBlank_iff.mp (List.mem_takeWhile_imp hd)⟩
        · have hhead := List.head?_dropWhile_not isBlank s
          rw [hd] at hhead
          simpa using hhead

/-- A text collapses in one way only. -/
theorem Collapses.eq_collapse {text t : GoString} (h : Collapses text t) :
    t = collapse false text := by
  induction h with
  | nil => rfl
  | @run g s t hne hg hs h ih =>
    obtain ⟨c, g, rfl⟩ := List.exists_cons_of_ne_nil hne
    obtain ⟨hc, hg⟩ := List.forall_mem_cons.mp hg
    have hdrop : (g ++ s).dropWhile isBlank = s := by
      rw [List.dropWhile_append_of_pos fun d hd => isBlank_iff.mpr (hg d hd)]
      cases s with
      | nil => rfl
      | cons d s =>
        have hd := isBlank_eq_false_iff.mpr (hs d rfl)
        exact List.dropWhile_cons_of_neg (by rw [hd]; exact Bool.false_ne_true)
    rw [List.cons_append, collapse, if_pos (isBlank_iff.mpr hc), collapse_true, hdrop, ih]
    rfl
  | @char c s t hc h ih =>
    rw [collapse, if_neg (by rw [isBlank_eq_false_iff.mpr hc]; exact Bool.false_ne_true), ih]

/-- The only white space of a collapsed text is the space. -/
theorem not_isBlank_of_mem_collapse {b : Bool} {s : GoString} {c : Char}
    (hc : c ∈ collapse b s) : c = ' ' ∨ isBlank c = false := by
  induction s generalizing b with
  | nil => exact absurd hc List.not_mem_nil
  | cons d s ih =>
    rw [collapse] at hc
    split at hc
    · split at hc
      · exact ih hc
      · rcases List.mem_cons.mp hc with rfl | hc
        · exact Or.inl rfl
        · exact ih hc
    · rename_i hd
      rcases List.mem_cons.mp hc with rfl | hc
      · exact Or.inr (Bool.eq_false_iff.mpr hd)
      · exact ih hc

theorem newline_notMem_collapse (s : GoString) : '\n' ∉ collapse false s := by
  intro hmem
  rcases not_isBlank_of_mem_collapse hmem with h | h
  · exact absurd h (by decide)
  · exact absurd h (by decide)

/-! ## Words and positions -/

/-- Words with spaces between them. -/
theorem intercalate_cons (w : GoString) (ws : List GoString) :
    [' '].intercalate (w :: ws) = w ++ ws.flatMap (' ' :: ·) := by
  induction ws generalizing w with
  | nil => rw [List.intercalate_singleton, List.flatMap_nil, List.append_nil]
  | cons w' ws ih =>
    rw [List.intercalate_cons_cons, ih, List.flatMap_cons, List.append_assoc]
    rfl

/-- **A collapsed text is its words**, of which there is at least one. -/
theorem exists_wordsOf (text : GoString) :
    ∃ w ws, wordsOf text = w :: ws ∧ collapse false text = w ++ ws.flatMap (' ' :: ·) := by
  obtain ⟨w, ws, hwords⟩ := List.exists_cons_of_ne_nil
    (List.splitOn_ne_nil ' ' (collapse false text))
  refine ⟨w, ws, hwords, ?_⟩
  rw [← intercalate_cons, ← hwords, List.intercalate_splitOn]

/-- The positions of the spaces before words, the first one at `q`. -/
def gaps : ℕ → List GoString → List ℕ
  | _, [] => []
  | q, w :: ws => q :: gaps (q + 1 + w.length) ws

/-- The positions of the spaces of a text that begins at `p`. -/
def spacesFrom (p : ℕ) (s : GoString) : List ℕ :=
  ((s.zipIdx p).filter (fun ci => ci.1 = ' ')).map Prod.snd

/-- A word has no spaces. -/
theorem spacesFrom_append {w : GoString} (hw : ' ' ∉ w) (p : ℕ) (s : GoString) :
    spacesFrom p (w ++ s) = spacesFrom (p + w.length) s := by
  induction w generalizing p with
  | nil => rfl
  | cons c w ih =>
    have hc : c ≠ ' ' := fun h => hw (h ▸ List.mem_cons_self)
    have hrest := ih (fun h => hw (List.mem_cons_of_mem c h)) (p + 1)
    have hlen : p + 1 + w.length = p + (c :: w).length := by
      rw [List.length_cons]
      omega
    rw [hlen] at hrest
    rw [← hrest, spacesFrom, List.cons_append, List.zipIdx_cons,
      List.filter_cons_of_neg (by simpa using hc)]
    rfl

theorem spacesFrom_flatMap {ws : List GoString} (hws : ∀ w ∈ ws, ' ' ∉ w) (q : ℕ) :
    spacesFrom q (ws.flatMap (' ' :: ·)) = gaps q ws := by
  induction ws generalizing q with
  | nil => rfl
  | cons w ws ih =>
    obtain ⟨hw, hws⟩ := List.forall_mem_cons.mp hws
    have hspace : spacesFrom q (' ' :: (w ++ ws.flatMap (' ' :: ·)))
        = q :: spacesFrom (q + 1) (w ++ ws.flatMap (' ' :: ·)) := rfl
    rw [List.flatMap_cons, List.cons_append, hspace, spacesFrom_append hw, ih hws]
    rfl

/-! ## The text with its breaks -/

/-- The text from the space before the word `w` on, once the breaks are put
into it. -/
def broken : ℕ → GoString → List GoString → GoString
  | _, w, [] => ' ' :: w
  | count, w, w' :: ws =>
    if count + w.length + 1 > 40 then '\n' :: (w ++ broken 0 w' ws)
    else ' ' :: (w ++ broken (count + w.length + 1) w' ws)

theorem length_append_cons (u : GoString) (c : Char) (w : GoString) :
    (u ++ c :: w).length = u.length + 1 + w.length := by
  rw [List.length_append, List.length_cons]
  omega

/-- **The loop over the spaces, and the breaks it finds**: `u` is what was
passed, and the space after it is the last one seen. -/
theorem foldl_breakPositions (ws : List GoString) (u w : GoString) (prev : ℤ) (count : ℕ)
    (hcount : (u.length : ℤ) - prev = count) :
    (breakPositions (some u.length) prev (gaps (u.length + 1 + w.length) ws)).foldl
        (fun s v => s.set v '\n') (u ++ ' ' :: (w ++ ws.flatMap (' ' :: ·)))
      = u ++ broken count w ws := by
  induction ws generalizing u w prev count with
  | nil =>
    show u ++ ' ' :: (w ++ []) = u ++ ' ' :: w
    rw [List.append_nil]
  | cons w' ws ih =>
    -- the space before `w` becomes `c`, and the loop goes on behind `w`
    have hnext : ∀ (c : Char) (prev' : ℤ) (count' : ℕ),
        ((u.length + 1 + w.length : ℕ) : ℤ) - prev' = count' →
        (breakPositions (some (u.length + 1 + w.length)) prev'
            (gaps (u.length + 1 + w.length + 1 + w'.length) ws)).foldl
          (fun s v => s.set v '\n') (u ++ c :: (w ++ (w' :: ws).flatMap (' ' :: ·)))
          = u ++ c :: (w ++ broken count' w' ws) := by
      intro c prev' count' hcount'
      have h := ih (u ++ c :: w) w' prev' count' (by rw [length_append_cons]; exact hcount')
      rw [length_append_cons, List.append_assoc, List.append_assoc] at h
      exact h
    rw [gaps, breakPositions, broken]
    split
    · rename_i hover
      have hbreak : count + w.length + 1 > 40 := by omega
      rw [if_pos hbreak]
      show (breakPositions _ _ _).foldl _ ((u ++ ' ' :: _).set u.length '\n') = _
      rw [List.set_append_right _ _ (le_refl _), Nat.sub_self, List.set_cons_zero]
      exact hnext '\n' _ 0 (by omega)
    · rename_i hover
      have hbreak : ¬ count + w.length + 1 > 40 := by omega
      rw [if_neg hbreak]
      exact hnext ' ' prev _ (by omega)

/-- The first space gives no break: there is none before it. -/
theorem foldl_breakPositions_first (w w' : GoString) (ws : List GoString) :
    (breakPositions none (-1) (gaps w.length (w' :: ws))).foldl
        (fun s v => s.set v '\n') (w ++ (w' :: ws).flatMap (' ' :: ·))
      = w ++ broken (startCount w.length) w' ws := by
  rw [gaps, breakPositions, startCount]
  split
  · rename_i hover
    rw [if_pos (by omega)]
    exact foldl_breakPositions ws w w' _ 0 (by omega)
  · rename_i hover
    rw [if_neg (by omega)]
    exact foldl_breakPositions ws w w' (-1) _ (by omega)

theorem newline_notMem_append_space {line w : GoString} (hline : '\n' ∉ line) (hw : '\n' ∉ w) :
    '\n' ∉ line ++ ' ' :: w := by
  rw [List.mem_append, List.mem_cons, not_or, not_or]
  exact ⟨hline, by decide, hw⟩

/-- Splitting at the breaks gives the lines. -/
theorem splitOn_broken {ws : List GoString} {w line : GoString} (count : ℕ)
    (hline : '\n' ∉ line) (hws : ∀ v ∈ w :: ws, '\n' ∉ v) :
    (line ++ broken count w ws).splitOn '\n' = wrapLines count line (w :: ws) := by
  induction ws generalizing w line count with
  | nil =>
    exact List.splitOn_eq_singleton
      (newline_notMem_append_space hline (hws w List.mem_cons_self))
  | cons w' ws ih =>
    obtain ⟨hw, hws⟩ := List.forall_mem_cons.mp hws
    rw [broken, wrapLines]
    split
    · rw [List.splitOn_append_cons_self, List.splitOn_eq_singleton hline, ih 0 hw hws]
      rfl
    · have hsplit := ih (count + w.length + 1) (newline_notMem_append_space hline hw) hws
      rw [List.append_assoc] at hsplit
      exact hsplit

/-- **What `Format` does, word by word.** -/
theorem textParts_eq (text : GoString) :
    ∃ w ws, wordsOf text = w :: ws ∧ (∀ v ∈ w :: ws, ' ' ∉ v)
      ∧ textParts text = wrapLines (startCount w.length) w ws := by
  obtain ⟨w, ws, hwords, hjoin⟩ := exists_wordsOf text
  have hspace : ∀ v ∈ w :: ws, ' ' ∉ v := by
    rw [← hwords]
    exact fun v hv => Runs.notMem_of_mem_splitOn hv
  have hnewline : ∀ v ∈ w :: ws, '\n' ∉ v := by
    intro v hv hmem
    refine newline_notMem_collapse text ?_
    rw [hjoin]
    rcases List.mem_cons.mp hv with rfl | hv
    · exact List.mem_append_left _ hmem
    · exact List.mem_append_right _
        (List.mem_flatMap.mpr ⟨v, hv, List.mem_cons_of_mem ' ' hmem⟩)
  have hgaps : spacePositions (w ++ ws.flatMap (' ' :: ·)) = gaps w.length ws := by
    show spacesFrom 0 _ = _
    rw [spacesFrom_append (hspace w List.mem_cons_self), Nat.zero_add,
      spacesFrom_flatMap fun v hv => hspace v (List.mem_cons_of_mem w hv)]
  refine ⟨w, ws, hwords, hspace, ?_⟩
  unfold textParts
  dsimp only
  rw [hjoin, hgaps]
  cases ws with
  | nil =>
    show (w ++ []).splitOn '\n' = [w]
    rw [List.append_nil, List.splitOn_eq_singleton (hnewline w List.mem_cons_self)]
  | cons w' ws =>
    obtain ⟨hw, hws⟩ := List.forall_mem_cons.mp hnewline
    rw [foldl_breakPositions_first, splitOn_broken _ hw hws]

/-! ## The lines -/

theorem wrapLines_ne_nil (count : ℕ) (line : GoString) (ws : List GoString) :
    wrapLines count line ws ≠ [] := by
  induction ws generalizing count line with
  | nil => exact List.cons_ne_nil _ _
  | cons w ws ih =>
    cases ws with
    | nil => exact List.cons_ne_nil _ _
    | cons w' ws =>
      rw [wrapLines]
      split
      · exact List.cons_ne_nil _ _
      · exact ih _ _

/-- With a space between them the lines are the text again. -/
theorem intercalate_wrapLines (count : ℕ) (line : GoString) (ws : List GoString) :
    [' '].intercalate (wrapLines count line ws) = line ++ ws.flatMap (' ' :: ·) := by
  induction ws generalizing count line with
  | nil =>
    rw [wrapLines, List.intercalate_singleton]
    exact (List.append_nil line).symm
  | cons w ws ih =>
    cases ws with
    | nil =>
      rw [wrapLines, List.intercalate_singleton]
      show line ++ ' ' :: w = line ++ (' ' :: w ++ [])
      rw [List.append_nil]
    | cons w' ws =>
      rw [wrapLines]
      split
      · obtain ⟨l, ls, hls⟩ := List.exists_cons_of_ne_nil (wrapLines_ne_nil 0 w (w' :: ws))
        have hrest := ih 0 w
        rw [hls] at hrest
        rw [hls, List.intercalate_cons_cons, hrest, List.append_assoc]
        rfl
      · rw [ih, List.append_assoc]
        rfl

/-- The current line goes on in the first of the lines. -/
theorem exists_prefix_wrapLines (count : ℕ) (line : GoString) (ws : List GoString) :
    ∃ l ∈ wrapLines count line ws, line <+: l := by
  induction ws generalizing count line with
  | nil => exact ⟨line, List.mem_singleton_self _, List.prefix_rfl⟩
  | cons w ws ih =>
    cases ws with
    | nil => exact ⟨_, List.mem_singleton_self _, List.prefix_append _ _⟩
    | cons w' ws =>
      rw [wrapLines]
      split
      · exact ⟨line, List.mem_cons_self, List.prefix_rfl⟩
      · obtain ⟨l, hl, hpre⟩ := ih (count + w.length + 1) (line ++ ' ' :: w)
        exact ⟨l, hl, (List.prefix_append _ _).trans hpre⟩

/-- No line is longer than what it was made of. -/
theorem length_le_of_mem_wrapLines {count : ℕ} {line l : GoString} {ws : List GoString}
    (hl : l ∈ wrapLines count line ws) :
    l.length ≤ line.length + (ws.flatMap (' ' :: ·)).length := by
  induction ws generalizing count line with
  | nil =>
    rw [List.mem_singleton.mp hl]
    exact Nat.le_add_right _ _
  | cons w ws ih =>
    rw [List.flatMap_cons, List.length_append, List.length_cons]
    cases ws with
    | nil =>
      rw [List.mem_singleton.mp hl, length_append_cons]
      omega
    | cons w' ws =>
      rw [wrapLines] at hl
      split at hl
      · rcases List.mem_cons.mp hl with rfl | hl
        · omega
        · have hle := ih hl
          omega
      · have hle := ih hl
        rw [length_append_cons] at hle
        omega

/-! ## The lines and the book -/

theorem lineLength_cons (v : GoString) (vs : List GoString) :
    lineLength (v :: vs) = v.length + (vs.flatMap (' ' :: ·)).length := by
  rw [lineLength, intercalate_cons, List.length_append]

/-- A line with another word. -/
theorem lineLength_concat {line : List GoString} (hne : line ≠ []) (w : GoString) :
    lineLength (line ++ [w]) = lineLength line + 1 + w.length := by
  obtain ⟨v, vs, rfl⟩ := List.exists_cons_of_ne_nil hne
  rw [List.cons_append, lineLength_cons, lineLength_cons, List.flatMap_append, List.length_append,
    List.flatMap_singleton, List.length_cons]
  omega

/-- What is counted of a line, and another word. -/
theorem lineLength_tail_concat (v : GoString) (vs : List GoString) (w : GoString) :
    lineLength (vs ++ [w]) + v.length = lineLength (v :: vs) + w.length := by
  cases vs with
  | nil =>
    rw [lineLength_cons, List.nil_append, lineLength_cons, List.flatMap_nil, List.length_nil]
    omega
  | cons v' vs =>
    rw [lineLength_concat (List.cons_ne_nil v' vs), lineLength_cons v, List.flatMap_cons,
      List.length_append, List.length_cons, lineLength_cons]
    omega

theorem intercalate_concat {line : List GoString} (hne : line ≠ []) (w : GoString) :
    [' '].intercalate (line ++ [w]) = [' '].intercalate line ++ ' ' :: w := by
  obtain ⟨v, vs, rfl⟩ := List.exists_cons_of_ne_nil hne
  rw [List.cons_append, intercalate_cons, intercalate_cons, List.flatMap_append,
    List.flatMap_singleton, List.append_assoc]

/-- The current line goes on in the first of the lines. -/
theorem exists_fill_eq_cons (width : ℕ) (line ws : List GoString) :
    ∃ more lines, fill width line ws = (line ++ more) :: lines := by
  induction ws generalizing line with
  | nil => exact ⟨[], [], by rw [fill, List.append_nil]⟩
  | cons w ws ih =>
    rw [fill]
    split
    · obtain ⟨more, lines, h⟩ := ih (line ++ [w])
      exact ⟨w :: more, lines, by rw [h, List.append_assoc]; rfl⟩
    · exact ⟨[], _, by rw [List.append_nil]⟩

/-- What is asked of lines from the second on: each is full without its first
word, and the last has a second one. -/
def Holds (lines : List (List GoString)) : Prop :=
  lines.IsChain FullWithoutFirst ∧ ∀ line ∈ lines.getLast?, 2 ≤ line.length

theorem holds_singleton {line : List GoString} : Holds [line] ↔ 2 ≤ line.length := by
  simp [Holds]

/-- A line in front of others. -/
theorem holds_cons_fill (line : List GoString) (w : GoString) (ws : List GoString) :
    Holds (line :: fill 40 [w] ws)
      ↔ 40 ≤ lineLength (line.tail ++ [w]) ∧ Holds (fill 40 [w] ws) := by
  obtain ⟨more, lines, hfill⟩ := exists_fill_eq_cons 40 [w] ws
  rw [hfill, Holds, Holds, List.isChain_cons_cons, List.getLast?_cons_cons, and_assoc]
  rfl

/-- **Every line is within the width.** -/
def AllFit (lines : List GoString) : Prop := ∀ l ∈ lines, l.length ≤ 40 ∨ ' ' ∉ l

/-- A line of several words that is too long stays so. -/
theorem not_allFit_of_long {count : ℕ} {line : GoString} {ws : List GoString}
    (hspace : ' ' ∈ line) (hlong : 40 < line.length) : ¬ AllFit (wrapLines count line ws) := by
  intro hfit
  obtain ⟨l, hl, hpre⟩ := exists_prefix_wrapLines count line ws
  have hle := hpre.length_le
  rcases hfit l hl with hshort | hword
  · omega
  · exact hword (hpre.subset hspace)

/-- **From the second line on**, where the first word of a line is not
counted. -/
theorem allFit_wrapLines_iff (v : GoString) (vs : List GoString) {w : GoString}
    {ws : List GoString} (hspace : ∀ u ∈ w :: ws, ' ' ∉ u)
    (hline : lineLength (v :: vs) ≤ 40 ∨ ' ' ∉ [' '].intercalate (v :: vs)) :
    AllFit (wrapLines (vs.flatMap (' ' :: ·)).length ([' '].intercalate (v :: vs)) (w :: ws))
      ↔ Holds (fill 40 (v :: vs) (w :: ws)) := by
  induction ws generalizing v vs w with
  | nil =>
    -- the last word stays on the line, whatever its length
    have hjoin := intercalate_concat (List.cons_ne_nil v vs) w
    rw [wrapLines, fill, ← hjoin]
    split
    · rename_i hfits
      rw [fill, holds_singleton]
      refine iff_of_true (fun l hl => ?_) (by simp)
      rw [List.mem_singleton.mp hl]
      exact .inl hfits
    · rename_i hover
      refine iff_of_false (fun hfit => ?_) fun h => absurd (h.2 [w] rfl) (by simp)
      rcases hfit _ (List.mem_singleton_self _) with hshort | hword
      · exact hover hshort
      · rw [hjoin] at hword
        exact hword (List.mem_append_right _ List.mem_cons_self)
  | cons w' ws ih =>
    obtain ⟨hw, hspace⟩ := List.forall_mem_cons.mp hspace
    have hlen := lineLength_cons v vs
    have hlong := lineLength_concat (List.cons_ne_nil v vs) w
    have htail := lineLength_tail_concat v vs w
    have hjoin := intercalate_concat (List.cons_ne_nil v vs) w
    have hcount : ((vs ++ [w]).flatMap (' ' :: ·)).length
        = (vs.flatMap (' ' :: ·)).length + w.length + 1 := by
      rw [List.flatMap_append, List.length_append, List.flatMap_singleton, List.length_cons]
      omega
    rw [wrapLines, fill]
    by_cases hfits : lineLength (v :: vs ++ [w]) ≤ 40
    · -- the word fits, and what is counted fits too
      have hgo := ih v (vs ++ [w]) hspace (.inl hfits)
      rw [if_neg (by omega), if_pos hfits, ← hjoin, ← hcount]
      exact hgo
    rw [if_neg hfits, holds_cons_fill]
    by_cases hover : (vs.flatMap (' ' :: ·)).length + w.length + 1 > 40
    · -- it does not, and is found not to
      have hgo := ih w [] hspace (.inr (by rwa [List.intercalate_singleton]))
      rw [List.intercalate_singleton] at hgo
      rw [if_pos hover, AllFit, List.forall_mem_cons]
      refine and_congr (iff_of_true hline ?_) hgo
      show 40 ≤ lineLength (vs ++ [w])
      omega
    · -- it does not, but what is counted fits
      rw [if_neg hover]
      refine iff_of_false (not_allFit_of_long ?_ ?_) fun h => ?_
      · exact List.mem_append_right _ List.mem_cons_self
      · rw [← hjoin]
        show 40 < lineLength (v :: vs ++ [w])
        omega
      · have hfull : 40 ≤ lineLength (vs ++ [w]) := h.1
        omega

/-- **The first line**, of which every word is counted. -/
theorem allFit_wrapLines_first_iff {line : List GoString} (hne : line ≠ [])
    (hline : lineLength line < 40) {w : GoString} {ws : List GoString}
    (hspace : ∀ u ∈ w :: ws, ' ' ∉ u)
    (hlong : 40 < lineLength line + ((w :: ws).flatMap (' ' :: ·)).length) :
    AllFit (wrapLines (lineLength line + 1) ([' '].intercalate line) (w :: ws))
      ↔ Firm (fill 39 line (w :: ws)) := by
  induction ws generalizing line w with
  | nil =>
    -- the last word, and the text is too long for one line
    have hconcat := lineLength_concat hne w
    rw [List.flatMap_singleton, List.length_cons] at hlong
    rw [wrapLines, fill, if_neg (by omega), fill]
    refine iff_of_false (fun hfit => ?_) fun h => absurd (h.last [w] rfl) (by simp)
    have hlen : ([' '].intercalate line ++ ' ' :: w).length = lineLength line + 1 + w.length :=
      length_append_cons _ _ _
    rcases hfit _ (List.mem_singleton_self _) with hshort | hword
    · omega
    · exact hword (List.mem_append_right _ List.mem_cons_self)
  | cons w' ws ih =>
    obtain ⟨hw, hspace⟩ := List.forall_mem_cons.mp hspace
    have hconcat := lineLength_concat hne w
    rw [wrapLines, fill]
    by_cases hfits : lineLength (line ++ [w]) ≤ 39
    · have hgo := ih (List.append_ne_nil_of_right_ne_nil line (List.cons_ne_nil w [])) (by omega) hspace (by
        rw [List.flatMap_cons, List.length_append, List.length_cons] at hlong
        omega)
      have hcount : lineLength line + 1 + w.length + 1 = lineLength (line ++ [w]) + 1 := by
        omega
      rw [if_neg (by omega), if_pos hfits, ← intercalate_concat hne, hcount]
      exact hgo
    · have hgo := allFit_wrapLines_iff w [] hspace
        (.inr (by rwa [List.intercalate_singleton]))
      rw [List.intercalate_singleton] at hgo
      rw [if_pos (by omega), if_neg hfits, AllFit, List.forall_mem_cons]
      have hfirst : (([' '].intercalate line).length ≤ 40 ∨ ' ' ∉ [' '].intercalate line) :=
        .inl (Nat.le_of_lt hline)
      have hfirm : Firm (line :: fill 40 [w] (w' :: ws)) ↔ Holds (fill 40 [w] (w' :: ws)) := by
        refine ⟨fun h => ⟨?_, h.last⟩, fun h => ⟨?_, h.2⟩⟩
        · have hfull := h.full
          rwa [List.headD_cons, if_pos hline] at hfull
        · rw [List.headD_cons, if_pos hline]
          exact h.1
      rw [hfirm]
      exact ⟨fun h => hgo.mp h.2, fun h => ⟨hfirst, hgo.mpr h⟩⟩

/-- **A text of several words**, too long for one line. -/
theorem allFit_iff_firm {w w' : GoString} {ws : List GoString}
    (hspace : ∀ u ∈ w :: w' :: ws, ' ' ∉ u)
    (hlong : 40 < w.length + ((w' :: ws).flatMap (' ' :: ·)).length) :
    AllFit (wrapLines (startCount w.length) w (w' :: ws)) ↔ Firm (fill 39 [w] (w' :: ws)) := by
  obtain ⟨hw, hspace⟩ := List.forall_mem_cons.mp hspace
  have hlen : lineLength [w] = w.length := by
    rw [lineLength, List.intercalate_singleton]
  have hconcat := lineLength_concat (List.cons_ne_nil w []) w'
  rw [startCount]
  by_cases hover : w.length + 1 > 40
  · -- the first word is too long for its line, and not counted
    have hgo := allFit_wrapLines_iff w [] hspace
      (.inr (by rwa [List.intercalate_singleton]))
    rw [List.intercalate_singleton] at hgo
    have hfill : ∀ width ≤ 40, fill width [w] (w' :: ws) = [w] :: fill 40 [w'] ws := by
      intro width hwidth
      rw [fill, if_neg (by omega)]
    have hlast : ([w] :: fill 40 [w'] ws).getLast? = (fill 40 [w'] ws).getLast? := by
      obtain ⟨more, lines, h⟩ := exists_fill_eq_cons 40 [w'] ws
      rw [h, List.getLast?_cons_cons]
    rw [hfill 40 (le_refl 40)] at hgo
    rw [if_pos hover, hfill 39 (by decide)]
    refine hgo.trans ⟨fun h => ⟨?_, ?_⟩, fun h => ⟨?_, ?_⟩⟩
    · rw [List.headD_cons, if_neg (by omega)]
      exact h.1
    · rw [List.tail_cons, ← hlast]
      exact h.2
    · have hfull := h.full
      rwa [List.headD_cons, if_neg (by omega)] at hfull
    · rw [hlast]
      exact h.last
  · have hgo := allFit_wrapLines_first_iff (List.cons_ne_nil w []) (by omega) hspace
      (by rwa [hlen])
    rw [List.intercalate_singleton, hlen] at hgo
    rw [if_neg hover]
    exact hgo

/-- **The text is wrapped without loss and within the width exactly where
what is not counted does no harm.** Nothing is ever lost. With its white space
collapsed, the text has to fit on one line, or its words, put on lines by the
book, have to fill every line even without its first word, with more than one
of them on the last. -/
theorem format_wraps_iff (text : GoString) :
    Wraps text (textParts text)
      ↔ ∃ t, Collapses text t ∧ (t.length ≤ 40 ∨ Firm (fillText (t.splitOn ' '))) := by
  obtain ⟨w, ws, hwords, hspace, hparts⟩ := textParts_eq text
  have hjoin : collapse false text = w ++ ws.flatMap (' ' :: ·) := by
    rw [← intercalate_cons, ← hwords, wordsOf, List.intercalate_splitOn]
  have hcollapses : Collapses text ([' '].intercalate (textParts text)) := by
    rw [hparts, intercalate_wrapLines, ← hjoin]
    exact collapses_collapse text
  have hwraps : Wraps text (textParts text) ↔ AllFit (textParts text) :=
    ⟨fun h => h.width, fun h => ⟨hcollapses, h⟩⟩
  have hsafe : (∃ t, Collapses text t ∧ (t.length ≤ 40 ∨ Firm (fillText (t.splitOn ' '))))
      ↔ (collapse false text).length ≤ 40 ∨ Firm (fill 39 [w] ws) := by
    have hfill : fillText ((collapse false text).splitOn ' ') = fill 39 [w] ws := by
      rw [show (collapse false text).splitOn ' ' = w :: ws from hwords]
      rfl
    rw [← hfill]
    constructor
    · rintro ⟨t, ht, hsafe⟩
      rwa [ht.eq_collapse] at hsafe
    · exact fun h => ⟨_, collapses_collapse text, h⟩
  rw [hwraps, hsafe, hparts, hjoin, List.length_append]
  by_cases hshort : w.length + (ws.flatMap (' ' :: ·)).length ≤ 40
  · refine iff_of_true (fun l hl => .inl ?_) (.inl hshort)
    exact (length_le_of_mem_wrapLines hl).trans hshort
  rw [or_iff_right hshort]
  cases ws with
  | nil =>
    -- a single word
    refine iff_of_true (fun l hl => .inr ?_) ⟨?_, nofun⟩
    · rw [List.mem_singleton.mp hl]
      exact hspace w List.mem_cons_self
    · rw [fill]
      split
      · exact .nil
      · exact .singleton _
  | cons w' ws => exact allFit_iff_firm hspace (by omega)

/-- Three lines, the second of them full without its first word. -/
example : Firm (fillText [List.replicate 39 'a', ['b'], List.replicate 38 'b', ['c'], ['d']]) :=
  ⟨by decide +kernel, by decide +kernel⟩

/-- Two texts whose lines are too long: in the first the last word is not
looked at, in the second a line is broken before a word that is not counted
on the next one. -/
theorem format_too_wide :
    textParts ('a' :: ' ' :: List.replicate 40 'b')
        = ['a' :: ' ' :: List.replicate 40 'b']
    ∧ (textParts ("aaaaa bbbbb ccccc ddddd eeeee fffff ".toList
          ++ "ggggg hhhhh iiiii jjjjj kkkkk lllll mmmmm nnnnn o".toList)
        = ["aaaaa bbbbb ccccc ddddd eeeee fffff".toList,
          "ggggg hhhhh iiiii jjjjj kkkkk lllll mmmmm".toList, "nnnnn o".toList])
    ∧ "ggggg hhhhh iiiii jjjjj kkkkk lllll mmmmm".toList.length = 41 := by
  decide +kernel

end Cowsay
