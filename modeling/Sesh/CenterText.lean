import Sesh.DirCat
import Sesh.Matches

/-!
# The text of the tail

`drawCenter` takes the colour codes off the first line of the tail it shows,
since a tail may begin in the middle of a coloured text and the terminal does
not know what that belongs to (`dir_cat.go`). The codes are found by a
regular expression, from left to right, and that is to delete all of them
(`stripColors_eq_delete`).

The first line ends at the first newline. Where there is one at a position
above zero, it is cut off there; in every other case the expression is
applied to the whole text. That is right for a text without a newline, and
wrong for one that begins with it: the first line is empty then, and the
codes of all other lines are deleted (`center_first_line_iff`).
-/

/-- **A colour code**: an escape character, brackets and digits, and an
`m`. -/
def IsColorCode (w : GoString) : Prop :=
  ∃ body, body ≠ [] ∧ (∀ c ∈ body, isColorChar c = true) ∧ w = '\x1b' :: (body ++ ['m'])

/-- What is before the first newline of a text. -/
def firstLineOf (text : GoString) : GoString := text.takeWhile (· != '\n')

/-- The text from its first newline on. -/
def fromNewline (text : GoString) : GoString := text.dropWhile (· != '\n')

/-! ## Finding a code -/

theorem isColorChar_escape : isColorChar '\x1b' = false := by decide

theorem isColorChar_m : isColorChar 'm' = false := by decide

theorem takeWhile_body {body : GoString} (hbody : ∀ c ∈ body, isColorChar c = true)
    (rest : GoString) : (body ++ 'm' :: rest).takeWhile isColorChar = body := by
  rw [List.takeWhile_append_of_pos hbody,
    List.takeWhile_cons_of_neg (by rw [isColorChar_m]; exact nofun), List.append_nil]

/-- **What follows an escape character is the rest of a code** just where one
is found. -/
theorem afterColor_eq_some_iff {s rest : GoString} :
    afterColor s = some rest
      ↔ ∃ body, body ≠ [] ∧ (∀ c ∈ body, isColorChar c = true) ∧ s = body ++ 'm' :: rest := by
  constructor
  · intro h
    unfold afterColor at h
    split at h
    · cases h
    · rename_i hne
      split at h
      · rename_i r hr
        obtain rfl := Option.some.inj h
        refine ⟨s.takeWhile isColorChar, hne, fun c hc => List.mem_takeWhile_imp hc, ?_⟩
        rw [← hr, List.takeWhile_append_dropWhile]
      · cases h
  · rintro ⟨body, hne, hbody, rfl⟩
    have hdrop : (body ++ 'm' :: rest).dropWhile isColorChar = 'm' :: rest := by
      rw [List.dropWhile_append_of_pos hbody,
        List.dropWhile_cons_of_neg (by rw [isColorChar_m]; exact nofun)]
    rw [afterColor, takeWhile_body hbody, if_neg hne, hdrop]
    rfl

/-- Codes do not overlap. -/
theorem marked_isColorCode : Matches.Marked IsColorCode '\x1b' where
  starts := by
    rintro w ⟨body, -, hbody, rfl⟩
    refine ⟨body ++ ['m'], rfl, fun hmem => ?_⟩
    rcases List.mem_append.mp hmem with hmem | hmem
    · have h := hbody _ hmem
      rw [isColorChar_escape] at h
      cases h
    · exact absurd (List.mem_singleton.mp hmem) (by decide)
  incomparable := by
    rintro w w' ⟨body, -, hbody, rfl⟩ ⟨body', -, hbody', rfl⟩ ⟨t, ht⟩
    rw [List.cons_append, List.append_assoc] at ht
    have htail : body ++ 'm' :: t = body' ++ ['m'] := (List.cons.inj ht).2
    have hsame := congrArg (List.takeWhile isColorChar) htail
    rw [takeWhile_body hbody, takeWhile_body hbody'] at hsame
    rw [hsame]

theorem isColorCode_ne_nil : ∀ w, IsColorCode w → w ≠ [] := by
  rintro w ⟨body, -, -, rfl⟩
  exact List.cons_ne_nil _ _

/-- A code begins a text where the escape character does, and the rest of one
follows. -/
theorem not_prefix_of_afterColor {c : Char} {s : GoString}
    (h : c = '\x1b' → afterColor s = none) : ∀ w, IsColorCode w → ¬ w <+: c :: s := by
  rintro w ⟨body, hne, hbody, rfl⟩ ⟨t, ht⟩
  rw [List.cons_append, List.append_assoc] at ht
  obtain ⟨rfl, hs⟩ := List.cons.inj ht
  have hsome : afterColor s = some t :=
    afterColor_eq_some_iff.mpr ⟨body, hne, hbody, hs.symm⟩
  rw [h rfl] at hsome
  cases hsome

/-- **The expression deletes every code.** -/
theorem stripColors_eq_delete (text : GoString) :
    stripColors text = Matches.delete IsColorCode text := by
  -- one case for each turn: a code is found, or a character is kept
  induction text using stripColors.induct with
  | case1 =>
    rw [stripColors]
    exact Matches.delete_nil.symm
  | case2 s rest h ih =>
    obtain ⟨body, hne, hbody, rfl⟩ := afterColor_eq_some_iff.mp h
    have hcode : IsColorCode ('\x1b' :: (body ++ ['m'])) := ⟨body, hne, hbody, rfl⟩
    have hsplit : '\x1b' :: (body ++ 'm' :: rest) = '\x1b' :: (body ++ ['m']) ++ rest := by
      rw [List.cons_append, List.append_assoc]
      rfl
    have hstrip : stripColors ('\x1b' :: (body ++ 'm' :: rest)) = stripColors rest := by
      rw [stripColors, if_pos rfl]
      split
      · rename_i r hr
        rw [h] at hr
        rw [Option.some.inj hr]
      · rename_i hr
        rw [h] at hr
        cases hr
    rw [hstrip, ih, hsplit, Matches.delete_append marked_isColorCode hcode]
  | case3 s h ih =>
    have hstrip : stripColors ('\x1b' :: s) = '\x1b' :: stripColors s := by
      rw [stripColors, if_pos rfl]
      split
      · rename_i r hr
        rw [h] at hr
        cases hr
      · rfl
    rw [hstrip, ih, Matches.delete_cons (not_prefix_of_afterColor fun _ => h)]
  | case4 c s hc ih =>
    rw [stripColors, if_neg hc, ih,
      Matches.delete_cons (not_prefix_of_afterColor fun h => absurd h hc)]

/-! ## The first line -/

/-- A text that does not begin with a newline is cut at the first one. -/
theorem centerText_of_head {text : GoString} (h : text.head? ≠ some '\n') :
    centerText text = stripColors (firstLineOf text) ++ fromNewline text := by
  have hsplit : firstLineOf text ++ fromNewline text = text :=
    List.takeWhile_append_dropWhile
  have hdrop : text.drop (firstLineOf text).length = fromNewline text := by
    have h : (firstLineOf text ++ fromNewline text).drop (firstLineOf text).length
        = fromNewline text := List.drop_left
    rw [hsplit] at h
    exact h
  show (if 0 < (firstLineOf text).length ∧ (firstLineOf text).length < text.length then
      stripColors (firstLineOf text) ++ text.drop (firstLineOf text).length
    else stripColors text) = _
  split
  · rw [hdrop]
  · rename_i hcut
    -- there is no newline, or the text is empty
    have hrest : fromNewline text = [] := by
      cases text with
      | nil => rfl
      | cons c text =>
        have hc : (c != '\n') = true := by
          simpa using fun hc : c = '\n' => h (congrArg some hc)
        have hpos : 0 < (firstLineOf (c :: text)).length := by
          rw [firstLineOf, List.takeWhile_cons, if_pos hc]
          exact Nat.succ_pos _
        have hle : (c :: text).length ≤ (firstLineOf (c :: text)).length :=
          not_lt.mp fun hlt => hcut ⟨hpos, hlt⟩
        rw [← hdrop]
        exact List.drop_eq_nil_of_le hle
    rw [hrest, List.append_nil] at hsplit
    rw [hrest, hsplit, List.append_nil]

/-- A text that begins with a newline is not cut. -/
theorem centerText_newline (text : GoString) :
    centerText ('\n' :: text) = stripColors ('\n' :: text) := rfl

/-- **The colour codes are taken off the first line, and off no other,
exactly where the text does not begin with a newline or has no code.** -/
theorem center_first_line_iff (text : GoString) :
    centerText text = Matches.delete IsColorCode (firstLineOf text) ++ fromNewline text
      ↔ (text.head? = some '\n' → ∀ w, IsColorCode w → ¬ w <:+: text) := by
  by_cases hhead : text.head? = some '\n'
  · obtain ⟨rest, rfl⟩ : ∃ rest, text = '\n' :: rest := by
      cases text with
      | nil => cases hhead
      | cons c rest => exact ⟨rest, by rw [Option.some.inj hhead]⟩
    have hfirst : firstLineOf ('\n' :: rest) = [] := rfl
    have hfrom : fromNewline ('\n' :: rest) = '\n' :: rest := rfl
    rw [centerText_newline, stripColors_eq_delete, hfirst, hfrom, Matches.delete_nil,
      List.nil_append, Matches.delete_eq_self_iff isColorCode_ne_nil]
    exact ⟨fun h _ => h, fun h => h hhead⟩
  · refine iff_of_true ?_ (fun h => absurd h hhead)
    rw [centerText_of_head hhead, stripColors_eq_delete]

/-- A tail whose first line is empty loses the colour of its second. -/
theorem center_second_line :
    Matches.delete IsColorCode (firstLineOf "\n\x1b[31mred".toList)
        ++ fromNewline "\n\x1b[31mred".toList = "\n\x1b[31mred".toList
    ∧ centerText "\n\x1b[31mred".toList = "\nred".toList := by
  refine ⟨rfl, ?_⟩
  rw [show "\n\x1b[31mred".toList = '\n' :: '\x1b' :: "[31mred".toList from rfl,
    centerText_newline, stripColors, if_neg (by decide), stripColors, if_pos rfl]
  split
  · rename_i rest hrest
    obtain rfl : "red".toList = rest := Option.some.inj hrest
    simp [stripColors]
  · rename_i hnone
    cases hnone

namespace DirCat

/-- **What `drawCenter` writes to its window** is that text. -/
theorem drawCenter_writes {s : DirCat} {v : View} (hv : s.center = some v) (hs : s.Selects)
    (text : GoString) (maxX maxY : ℤ) :
    s.drawCenter (some text) maxX maxY
      = (flush maxX maxY { s with center := some (View.clear.write (centerText text)) }).map
        Prod.fst := by
  obtain ⟨file, hfile⟩ := hs.exists_fileAt .selectedFile
  rw [drawCenter, hv]
  show (fileAt s.files s.fileOffset .selectedFile).bind _ = _
  rw [hfile]
  show (flush maxX maxY _).bind _ = _
  cases flush maxX maxY { s with center := some (View.clear.write (centerText text)) } <;> rfl

end DirCat
