import Mathlib.Data.List.TakeWhile
import Sesh.Scanner
import Sesh.ShellWords

/-!
# Here-documents

A here-document is text that a shell hands to a command from the lines after
it. The line of the command names a delimiter; the document goes up to the
first line that is the delimiter and nothing else, and what follows that line
is read as commands again. Where a part of the delimiter is quoted, as by the
backslash of `<<\EOF`, the lines are taken as they stand; this is the only
kind read here.

A text put between a command line and a line with the delimiter is read back
as it is, with one newline more, exactly if none of its own lines is the
delimiter (`HereDoc.read_iff`).
-/

namespace HereDoc

/-- **What is read**: the delimiter, the document, and the text that follows
the line of the delimiter. -/
structure Doc where
  delimiter : List Char
  body : List Char
  rest : List Char
  deriving DecidableEq, Repr

/-- The delimiter a command line names: the word after its first `<<\`. -/
def delimiter : List Char → Option (List Char)
  | [] => none
  | c :: s =>
    if ['<', '<', '\\'] <+: c :: s then
      some (((c :: s).drop 3).takeWhile (fun a => decide (Shell.Plain a)))
    else delimiter s

/-- The document and what follows it, from the lines after the command. -/
def readBody (delim : List Char) : List (List Char) → Option Doc
  | [] => none
  | l :: ls =>
    if l = delim then some ⟨delim, [], ['\n'].intercalate ls⟩
    else (readBody delim ls).map (fun d => { d with body := l ++ '\n' :: d.body })

/-- **A shell reads a here-document**: the command is the first line. -/
def read (text : List Char) : Option Doc :=
  match text.splitOn '\n' with
  | [] => none
  | first :: ls => (delimiter first).bind (fun delim => readBody delim ls)

/-! ## The delimiter -/

/-- **The delimiter at the end of a command line** that has no other
redirection of this kind before it. -/
theorem delimiter_append {a w : List Char} (ha : '<' ∉ a) (hw : Shell.AllPlain w) :
    delimiter (a ++ '<' :: '<' :: '\\' :: w) = some w := by
  induction a with
  | nil =>
    rw [List.nil_append, delimiter, if_pos ⟨w, rfl⟩]
    exact congrArg some (List.takeWhile_eq_self_iff.mpr fun c hc => decide_eq_true (hw c hc))
  | cons c a ih =>
    have hc : ¬ ['<', '<', '\\'] <+: c :: (a ++ '<' :: '<' :: '\\' :: w) := by
      intro hpre
      refine ha ?_
      rw [(List.cons_prefix_cons.mp hpre).1]
      exact List.mem_cons_self
    rw [List.cons_append, delimiter, if_neg hc]
    exact ih fun hmem => ha (List.mem_cons_of_mem c hmem)

/-! ## The document -/

variable {D : List Char}

/-- The lines before the first delimiter are the document. -/
theorem readBody_append {ls : List (List Char)} (h : D ∉ ls) (ls' : List (List Char)) :
    readBody D (ls ++ D :: ls') = some ⟨D, textLines.ends ls, ['\n'].intercalate ls'⟩ := by
  induction ls with
  | nil => rw [List.nil_append, readBody, if_pos rfl]; rfl
  | cons l ls ih =>
    have hne : l ≠ D := fun he => h (he ▸ List.mem_cons_self)
    rw [List.cons_append, readBody, if_neg hne, ih fun hmem => h (List.mem_cons_of_mem l hmem),
      Option.map_some, LineFormat.ends_cons]
    rfl

/-- **A document that has the delimiter among its lines is cut short.** -/
theorem length_body_lt {ls : List (List Char)} (h : D ∈ ls) (ls' : List (List Char)) :
    ∃ d, readBody D (ls ++ D :: ls') = some d ∧ d.body.length < (textLines.ends ls).length := by
  obtain ⟨a, b, rfl, ha⟩ := List.eq_append_cons_of_mem h
  refine ⟨⟨D, textLines.ends a, ['\n'].intercalate (b ++ D :: ls')⟩, ?_, ?_⟩
  · rw [List.append_assoc, List.cons_append]
    exact readBody_append ha _
  · show (textLines.ends a).length < (textLines.ends (a ++ D :: b)).length
    rw [LineFormat.ends_append, LineFormat.ends_cons, List.length_append, List.length_append,
      List.length_cons]
    omega

/-- **A here-document carries a text intact exactly if no line of it is the
delimiter.** -/
theorem read_iff {first : List Char} (hfirst : '\n' ∉ first)
    (hdelim : delimiter first = some D) (hD : '\n' ∉ D) (body rest : List Char) :
    read (first ++ '\n' :: (body ++ '\n' :: (D ++ '\n' :: rest)))
        = some ⟨D, body ++ ['\n'], rest⟩
      ↔ D ∉ body.splitOn '\n' := by
  have hsplit : (first ++ '\n' :: (body ++ '\n' :: (D ++ '\n' :: rest))).splitOn '\n'
      = first :: (body.splitOn '\n' ++ D :: rest.splitOn '\n') := by
    rw [List.splitOn_append_cons_self, List.splitOn_append_cons_self,
      List.splitOn_append_cons_self, List.splitOn_eq_singleton hfirst,
      List.splitOn_eq_singleton hD]
    rfl
  have hread : read (first ++ '\n' :: (body ++ '\n' :: (D ++ '\n' :: rest)))
      = readBody D (body.splitOn '\n' ++ D :: rest.splitOn '\n') := by
    rw [read, hsplit]
    show (delimiter first).bind _ = _
    rw [hdelim]
    rfl
  have hbody : textLines.ends (body.splitOn '\n') = body ++ ['\n'] :=
    LineFormat.ends_splitOn body
  rw [hread, ← hbody]
  constructor
  · intro h hmem
    obtain ⟨d, hd, hlt⟩ := length_body_lt hmem (rest.splitOn '\n')
    rw [hd] at h
    rw [Option.some.inj h] at hlt
    exact Nat.lt_irrefl _ hlt
  · intro h
    rw [readBody_append h, List.intercalate_splitOn]

example : read "cat <<\\E\na\n\nb\nE\nrest".toList
    = some ⟨"E".toList, "a\n\nb\n".toList, "rest".toList⟩ := by decide

end HereDoc
