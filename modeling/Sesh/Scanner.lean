import Mathlib.Algebra.Ring.Nat
import Mathlib.Data.List.Basic
import Mathlib.Data.List.TakeWhile
import Mathlib.Tactic.Basic

/-!
# Scanning lines

A line scanner cuts a text at its newlines, takes one carriage return off
the end of each line, and does not report an empty line after the last
newline. Its buffer is bounded: a line that does not fit ends the scan, and
nothing of it or after it is reported. The text may be of bytes or of
characters, so the size of a symbol in the buffer is a parameter.

A scan may also begin in the middle of a text, and then only its first
result counts (`LineFormat.scan`): the rest of the line it begins in, or
nothing where that does not fit. A text is the lines that end in a newline,
one after the other, and what follows the last newline
(`LineFormat.exists_ends`), which is how what is said about lines is brought
to positions.
-/

/-- **A line format**: the symbols that end a line, how much of the buffer a
symbol takes, and how much of it there is. -/
structure LineFormat (α : Type*) where
  /-- The symbol a line ends in. -/
  newline : α
  /-- The symbol that is dropped before it. -/
  carriage : α
  /-- The room a symbol takes in the buffer. -/
  size : α → ℕ
  /-- The size of the buffer. -/
  limit : ℕ

namespace LineFormat

variable {α : Type*} [DecidableEq α] (F : LineFormat α)

/-- The room a line takes in the buffer, its newline left out. -/
def width (l : List α) : ℕ := (l.map F.size).sum

/-- A line without the carriage return at its end. -/
def dropCarriage (l : List α) : List α :=
  if l.getLast? = some F.carriage then l.dropLast else l

/-- The lines of a text as they stand in it. -/
def rawLines (p : List α) : List (List α) :=
  if (p.splitOn F.newline).getLast? = some [] then (p.splitOn F.newline).dropLast
  else p.splitOn F.newline

/-- **The lines a scan reports**: up to the first one that does not fit the
buffer with its newline. -/
def lines (p : List α) : List (List α) :=
  ((F.rawLines p).takeWhile (fun l => F.width l < F.limit)).map F.dropCarriage

/-- **What the first call of a new scanner yields**, nothing where it
fails. -/
def scan (p : List α) : List α := (F.lines p).headD []

/-- What a text holds before its first newline. -/
def firstLine (p : List α) : List α := p.takeWhile (fun c => decide (c ≠ F.newline))

/-- A text of lines that all end in a newline. -/
def ends (ls : List (List α)) : List α := ls.flatMap (· ++ [F.newline])

/-- The lines of a text that end in a newline. -/
def ended (p : List α) : List (List α) := (p.splitOn F.newline).dropLast

/-- What follows the last newline of a text. -/
def unended (p : List α) : List α := (p.splitOn F.newline).getLastD []

/-- A text with a carriage return before each newline. -/
def crlf (p : List α) : List α :=
  p.flatMap (fun c => if c = F.newline then [F.carriage, F.newline] else [c])

variable {F}

theorem rawLines_concat_newline {l : List α} (hn : F.newline ∉ l) :
    F.rawLines (l ++ [F.newline]) = [l] := by
  have hsplit : (l ++ [F.newline]).splitOn F.newline = [l, []] := by
    rw [List.splitOn_append_cons_self, List.splitOn_eq_singleton hn, List.splitOn_nil]
    rfl
  rw [rawLines, hsplit]
  rfl

theorem dropCarriage_of_notMem {l : List α} (hc : F.carriage ∉ l) :
    F.dropCarriage l = l :=
  if_neg fun h => hc (List.mem_of_getLast? h)

/-- **A single line is reported as it is**, where it fits and does not end
in a carriage return. -/
theorem lines_concat_newline {l : List α} (hn : F.newline ∉ l) (hc : F.carriage ∉ l)
    (hw : F.width l < F.limit) : F.lines (l ++ [F.newline]) = [l] := by
  rw [lines, rawLines_concat_newline hn, List.takeWhile_cons_of_pos (by simpa using hw),
    List.takeWhile_nil, List.map_singleton, dropCarriage_of_notMem hc]

/-! ## The first result -/

theorem dropCarriage_concat (l : List α) : F.dropCarriage (l ++ [F.carriage]) = l := by
  rw [dropCarriage, if_pos List.getLast?_concat, List.dropLast_concat]

theorem rawLines_append_newline {l : List α} (hn : F.newline ∉ l) (rest : List α) :
    F.rawLines (l ++ F.newline :: rest) = l :: F.rawLines rest := by
  have hne := List.splitOn_ne_nil F.newline rest
  rw [rawLines, List.splitOn_append_cons_self, List.splitOn_eq_singleton hn,
    List.getLast?_append_of_ne_nil _ hne, List.dropLast_append_of_ne_nil hne, rawLines]
  split <;> rfl

theorem firstLine_append {l : List α} (hn : F.newline ∉ l) (rest : List α) :
    F.firstLine (l ++ rest) = l ++ F.firstLine rest := by
  refine List.takeWhile_append_of_pos fun c hc => decide_eq_true ?_
  rintro rfl
  exact hn hc

theorem firstLine_append_newline {l : List α} (hn : F.newline ∉ l) (rest : List α) :
    F.firstLine (l ++ F.newline :: rest) = l := by
  rw [firstLine_append hn, firstLine, List.takeWhile_cons_of_neg (by simp), List.append_nil]

theorem firstLine_of_notMem {l : List α} (hn : F.newline ∉ l) : F.firstLine l = l := by
  have h := firstLine_append hn []
  rw [List.append_nil] at h
  exact h.trans (List.append_nil l)

theorem newline_notMem_firstLine (p : List α) : F.newline ∉ F.firstLine p := by
  intro hmem
  exact absurd (List.mem_takeWhile_imp hmem) (by simp)

theorem rawLines_of_notMem {l : List α} (hn : F.newline ∉ l) :
    F.rawLines l = if l = [] then [] else [l] := by
  rw [rawLines, List.splitOn_eq_singleton hn]
  exact if_congr (by simp) rfl rfl

theorem length_firstLine_le (l rest : List α) :
    (F.firstLine (l ++ F.newline :: rest)).length ≤ l.length := by
  induction l with
  | nil => exact Nat.le_of_eq (congrArg List.length (firstLine_append_newline (by simp) rest))
  | cons c l ih =>
    rw [List.cons_append, firstLine, List.takeWhile_cons]
    split
    · exact Nat.succ_le_succ ih
    · exact Nat.zero_le _

theorem firstLine_mem_rawLines {p : List α} (h : F.firstLine p ≠ []) :
    F.firstLine p ∈ F.rawLines p := by
  by_cases hmem : F.newline ∈ p
  · obtain ⟨l, rest, rfl, hl⟩ := List.eq_append_cons_of_mem hmem
    rw [rawLines_append_newline hl, firstLine_append_newline hl]
    exact List.mem_cons_self
  · rw [firstLine_of_notMem hmem] at h ⊢
    rw [rawLines_of_notMem hmem, if_neg h]
    exact List.mem_singleton_self p

/-- **What a scan yields**: the line it begins in from there on, if it
fits. -/
theorem scan_eq (p : List α) :
    F.scan p = if F.width (F.firstLine p) < F.limit then F.dropCarriage (F.firstLine p)
      else [] := by
  obtain ⟨ls, hraw⟩ : ∃ ls, F.rawLines p = F.firstLine p :: ls ∨ p = [] := by
    by_cases hmem : F.newline ∈ p
    · obtain ⟨l, rest, rfl, hl⟩ := List.eq_append_cons_of_mem hmem
      exact ⟨_, Or.inl (by rw [rawLines_append_newline hl, firstLine_append_newline hl])⟩
    · refine ⟨[], ?_⟩
      rw [rawLines_of_notMem hmem, firstLine_of_notMem hmem]
      by_cases hp : p = []
      · exact Or.inr hp
      · exact Or.inl (if_neg hp)
  rcases hraw with hraw | rfl
  · rw [scan, lines, hraw, List.takeWhile_cons]
    by_cases hw : F.width (F.firstLine p) < F.limit
    · rw [if_pos hw, if_pos (decide_eq_true hw)]
      rfl
    · rw [if_neg hw, if_neg (by simpa using hw)]
      rfl
  · exact (ite_self _).symm

theorem scan_of_notMem_carriage {p : List α} (hc : F.carriage ∉ F.firstLine p)
    (hw : F.width (F.firstLine p) < F.limit) : F.scan p = F.firstLine p := by
  rw [scan_eq, if_pos hw, dropCarriage_of_notMem hc]

theorem width_dropCarriage_le (l : List α) : F.width (F.dropCarriage l) ≤ F.width l := by
  unfold dropCarriage
  split
  · rcases List.eq_nil_or_concat l with rfl | ⟨l', c, rfl⟩
    · exact le_refl _
    · unfold width
      rw [List.concat_eq_append, List.dropLast_concat, List.map_append, List.sum_append]
      exact Nat.le_add_right _ _
  · exact le_refl _

/-- What is yielded fits the buffer. -/
theorem width_scan_lt (h : 0 < F.limit) (p : List α) : F.width (F.scan p) < F.limit := by
  rw [scan]
  cases hlines : F.lines p with
  | nil => exact h
  | cons l ls =>
    have hmem : l ∈ F.lines p := hlines ▸ List.mem_cons_self
    obtain ⟨r, hr, rfl⟩ := List.mem_map.mp hmem
    have hwidth : F.width r < F.limit := by simpa using List.mem_takeWhile_imp hr
    exact lt_of_le_of_lt (width_dropCarriage_le r) hwidth

/-! ## Lines and what follows them -/

section

omit [DecidableEq α]

theorem ends_cons (l : List α) (ls : List (List α)) :
    F.ends (l :: ls) = l ++ F.newline :: F.ends ls := by
  rw [ends, List.flatMap_cons, List.append_assoc]
  rfl

theorem ends_cons_append (l : List α) (ls : List (List α)) (r : List α) :
    F.ends (l :: ls) ++ r = l ++ F.newline :: (F.ends ls ++ r) := by
  rw [ends_cons, List.append_assoc]
  rfl

theorem ends_append (ls ls' : List (List α)) : F.ends (ls ++ ls') = F.ends ls ++ F.ends ls' :=
  List.flatMap_append

end

/-- The pieces of a text, each with a newline, are the text with one. -/
theorem ends_splitOn (p : List α) : F.ends (p.splitOn F.newline) = p ++ [F.newline] := by
  have hjoin : ∀ ls : List (List α), ls ≠ [] →
      F.ends ls = [F.newline].intercalate ls ++ [F.newline] := by
    intro ls hne
    induction ls with
    | nil => exact absurd rfl hne
    | cons l ls ih =>
      cases ls with
      | nil => rw [ends_cons, List.intercalate_singleton]; rfl
      | cons l' ls =>
        rw [ends_cons, ih (List.cons_ne_nil l' ls), List.intercalate_cons_cons]
        simp
  rw [hjoin _ (List.splitOn_ne_nil _ _), List.intercalate_splitOn]

/-- The lines of a text after lines that end in a newline. -/
theorem rawLines_ends_append {ls : List (List α)} (hls : ∀ l ∈ ls, F.newline ∉ l)
    (p : List α) : F.rawLines (F.ends ls ++ p) = ls ++ F.rawLines p := by
  induction ls with
  | nil => rfl
  | cons l ls ih =>
    obtain ⟨hl, hls⟩ := List.forall_mem_cons.mp hls
    rw [ends_cons_append, rawLines_append_newline hl, ih hls]
    rfl

theorem splitOn_ends {ls : List (List α)} (hls : ∀ l ∈ ls, F.newline ∉ l) {r : List α}
    (hr : F.newline ∉ r) : (F.ends ls ++ r).splitOn F.newline = ls ++ [r] := by
  induction ls with
  | nil => exact List.splitOn_eq_singleton hr
  | cons l ls ih =>
    obtain ⟨hl, hls⟩ := List.forall_mem_cons.mp hls
    rw [ends_cons_append, List.splitOn_append_cons_self, List.splitOn_eq_singleton hl, ih hls]
    rfl

/-- **A text is cut into its lines in one way.** -/
theorem exists_ends (p : List α) :
    ∃ ls r, (∀ l ∈ ls, F.newline ∉ l) ∧ F.newline ∉ r ∧ p = F.ends ls ++ r := by
  induction p with
  | nil => exact ⟨[], [], fun _ h => absurd h List.not_mem_nil, List.not_mem_nil, rfl⟩
  | cons c p ih =>
    obtain ⟨ls, r, hls, hr, rfl⟩ := ih
    by_cases hc : c = F.newline
    · refine ⟨[] :: ls, r, List.forall_mem_cons.mpr ⟨List.not_mem_nil, hls⟩, hr, ?_⟩
      rw [ends_cons_append, hc]
      rfl
    · cases ls with
      | nil =>
        exact ⟨[], c :: r, hls, List.not_mem_cons_of_ne_of_not_mem (Ne.symm hc) hr, rfl⟩
      | cons l ls =>
        obtain ⟨hl, hls⟩ := List.forall_mem_cons.mp hls
        have hcl := List.not_mem_cons_of_ne_of_not_mem (Ne.symm hc) hl
        refine ⟨(c :: l) :: ls, r, List.forall_mem_cons.mpr ⟨hcl, hls⟩, hr, ?_⟩
        rw [ends_cons_append, ends_cons_append]
        rfl

section

variable {ls : List (List α)} (hls : ∀ l ∈ ls, F.newline ∉ l) {r : List α}
  (hr : F.newline ∉ r)

include hls hr

theorem ended_ends : F.ended (F.ends ls ++ r) = ls := by
  rw [ended, splitOn_ends hls hr, List.dropLast_concat]

theorem unended_ends : F.unended (F.ends ls ++ r) = r := by
  rw [unended, splitOn_ends hls hr, List.getLastD_concat]

theorem rawLines_ends : F.rawLines (F.ends ls ++ r) = if r = [] then ls else ls ++ [r] := by
  rw [rawLines_ends_append hls, rawLines_of_notMem hr]
  split
  · exact List.append_nil ls
  · rfl

end

/-! ## Carriage returns -/

theorem crlf_append (p p' : List α) : F.crlf (p ++ p') = F.crlf p ++ F.crlf p' :=
  List.flatMap_append

theorem crlf_of_notMem {p : List α} (h : F.newline ∉ p) : F.crlf p = p := by
  have hcongr : F.crlf p = p.flatMap (fun c => [c]) := by
    refine List.flatMap_congr fun c hc => if_neg ?_
    rintro rfl
    exact h hc
  rw [hcongr, List.flatMap_singleton']

theorem carriage_mem_crlf {p : List α} (h : F.newline ∈ p) : F.carriage ∈ F.crlf p := by
  refine List.mem_flatMap.mpr ⟨F.newline, h, ?_⟩
  rw [if_pos rfl]
  exact List.mem_cons_self

theorem length_le_crlf (p : List α) : p.length ≤ (F.crlf p).length := by
  induction p with
  | nil => exact le_refl 0
  | cons c p ih =>
    have hpos : 1 ≤ (if c = F.newline then [F.carriage, F.newline] else [c]).length := by
      split <;> exact Nat.succ_le_succ (Nat.zero_le _)
    rw [crlf, List.flatMap_cons, List.length_append, List.length_cons, Nat.add_comm]
    exact Nat.add_le_add hpos ih

/-- The lines of a text with carriage returns. -/
theorem crlf_ends {ls : List (List α)} (hls : ∀ l ∈ ls, F.newline ∉ l) {r : List α}
    (hr : F.newline ∉ r) :
    F.crlf (F.ends ls ++ r) = F.ends (ls.map (· ++ [F.carriage])) ++ r := by
  induction ls with
  | nil => exact crlf_of_notMem hr
  | cons l ls ih =>
    obtain ⟨hl, hls⟩ := List.forall_mem_cons.mp hls
    have hnewline : F.crlf (F.newline :: (F.ends ls ++ r))
        = F.carriage :: F.newline :: F.crlf (F.ends ls ++ r) := by
      rw [crlf, List.flatMap_cons, if_pos rfl]
      rfl
    rw [List.map_cons, ends_cons_append, ends_cons_append, crlf_append, crlf_of_notMem hl,
      hnewline, ih hls, List.append_assoc]
    rfl

end LineFormat

/-- The lines of a text in UTF-8, in a buffer of 64 KiB. -/
def textLines : LineFormat Char where
  newline := '\n'
  carriage := '\r'
  size := Char.utf8Size
  limit := 65536
