import Mathlib.Data.List.DropRight
import Mathlib.Tactic.Basic
import Sesh.Runs

/-!
# Strings and paths

The functions of Go's `strings`, `unicode` and `path/filepath` packages the
program uses, over lists of characters. A separator of one character is the
only kind the program splits at or replaces, so `strings.Split` is
`List.splitOn` and `strings.Replace` is a map.

Two readings of a path are needed. `Filepath.base`, `Filepath.clean` and
`Filepath.abs` are the lexical ones of `path/filepath`, which only look at
the text. `locate` is the one of the kernel: the segments a path is walked
by, in which an empty segment and `.` go nowhere. Symbolic links and `..`
are not resolved; what is said here about files directly inside a directory
never walks either.
-/

/-- A Go string, as its characters. -/
abbrev GoString := List Char

/-- `strings.Replace(s, old, new, -1)` for one character by another. -/
def Strings.replaceChar (old new : Char) (s : GoString) : GoString :=
  s.map (fun c => if c = old then new else c)

/-- `unicode.IsSpace`. -/
def Unicode.isSpace (c : Char) : Bool :=
  c = '\t' || c = '\n' || c.val = 0x0B || c.val = 0x0C || c = '\r' || c = ' '
    || c.val = 0x85 || c.val = 0xA0 || c.val = 0x1680
    || (0x2000 ≤ c.val && c.val ≤ 0x200A) || c.val = 0x2028 || c.val = 0x2029
    || c.val = 0x202F || c.val = 0x205F || c.val = 0x3000

/-- `strings.Fields`: the maximal runs of characters other than white
space. -/
def Strings.fields (s : GoString) : List GoString :=
  (s.splitOnP Unicode.isSpace).filter (fun w => !w.isEmpty)

/-- `strings.HasSuffix`. -/
def Strings.hasSuffix (s suffix : GoString) : Bool := suffix.isSuffixOf s

/-- `strings.HasPrefix`. -/
def Strings.hasPrefix (s start : GoString) : Bool := decide (start <+: s)

/-- `strings.Contains`. -/
def Strings.contains : GoString → GoString → Bool
  | [], sub => sub.isEmpty
  | c :: s, sub => sub.isPrefixOf (c :: s) || Strings.contains s sub

/-- `strings.Replace(s, old, new, 1)`. -/
def Strings.replaceFirst (old new : GoString) : GoString → GoString
  | [] => if old = [] then new else []
  | c :: s =>
    if old <+: c :: s then new ++ (c :: s).drop old.length
    else c :: Strings.replaceFirst old new s

/-- `strings.TrimRight(s, "\n")`. -/
def Strings.trimNewlines (s : GoString) : GoString := s.rdropWhile (· = '\n')

/-- `ReadString('\n')` of a buffer that holds `s`: its first line with the
newline, or all of it. -/
def Buffer.readLine (s : GoString) : GoString :=
  s.takeWhile (· ≠ '\n') ++ (s.dropWhile (· ≠ '\n')).take 1

/-- `strings.TrimSpace`. -/
def Strings.trimSpace (s : GoString) : GoString :=
  (s.dropWhile Unicode.isSpace).rdropWhile Unicode.isSpace

/-- What stands before and after the first `sep` of a text: the parts of
`strings.SplitN(s, sep, 2)`, where it has two. -/
def Strings.cut (sep : Char) (s : GoString) : Option (GoString × GoString) :=
  if sep ∈ s then
    some (s.takeWhile (· ≠ sep), (s.dropWhile (· ≠ sep)).drop 1)
  else none

/-- What stands before and after the last `sep` of a text. -/
def Strings.lastCut (sep : Char) (s : GoString) : Option (GoString × GoString) :=
  (Strings.cut sep s.reverse).map (fun ab => (ab.2.reverse, ab.1.reverse))

/-- The text of a number, as `%d` prints it. -/
def showNat (n : ℕ) : GoString := Nat.toDigits 10 n

/-- The text of an integer, as `%d` prints it. -/
def showInt (z : ℤ) : GoString :=
  if z < 0 then '-' :: showNat z.natAbs else showNat z.natAbs

/-! ## Cutting a text -/

namespace Strings

variable {sep : Char} {s a b : GoString}

theorem cut_append_cons (ha : sep ∉ a) (b : GoString) :
    cut sep (a ++ sep :: b) = some (a, b) := by
  have hpos : ∀ c ∈ a, decide (c ≠ sep) = true := by
    intro c hc
    refine decide_eq_true ?_
    rintro rfl
    exact ha hc
  rw [cut, if_pos (by simp), List.takeWhile_append_of_pos hpos,
    List.dropWhile_append_of_pos hpos, List.takeWhile_cons_of_neg (by simp),
    List.dropWhile_cons_of_neg (by simp), List.append_nil]
  rfl

/-- A text is cut at the `sep` that has none before it. -/
theorem cut_eq_some_iff : cut sep s = some (a, b) ↔ s = a ++ sep :: b ∧ sep ∉ a := by
  constructor
  · intro h
    by_cases hmem : sep ∈ s
    · obtain ⟨a', b', rfl, ha'⟩ := List.eq_append_cons_of_mem hmem
      rw [cut_append_cons ha'] at h
      obtain ⟨rfl, rfl⟩ := Prod.mk.inj (Option.some.inj h)
      exact ⟨rfl, ha'⟩
    · rw [cut, if_neg hmem] at h
      cases h
  · rintro ⟨rfl, ha⟩
    exact cut_append_cons ha b

/-- A text is cut last at the `sep` that has none after it. -/
theorem lastCut_eq_some_iff :
    lastCut sep s = some (a, b) ↔ s = a ++ sep :: b ∧ sep ∉ b := by
  have hrev : lastCut sep s = some (a, b) ↔ cut sep s.reverse = some (b.reverse, a.reverse) := by
    rw [lastCut, Option.map_eq_some_iff]
    constructor
    · rintro ⟨⟨x, y⟩, hcut, hxy⟩
      obtain ⟨rfl, rfl⟩ := Prod.mk.inj hxy
      rw [hcut, List.reverse_reverse, List.reverse_reverse]
    · intro hcut
      exact ⟨_, hcut, by rw [List.reverse_reverse, List.reverse_reverse]⟩
  rw [hrev, cut_eq_some_iff, List.mem_reverse, List.reverse_eq_iff, List.reverse_append,
    List.reverse_reverse, List.reverse_cons, List.reverse_reverse, List.append_assoc,
    List.singleton_append]

theorem exists_lastCut (h : sep ∈ s) : ∃ a b, lastCut sep s = some (a, b) := by
  rw [lastCut, cut, if_pos (List.mem_reverse.mpr h)]
  exact ⟨_, _, rfl⟩

end Strings

/-! ## Trimming -/

/-- A text with white space at neither end is trimmed already. -/
theorem Strings.trimSpace_eq_self {s : GoString}
    (hhead : ∀ c ∈ s.head?, Unicode.isSpace c = false)
    (hlast : ∀ c ∈ s.getLast?, Unicode.isSpace c = false) : Strings.trimSpace s = s := by
  have hdrop : s.dropWhile Unicode.isSpace = s := by
    cases s with
    | nil => rfl
    | cons c s => exact List.dropWhile_cons_of_neg (by rw [hhead c rfl]; exact nofun)
  rw [Strings.trimSpace, hdrop, List.rdropWhile_eq_self_iff]
  intro hne
  rw [hlast _ (List.getLast?_eq_some_getLast hne)]
  exact nofun

/-! ## Replacing the first occurrence -/

namespace Strings

theorem contains_iff {s sub : GoString} : contains s sub = true ↔ sub <:+: s := by
  induction s with
  | nil => rw [contains, List.isEmpty_iff, List.infix_nil]
  | cons c s ih =>
    rw [contains, Bool.or_eq_true, ih, List.infix_cons_iff]
    exact or_congr_left (by simp)

/-- **`a` is what stands before the first `sub` of a text, and `b` what
follows it.** -/
structure FirstAt (sub s a b : GoString) : Prop where
  /-- The text. -/
  eq : s = a ++ sub ++ b
  /-- No occurrence begins earlier. -/
  first : ∀ a' b', s = a' ++ sub ++ b' → a.length ≤ a'.length

/-- **The first occurrence is replaced, and nothing else.** -/
theorem exists_replaceFirst {old s : GoString} (h : old <:+: s) (new : GoString) :
    ∃ a b, FirstAt old s a b ∧ replaceFirst old new s = a ++ new ++ b := by
  induction s with
  | nil =>
    obtain rfl := List.infix_nil.mp h
    exact ⟨[], [], ⟨rfl, fun _ _ _ => Nat.zero_le _⟩, (List.append_nil new).symm⟩
  | cons c s ih =>
    by_cases hpre : old <+: c :: s
    · obtain ⟨b, hb⟩ := hpre
      refine ⟨[], b, ⟨hb.symm, fun _ _ _ => Nat.zero_le _⟩, ?_⟩
      rw [replaceFirst, if_pos ⟨b, hb⟩, ← hb, List.drop_left]
      rfl
    · obtain ⟨a, b, hat, heq⟩ := ih ((List.infix_cons_iff.mp h).resolve_left hpre)
      refine ⟨c :: a, b, ⟨congrArg (c :: ·) hat.eq, fun a' b' hs => ?_⟩, ?_⟩
      · cases a' with
        | nil => exact absurd ⟨b', hs.symm⟩ hpre
        | cons c' a' => exact Nat.succ_le_succ (hat.first a' b' (List.cons.inj hs).2)
      · rw [replaceFirst, if_neg hpre, heq]
        rfl

end Strings

/-! ## Fields -/

/-- A text without white space. -/
def NoSpace (s : GoString) : Prop := ∀ c ∈ s, Unicode.isSpace c = false

instance : DecidablePred NoSpace :=
  fun _ => List.decidableBAll (fun c => Unicode.isSpace c = false) _

theorem noSpace_nil : NoSpace [] := fun _ hc => absurd hc List.not_mem_nil

theorem noSpace_append {s t : GoString} : NoSpace (s ++ t) ↔ NoSpace s ∧ NoSpace t :=
  List.forall_mem_append

theorem noSpace_cons {c : Char} {s : GoString} :
    NoSpace (c :: s) ↔ Unicode.isSpace c = false ∧ NoSpace s :=
  List.forall_mem_cons

namespace Strings

theorem fields_append_cons (s t : GoString) {c : Char} (hc : Unicode.isSpace c = true) :
    fields (s ++ c :: t) = fields s ++ fields t :=
  Runs.tokens_append_cons s t hc

/-- A text without white space is its own field. -/
theorem fields_of_noSpace {s : GoString} (hne : s ≠ []) (hs : NoSpace s) :
    fields s = [s] :=
  Runs.tokens_of_free hne hs

/-- No field has white space in it. -/
theorem noSpace_of_mem_fields {s w : GoString} (hw : w ∈ fields s) : NoSpace w :=
  Runs.free_of_mem_tokens hw

end Strings

/-! ## Paths -/

/-- The segments of a path, between its slashes. -/
def segments (p : GoString) : List GoString := p.splitOn '/'

/-- The last segment of a path: what follows its last slash. -/
def lastSegment (p : GoString) : GoString := (segments p).getLastD []

/-- `filepath.Base`. -/
def Filepath.base (p : GoString) : GoString :=
  if p = [] then ['.']
  else
    let last := lastSegment (p.rdropWhile (· == '/'))
    if last = [] then ['/'] else last

/-- One segment of `filepath.Clean`, over the cleaned segments so far, last
one first. -/
def Filepath.cleanSegment (rooted : Bool) (done : List GoString) (s : GoString) :
    List GoString :=
  if s = [] ∨ s = ['.'] then done
  else if s = ['.', '.'] then
    match done with
    | [] => if rooted then [] else [s]
    | t :: rest => if t = ['.', '.'] then s :: done else rest
  else s :: done

/-- `filepath.Clean`. -/
def Filepath.clean (p : GoString) : GoString :=
  let rooted := p.head? == some '/'
  let body := ['/'].intercalate
    ((segments p).foldl (Filepath.cleanSegment rooted) []).reverse
  if rooted then '/' :: body else if body = [] then ['.'] else body

/-- `filepath.Abs` in the working directory `wd`. -/
def Filepath.abs (wd p : GoString) : GoString :=
  if p.head? = some '/' then Filepath.clean p else Filepath.clean (wd ++ '/' :: p)

/-- **The segments a path is walked by**: an empty segment and `.` stay in
the directory reached so far. -/
def locate (p : GoString) : List GoString :=
  (segments p).filter (fun s => s ≠ [] ∧ s ≠ ['.'])

/-- A segment that can be the name of a file: not empty, not `.`, not
`..`. -/
def IsFileName (n : GoString) : Prop := n ≠ [] ∧ n ≠ ['.'] ∧ n ≠ ['.', '.']

instance : DecidablePred IsFileName :=
  fun _ => inferInstanceAs (Decidable (_ ∧ _ ∧ _))

theorem segments_append_slash (p q : GoString) :
    segments (p ++ '/' :: q) = segments p ++ segments q :=
  List.splitOn_append_cons_self p q

theorem segments_of_notMem {p : GoString} (h : '/' ∉ p) : segments p = [p] :=
  List.splitOn_eq_singleton h

theorem segments_ne_nil (p : GoString) : segments p ≠ [] :=
  List.splitOn_ne_nil _ _

/-- Walking a path under a directory is walking the directory first. -/
theorem locate_append_slash (p q : GoString) :
    locate (p ++ '/' :: q) = locate p ++ locate q := by
  unfold locate
  rw [segments_append_slash, List.filter_append]

/-- The last segment of a path under a directory is its own. -/
theorem lastSegment_append_slash (p q : GoString) :
    lastSegment (p ++ '/' :: q) = lastSegment q := by
  unfold lastSegment
  rw [segments_append_slash, List.getLastD_eq_getLast?,
    List.getLastD_eq_getLast?,
    List.getLast?_append_of_ne_nil _ (segments_ne_nil q)]

/-- A name without a slash is its own last segment. -/
theorem lastSegment_of_notMem {p : GoString} (h : '/' ∉ p) :
    lastSegment p = p := by
  rw [lastSegment, segments_of_notMem h]
  rfl

/-- A file name is a segment that is walked. -/
theorem filter_of_isFileName {n : GoString} (hn : IsFileName n) :
    [n].filter (fun s => s ≠ [] ∧ s ≠ ['.']) = [n] :=
  List.filter_cons_of_pos (decide_eq_true ⟨hn.1, hn.2.1⟩)

/-- A file name without a slash is walked in one step. -/
theorem locate_of_notMem {p : GoString} (h : '/' ∉ p) (hp : IsFileName p) :
    locate p = [p] := by
  rw [locate, segments_of_notMem h, filter_of_isFileName hp]

/-- A path is what follows its last slash, or ends in a slash and what
follows it. -/
theorem exists_lastSegment (p : GoString) :
    ∃ a b, '/' ∉ b ∧ (p = b ∨ p = a ++ '/' :: b) := by
  induction p with
  | nil => exact ⟨[], [], List.not_mem_nil, Or.inl rfl⟩
  | cons c p ih =>
    obtain ⟨a, b, hb, rfl | rfl⟩ := ih
    · by_cases hc : c = '/'
      · exact ⟨[], p, hb, Or.inr (by rw [hc]; rfl)⟩
      · exact ⟨[], c :: p, by simp [Ne.symm hc, hb], Or.inl rfl⟩
    · exact ⟨c :: a, b, hb, Or.inr rfl⟩

/-- A suffix without a slash lengthens the last segment only. -/
theorem segments_append_of_notMem (p : GoString) {q : GoString} (hq : '/' ∉ q) :
    segments (p ++ q) = (segments p).dropLast ++ [lastSegment p ++ q] := by
  obtain ⟨a, b, hb, rfl | rfl⟩ := exists_lastSegment p
  · rw [lastSegment_of_notMem hb, segments_of_notMem hb,
      segments_of_notMem (by simp [hb, hq])]
    rfl
  · have hbq : '/' ∉ b ++ q := by simp [hb, hq]
    rw [lastSegment_append_slash, lastSegment_of_notMem hb,
      segments_append_slash, segments_of_notMem hb, List.dropLast_concat,
      List.append_assoc, List.cons_append, segments_append_slash,
      segments_of_notMem hbq]
