import Mathlib.Algebra.Order.Group.Int
import Sesh.Scanner
import Sesh.Text

/-!
# The view of a batch

The live view shows two windows (`dir_cat.go`): on the right the list of
the files it was given, with an arrow before the one selected, and on the
left the tail of that one. Its state is three variables of the package –
the files, the file selected, and the first file shown on the right – and
the two windows, which `gocui` keeps as lists of lines.

The files are those of the arguments of `Init` that exist and are not
directories, and it may be that none is. The handlers of the keys and the
function that draws the tail take for granted that there is one:
`view_indices_safe_iff` says that they never divide by zero or select a
file out of range exactly when there is.
-/

/-! ## Windows -/

/-- **A window of `gocui`**: its lines. (Where it is on the screen is not
modelled.) -/
@[ext] structure View where
  /-- The internal buffer. -/
  lines : List GoString
  deriving DecidableEq, Repr

namespace View

/-- `newView`, and `Clear`: no lines. -/
def clear : View := ⟨[]⟩

/-- `Write`: the lines of the text are added. -/
def write (v : View) (p : GoString) : View := ⟨v.lines ++ textLines.lines p⟩

/-- `fmt.Fprintln` on a window. -/
def fprintln (v : View) (text : GoString) : View :=
  v.write (text ++ ['\n'])

end View

/-- The error of a window that cannot be placed. -/
inductive GuiError
  | invalidDimensions
  deriving DecidableEq, Repr

/-- `SetView`: the window, and whether it is new. -/
def setView (v : Option View) (x0 y0 x1 y1 : ℤ) : Except GuiError (View × Bool) :=
  if x0 ≥ x1 ∨ y0 ≥ y1 then .error .invalidDimensions
  else
    match v with
    | some v => .ok (v, false)
    | none => .ok (View.clear, true)

/-! ## The state and the handlers -/

/-- The ways in which the view can panic: a modulo by zero, an access to the
selected file out of range, or one in the first paint. -/
inductive DirCatPanic
  | divideByZero
  | selectedFile
  | firstPaint
  deriving DecidableEq, Repr

/-- **The state of the view.** -/
structure DirCat where
  /-- The files shown. -/
  files : List GoString
  /-- The file selected. -/
  fileOffset : ℤ
  /-- The first file shown. -/
  windowOffset : ℤ
  /-- The width of the terminal. -/
  maxX : ℤ
  /-- The height of the terminal. -/
  maxY : ℤ
  /-- The window of the tail, once there is one. -/
  center : Option View
  /-- The window of the files, once there is one. -/
  side : Option View
  deriving DecidableEq, Repr

/-- `Padding`. -/
def padding : ℤ := 1

/-- `PrefixEmpty`. -/
def prefixEmpty : GoString := "   ".toList

/-- `PrefixArrow`. -/
def prefixArrow : GoString := "=> ".toList

/-- The row of a file. -/
def fileRow (selected : Bool) (file : GoString) : GoString :=
  (if selected then prefixArrow else prefixEmpty) ++ Filepath.base file

/-- `a % b`, which panics where `b` is zero. -/
def goMod (a b : ℤ) : Except DirCatPanic ℤ :=
  if b = 0 then .error .divideByZero else .ok (a.tmod b)

/-- `files[i]`, which panics out of range. -/
def fileAt (files : List GoString) (i : ℤ) (p : DirCatPanic) :
    Except DirCatPanic GoString :=
  if 0 ≤ i then
    match files[i.toNat]? with
    | some f => .ok f
    | none => .error p
  else .error p

/-- The digits and brackets of a colour code. -/
def isColorChar (c : Char) : Bool := c = '[' || c.isDigit

/-- What follows a colour code whose first character has been read, if
there is one. -/
def afterColor (s : GoString) : Option GoString :=
  if s.takeWhile isColorChar = [] then none
  else
    match s.dropWhile isColorChar with
    | 'm' :: rest => some rest
    | _ => none

theorem length_afterColor {s rest : GoString} (h : afterColor s = some rest) :
    rest.length < s.length := by
  unfold afterColor at h
  split at h
  · cases h
  · split at h
    · rename_i r hr
      obtain rfl := Option.some.inj h
      have hle := List.length_dropWhile_le isColorChar s
      rw [hr, List.length_cons] at hle
      omega
    · cases h

/-- `ReplaceAllString` with nothing, for the expression `\033[[0-9]+m`. -/
def stripColors : GoString → GoString
  | [] => []
  | c :: s =>
    if c = '\x1b' then
      match _h : afterColor s with
      | some rest => stripColors rest
      | none => c :: stripColors s
    else c :: stripColors s
termination_by s => s.length
decreasing_by
  · have := length_afterColor _h
    rw [List.length_cons]
    omega
  · exact Nat.lt_succ_self _
  · exact Nat.lt_succ_self _

/-- The text `drawCenter` shows for a tail: colour codes are taken off its
first line. -/
def centerText (text : GoString) : GoString :=
  let line := text.takeWhile (· != '\n')
  if 0 < line.length ∧ line.length < text.length then
    stripColors line ++ text.drop line.length
  else stripColors text

namespace DirCat

/-- **What the disk says of a path**: whether it is a file, and that a file
has a name the file system can hold. -/
structure FileStat where
  /-- The working directory. -/
  wd : GoString
  /-- `os.Stat` succeeds, and it is not a directory. -/
  isFile : GoString → Bool
  /-- The name of a file has at most 255 bytes. -/
  name_le : ∀ p, isFile p = true →
    textLines.width (Filepath.base (Filepath.abs wd p)) ≤ 255

/-- A disk with the given files on it. -/
def FileStat.ofFiles (wd : GoString) (files : List GoString)
    (h : ∀ p ∈ files, textLines.width (Filepath.base (Filepath.abs wd p)) ≤ 255) :
    FileStat where
  wd := wd
  isFile p := decide (p ∈ files)
  name_le p hp := h p (of_decide_eq_true hp)

/-- `Init`, on a terminal of the given size. -/
def init (st : FileStat) (filelist : List GoString) (maxX maxY : ℤ) : DirCat where
  files := (filelist.filter st.isFile).map (Filepath.abs st.wd)
  fileOffset := 0
  windowOffset := 0
  maxX := maxX
  maxY := maxY
  center := none
  side := none

/-- The first file `drawSide` shows. -/
def sideWindow (s : DirCat) (fOffset : ℤ) : ℤ :=
  if fOffset < s.windowOffset then fOffset
  else if fOffset ≥ s.windowOffset + (s.maxY - 2 * padding) then
    fOffset - (s.maxY - 2 * padding) + 1
  else s.windowOffset

/-- The rows from `window` to `stop`, the one of `fOffset` with the arrow. -/
def sideRows (files : List GoString) (window stop fOffset : ℤ) (v : View) : View :=
  files.zipIdx.foldl (fun v fi =>
    if (fi.2 : ℤ) < window ∨ (fi.2 : ℤ) ≥ stop then v
    else v.fprintln (fileRow (decide ((fi.2 : ℤ) = fOffset)) fi.1)) v

/-- `drawSide`. -/
def drawSide (s : DirCat) (fOffset : ℤ) : DirCat :=
  let window := s.sideWindow fOffset
  let stop := s.maxY - 2 * padding + window
  let stop := if (s.files.length : ℤ) < stop then (s.files.length : ℤ) else stop
  { s with
    windowOffset := window
    side := some (sideRows s.files window stop fOffset View.clear) }

/-- `nexOne` and `prevOne`, which move the selection by one. -/
def moveSelection (move : ℤ) (s : DirCat) : Except DirCatPanic DirCat :=
  match s.side with
  | none => .ok s
  | some _ => do
    let off ← goMod (s.fileOffset + move + s.files.length) s.files.length
    .ok ({ s with fileOffset := off }.drawSide off)

/-- `nexOne`. -/
def nexOne : DirCat → Except DirCatPanic DirCat := moveSelection 1

/-- `prevOne`. -/
def prevOne : DirCat → Except DirCatPanic DirCat := moveSelection (-1)

/-- One turn of the loop of `layout` over the first rows. -/
def paintRow (files : List GoString) (v : View) (i : ℕ) : Except DirCatPanic View := do
  let f ← fileAt files i .firstPaint
  .ok (v.fprintln (fileRow (decide (i = 0)) f))

/-- The rows `layout` puts in a new window of the files. -/
def firstPaint (files : List GoString) (maxY : ℤ) (v : View) :
    Except DirCatPanic View :=
  let height := if maxY - 2 * padding > files.length then (files.length : ℤ) else maxY
  (List.range height.toNat).foldlM (paintRow files) v

/-- `layout`, with the error it returns. -/
def layout (s : DirCat) : Except DirCatPanic (DirCat × Option GuiError) :=
  match setView s.center 0 0 ((s.maxX * 4).tdiv 5) (s.maxY - padding) with
  | .error e => .ok (s, some e)
  | .ok (c, _) =>
    match setView s.side ((s.maxX * 4).tdiv 5 + 1) 0 (s.maxX - padding)
        (s.maxY - padding) with
    | .error e => .ok ({ s with center := some c }, some e)
    | .ok (v, false) => .ok ({ s with center := some c, side := some v }, none)
    | .ok (v, true) => do
      let v ← firstPaint s.files s.maxY v
      .ok ({ s with center := some c, side := some v }, none)

/-- `Flush`, on a terminal that now has the given size. (What it puts on the
screen is not modelled.) -/
def flush (maxX maxY : ℤ) (s : DirCat) :
    Except DirCatPanic (DirCat × Option GuiError) :=
  layout { s with maxX := maxX, maxY := maxY }

/-- `drawCenter`, where `TailFile` returns `tail` (`none` for an error) and
the terminal has the given size when `Flush` looks. -/
def drawCenter (tail : Option GoString) (maxX maxY : ℤ) (s : DirCat) :
    Except DirCatPanic DirCat :=
  match s.center with
  | none => .ok s
  | some _ => do
    let file ← fileAt s.files s.fileOffset .selectedFile
    let text := match tail with
      | some text => centerText text
      | none => "------ failed to read from ".toList ++ Filepath.base file
          ++ " ------\n".toList
    let r ← flush maxX maxY { s with center := some (View.clear.write text) }
    .ok r.1

/-- What happens to the view: a key, a redraw of `MainLoop`, or a tick. -/
inductive Event
  | nexOne
  | prevOne
  | flush (maxX maxY : ℤ)
  | drawCenter (tail : Option GoString) (maxX maxY : ℤ)
  deriving DecidableEq, Repr

/-- What an event does. -/
def step (s : DirCat) : Event → Except DirCatPanic DirCat
  | .nexOne => s.nexOne
  | .prevOne => s.prevOne
  | .flush maxX maxY => (s.flush maxX maxY).map Prod.fst
  | .drawCenter tail maxX maxY => s.drawCenter tail maxX maxY

/-- What a sequence of events does. -/
def run (s : DirCat) (es : List Event) : Except DirCatPanic DirCat := es.foldlM step s

/-! ## What the events do to the selection -/

/-- **The selected file is one of the files.** -/
def Selects (s : DirCat) : Prop := 0 ≤ s.fileOffset ∧ s.fileOffset < s.files.length

/-- A state with the same files, the same selection and the same first file
shown, and the window of the files unchanged if there was one. -/
structure SameSelection (s s' : DirCat) : Prop where
  /-- The files. -/
  files_eq : s'.files = s.files
  /-- The file selected. -/
  fileOffset_eq : s'.fileOffset = s.fileOffset
  /-- The first file shown. -/
  windowOffset_eq : s'.windowOffset = s.windowOffset
  /-- The window of the files. -/
  side_eq : s.side ≠ none → s'.side = s.side

theorem SameSelection.selects {s s' : DirCat} (h : SameSelection s s')
    (hs : s.Selects) : s'.Selects := by
  unfold Selects
  rw [h.files_eq, h.fileOffset_eq]
  exact hs

/-- The first paint panics on its own accesses only. -/
theorem firstPaint_error {files : List GoString} {maxY : ℤ} {v : View}
    {p : DirCatPanic} (h : firstPaint files maxY v = .error p) : p = .firstPaint := by
  unfold firstPaint at h
  dsimp only at h
  generalize List.range _ = is at h
  induction is generalizing v with
  | nil => cases h
  | cons i is ih =>
    rw [List.foldlM_cons, paintRow, fileAt] at h
    split at h
    · split at h
      · exact ih h
      · cases h
        rfl
    · cases h
      rfl

/-- **A redraw leaves the selection alone**, or panics in the first paint,
where there was no window of the files. -/
theorem flush_cases (maxX maxY : ℤ) (s : DirCat) :
    (∃ r, s.flush maxX maxY = .ok r ∧ SameSelection s r.1
        ∧ r.1.maxX = maxX ∧ r.1.maxY = maxY)
      ∨ s.side = none ∧ s.flush maxX maxY = .error .firstPaint := by
  unfold flush layout
  dsimp only
  cases setView s.center 0 0 ((maxX * 4).tdiv 5) (maxY - padding) with
  | error e => exact Or.inl ⟨_, rfl, ⟨rfl, rfl, rfl, fun _ => rfl⟩, rfl, rfl⟩
  | ok c =>
    dsimp only
    cases hv : setView s.side ((maxX * 4).tdiv 5 + 1) 0 (maxX - padding)
      (maxY - padding) with
    | error e => exact Or.inl ⟨_, rfl, ⟨rfl, rfl, rfl, fun _ => rfl⟩, rfl, rfl⟩
    | ok v =>
      unfold setView at hv
      split at hv
      · cases hv
      · cases hside : s.side with
        | some w =>
          rw [hside] at hv
          obtain rfl := Except.ok.inj hv
          exact Or.inl ⟨_, rfl, ⟨rfl, rfl, rfl, fun _ => hside.symm⟩, rfl, rfl⟩
        | none =>
          rw [hside] at hv
          obtain rfl := Except.ok.inj hv
          dsimp only
          cases hp : firstPaint s.files maxY View.clear with
          | error p =>
            rw [firstPaint_error hp]
            exact Or.inr ⟨rfl, rfl⟩
          | ok w =>
            exact Or.inl ⟨_, rfl, ⟨rfl, rfl, rfl, fun h => absurd hside h⟩, rfl, rfl⟩

/-- **A key moves the selection by one, around the ends of the list.** -/
theorem moveSelection_eq {s : DirCat} (hs : s.Selects) {v : View}
    (hv : s.side = some v) {move : ℤ} (hm : -1 ≤ move) (off : ℤ)
    (hoff : off = (s.fileOffset + move) % s.files.length) :
    moveSelection move s = .ok ({ s with fileOffset := off }.drawSide off) := by
  obtain ⟨h₀, h₁⟩ := hs
  have hmod : goMod (s.fileOffset + move + s.files.length) s.files.length
      = .ok off := by
    rw [goMod, if_neg (by omega), Int.tmod_eq_emod_of_nonneg (by omega),
      Int.add_emod_right, hoff]
  rw [moveSelection, hv]
  dsimp only
  rw [hmod]
  rfl

theorem moveSelection_of_none {s : DirCat} (hv : s.side = none) (move : ℤ) :
    moveSelection move s = .ok s := by
  rw [moveSelection, hv]

/-- A key keeps the selection in range. -/
theorem selects_moveSelection {s : DirCat} (hs : s.Selects) {move : ℤ}
    (hm : -1 ≤ move) : ∃ s', moveSelection move s = .ok s' ∧ s'.Selects := by
  cases hv : s.side with
  | none => exact ⟨s, moveSelection_of_none hv move, hs⟩
  | some v =>
    refine ⟨_, moveSelection_eq hs hv hm _ rfl, ?_⟩
    have hpos : (0 : ℤ) < s.files.length := lt_of_le_of_lt hs.1 hs.2
    exact ⟨Int.emod_nonneg _ (ne_of_gt hpos), Int.emod_lt_of_pos _ hpos⟩

/-- The selected file can be read. -/
theorem Selects.exists_fileAt {s : DirCat} (hs : s.Selects) (p : DirCatPanic) :
    ∃ f, fileAt s.files s.fileOffset p = .ok f := by
  obtain ⟨h₀, h₁⟩ := hs
  have hlt : s.fileOffset.toNat < s.files.length := by omega
  refine ⟨s.files[s.fileOffset.toNat], ?_⟩
  rw [fileAt, if_pos h₀, List.getElem?_eq_getElem hlt]

/-- **A tick leaves the selection alone**, or panics in the first paint,
where there was no window of the files. -/
theorem drawCenter_cases {s : DirCat} (hs : s.Selects) (tail : Option GoString)
    (maxX maxY : ℤ) :
    (∃ s', s.drawCenter tail maxX maxY = .ok s' ∧ SameSelection s s'
        ∧ (s'.maxY = maxY ∨ s'.maxY = s.maxY))
      ∨ s.side = none ∧ s.drawCenter tail maxX maxY = .error .firstPaint := by
  unfold drawCenter
  cases hc : s.center with
  | none => exact Or.inl ⟨s, rfl, ⟨rfl, rfl, rfl, fun _ => rfl⟩, Or.inr rfl⟩
  | some v =>
    obtain ⟨f, hf⟩ := hs.exists_fileAt .selectedFile
    dsimp only
    rw [hf]
    simp only [bind, Except.bind]
    generalize View.clear.write _ = w
    rcases flush_cases maxX maxY { s with center := some w } with
      ⟨r, hr, hsame, -, hY⟩ | ⟨hside, hr⟩
    · rw [hr]
      exact Or.inl ⟨r.1, rfl, ⟨hsame.files_eq, hsame.fileOffset_eq,
        hsame.windowOffset_eq, hsame.side_eq⟩, Or.inl hY⟩
    · rw [hr]
      exact Or.inr ⟨hside, rfl⟩

/-- An event keeps the selection in range, or panics in the first paint. -/
theorem selects_step {s : DirCat} (hs : s.Selects) (e : Event) :
    (∃ s', s.step e = .ok s' ∧ s'.Selects) ∨ s.step e = .error .firstPaint := by
  cases e with
  | nexOne => exact Or.inl (selects_moveSelection hs (by decide))
  | prevOne => exact Or.inl (selects_moveSelection hs (by decide))
  | flush maxX maxY =>
    rcases flush_cases maxX maxY s with ⟨r, hr, hsame, -⟩ | ⟨-, hr⟩
    · exact Or.inl ⟨r.1, by rw [step, hr]; rfl, hsame.selects hs⟩
    · exact Or.inr (by rw [step, hr]; rfl)
  | drawCenter tail maxX maxY =>
    rcases drawCenter_cases hs tail maxX maxY with ⟨s', hr, hsame, -⟩ | ⟨-, hr⟩
    · exact Or.inl ⟨s', hr, hsame.selects hs⟩
    · exact Or.inr hr

/-- A sequence of events keeps the selection in range, or panics in the
first paint. -/
theorem selects_run {s : DirCat} (hs : s.Selects) (es : List Event) :
    (∃ s', s.run es = .ok s' ∧ s'.Selects) ∨ s.run es = .error .firstPaint := by
  induction es generalizing s with
  | nil => exact Or.inl ⟨s, rfl, hs⟩
  | cons e es ih =>
    unfold run
    rw [List.foldlM_cons]
    rcases selects_step hs e with ⟨s', h', hs'⟩ | h'
    · rw [h']
      exact ih hs'
    · rw [h']
      exact Or.inr rfl

/-- Without files, the first key panics once the windows are there. -/
theorem run_of_files_nil {s : DirCat} (hf : s.files = []) (hc : s.center = none)
    (hs : s.side = none) :
    s.run [.flush 80 24, .nexOne] = .error .divideByZero := by
  obtain ⟨files, fileOffset, windowOffset, maxX, maxY, center, side⟩ := s
  obtain rfl : files = [] := hf
  obtain rfl : center = none := hc
  obtain rfl : side = none := hs
  rfl

end DirCat

/-- **When the view never panics on its indices.** For any arguments of
`Init`, whatever the disk says of them and whatever size the terminal has,
no sequence of keys, redraws and ticks divides by zero or selects a file
out of range exactly when one of the arguments is a file. -/
theorem view_indices_safe_iff (st : DirCat.FileStat) (filelist : List GoString)
    (maxX maxY : ℤ) :
    (∀ es : List DirCat.Event,
      (DirCat.init st filelist maxX maxY).run es ≠ .error .divideByZero
        ∧ (DirCat.init st filelist maxX maxY).run es ≠ .error .selectedFile)
      ↔ ∃ f ∈ filelist, st.isFile f = true := by
  constructor
  · intro hsafe
    by_contra hnone
    have hfiles : (DirCat.init st filelist maxX maxY).files = [] := by
      show (filelist.filter st.isFile).map (Filepath.abs st.wd) = []
      rw [List.map_eq_nil_iff, List.filter_eq_nil_iff]
      exact fun f hf hfile => hnone ⟨f, hf, hfile⟩
    exact (hsafe [.flush 80 24, .nexOne]).1 (DirCat.run_of_files_nil hfiles rfl rfl)
  · rintro ⟨f, hf, hfile⟩ es
    have hselects : (DirCat.init st filelist maxX maxY).Selects := by
      refine ⟨le_refl 0, ?_⟩
      have hmem : Filepath.abs st.wd f ∈ (DirCat.init st filelist maxX maxY).files :=
        List.mem_map_of_mem (List.mem_filter.mpr ⟨hf, hfile⟩)
      show (0 : ℤ) < _
      exact_mod_cast List.length_pos_of_mem hmem
    rcases DirCat.selects_run hselects es with ⟨s', hrun, -⟩ | hrun
    · rw [hrun]
      exact ⟨nofun, nofun⟩
    · rw [hrun]
      exact ⟨by decide, by decide⟩

/-- The only host is `.`, whose path is a directory: the first key divides
by zero. -/
theorem view_panics_without_files :
    (DirCat.init (.ofFiles "/tmp".toList [] (by decide)) ["./.task.7/.".toList]
        80 24).run [.flush 80 24, .nexOne]
      = .error .divideByZero :=
  DirCat.run_of_files_nil rfl rfl rfl
