import Mathlib.Data.List.Nodup
import Sesh.DirCat

/-!
# The selection and its window

The list of the files may be longer than the window that shows it. Each key
moves the selection by one, around the ends of the list, and then the list
is drawn again from the first file shown, which is moved only as far as it
takes to have the selection in the window (`drawSide`, `dir_cat.go`). The
first file shown is kept from draw to draw, while the terminal may change
its height between them.

`selection_window` says what a sequence of keys, redraws and ticks comes
to, once the first redraw has made the windows (`DirCat.run_init_flush`): where
the selection is, and what a key leaves in the window.
-/

namespace DirCat

/-- The height of the window of the files. -/
def sideHeight (s : DirCat) : ℤ := s.maxY - 2 * padding

/-- **Files whose rows can be shown**: their names have no line end in them
and fit a line. -/
def Showable (files : List GoString) : Prop :=
  ∀ f ∈ files, '\n' ∉ Filepath.base f ∧ '\r' ∉ Filepath.base f
    ∧ textLines.width (Filepath.base f) ≤ 255

/-- The rows of the files from `a` to `b`, the one of `fOffset` with the
arrow. -/
def windowRows (files : List GoString) (a b : ℕ) (fOffset : ℤ) : List GoString :=
  ((files.zipIdx.take b).drop a).map
    (fun fi => fileRow (decide ((fi.2 : ℤ) = fOffset)) fi.1)

/-- The lines a window shows for a row: just the row, if its name has no
line end in it and fits a line. -/
def rowLines (selected : Bool) (file : GoString) : List GoString :=
  textLines.lines (fileRow selected file ++ ['\n'])

/-- The lines a window shows for the files from `a` to `b`. -/
def windowLines (files : List GoString) (a b : ℕ) (fOffset : ℤ) : List GoString :=
  ((files.zipIdx.take b).drop a).flatMap
    (fun fi => rowLines (decide ((fi.2 : ℤ) = fOffset)) fi.1)

/-- **What a key leaves in the window of the files.** -/
structure WindowShown (s : DirCat) (view : View) : Prop where
  /-- The window shows the files from the first one shown, as far as they
  and the window go. -/
  lines_eq : view.lines = windowRows s.files s.windowOffset.toNat
    (min (s.windowOffset + s.sideHeight) s.files.length).toNat s.fileOffset
  /-- No more rows than the window has. -/
  length_le : (view.lines.length : ℤ) ≤ s.sideHeight
  /-- The selection is not above the window. -/
  window_le : s.windowOffset ≤ s.fileOffset
  /-- The selection is not below the window. -/
  lt_window : s.fileOffset < s.windowOffset + s.sideHeight
  /-- The row of the selection has the arrow. -/
  arrow_at : ∃ file, s.files[s.fileOffset.toNat]? = some file
    ∧ view.lines[(s.fileOffset - s.windowOffset).toNat]?
      = some (prefixArrow ++ Filepath.base file)
  /-- No other row has it. -/
  arrow_once : view.lines.countP (fun row => prefixArrow.isPrefixOf row) = 1

/-! ## Drawing the rows -/

theorem fileRow_showable {files : List GoString} (hf : Showable files) {f : GoString}
    (hmem : f ∈ files) (selected : Bool) :
    '\n' ∉ fileRow selected f ∧ '\r' ∉ fileRow selected f
      ∧ textLines.width (fileRow selected f) < 65536 := by
  obtain ⟨hn, hc, hw⟩ := hf f hmem
  have hwidth : ∀ p : GoString, textLines.width p = 3 →
      textLines.width (p ++ Filepath.base f) < 65536 := by
    intro p hp
    unfold LineFormat.width at *
    rw [List.map_append, List.sum_append]
    omega
  cases selected with
  | false => exact ⟨by simp [fileRow, prefixEmpty, hn], by simp [fileRow, prefixEmpty, hc],
      hwidth prefixEmpty (by decide)⟩
  | true => exact ⟨by simp [fileRow, prefixArrow, hn], by simp [fileRow, prefixArrow, hc],
      hwidth prefixArrow (by decide)⟩

/-- The positions of a list between two bounds. -/
theorem filter_zipIdx {α : Type} (xs : List α) (k a b : ℕ) :
    (xs.zipIdx k).filter (fun p => a ≤ p.2 ∧ p.2 < b)
      = ((xs.zipIdx k).take (b - k)).drop (a - k) := by
  induction xs generalizing k with
  | nil => simp
  | cons x xs ih =>
    rw [List.zipIdx_cons, List.filter_cons, ih]
    by_cases hb : k < b
    · rw [show b - k = (b - (k + 1)) + 1 by omega, List.take_succ_cons]
      by_cases ha : a ≤ k
      · rw [if_pos (by simpa using ⟨ha, hb⟩), show a - k = 0 by omega,
          show a - (k + 1) = 0 by omega]
        rfl
      · rw [if_neg (by simp; omega), show a - k = (a - (k + 1)) + 1 by omega,
          List.drop_succ_cons]
    · rw [if_neg (by simp; omega), show b - k = 0 by omega,
        show b - (k + 1) = 0 by omega]
      simp

/-- The lines that are drawn. -/
theorem lines_sideRows (files : List GoString) (window stop fOffset : ℤ) (v : View) :
    (sideRows files window stop fOffset v).lines
      = v.lines ++ windowLines files window.toNat stop.toNat fOffset := by
  have hwindow := filter_zipIdx files 0 window.toNat stop.toNat
  rw [Nat.sub_zero, Nat.sub_zero] at hwindow
  unfold sideRows windowLines
  rw [← hwindow]
  generalize files.zipIdx = fis
  induction fis generalizing v with
  | nil => exact (List.append_nil v.lines).symm
  | cons fi fis ih =>
    rw [List.foldl_cons, ih, List.filter_cons]
    by_cases hshow : window.toNat ≤ fi.2 ∧ fi.2 < stop.toNat
    · rw [if_neg (by omega), if_pos (decide_eq_true hshow), List.flatMap_cons,
        ← List.append_assoc]
      rfl
    · rw [if_pos (by omega), if_neg (by simpa using hshow)]

/-- **What `drawSide` leaves**: the files from the first one shown, as far
as the window goes. -/
theorem side_drawSide (s : DirCat) (fOffset : ℤ) :
    (s.drawSide fOffset).side = some ⟨windowLines s.files (s.sideWindow fOffset).toNat
      (min (s.sideWindow fOffset + s.sideHeight) s.files.length).toNat fOffset⟩ := by
  have hstop : (if (s.files.length : ℤ) < s.maxY - 2 * padding + s.sideWindow fOffset
      then (s.files.length : ℤ) else s.maxY - 2 * padding + s.sideWindow fOffset)
      = min (s.sideWindow fOffset + s.sideHeight) s.files.length := by
    unfold sideHeight
    split <;> omega
  unfold drawSide
  dsimp only
  rw [hstop]
  exact congrArg some (View.ext (lines_sideRows s.files _ _ fOffset View.clear))

/-- Names that can be shown take a row each. -/
theorem windowLines_eq {files : List GoString} (hf : Showable files) (a b : ℕ)
    (fOffset : ℤ) : windowLines files a b fOffset = windowRows files a b fOffset := by
  have hrow : ∀ fi ∈ (files.zipIdx.take b).drop a,
      rowLines (decide ((fi.2 : ℤ) = fOffset)) fi.1
        = [fileRow (decide ((fi.2 : ℤ) = fOffset)) fi.1] := by
    intro fi hfi
    have hmem := List.fst_mem_of_mem_zipIdx
      (List.mem_of_mem_take (List.mem_of_mem_drop hfi))
    obtain ⟨hn, hc, hw⟩ := fileRow_showable hf hmem (decide ((fi.2 : ℤ) = fOffset))
    exact LineFormat.lines_concat_newline hn hc hw
  unfold windowLines windowRows
  rw [List.flatMap_congr hrow, List.map_eq_flatMap]

/-! ## The rows of a window -/

theorem isPrefixOf_fileRow (selected : Bool) (file : GoString) :
    prefixArrow.isPrefixOf (fileRow selected file) = selected := by
  cases selected <;> rfl

theorem length_windowRows (files : List GoString) {a b : ℕ} (hb : b ≤ files.length)
    (fOffset : ℤ) : (windowRows files a b fOffset).length = b - a := by
  unfold windowRows
  rw [List.length_map, List.length_drop, List.length_take, List.length_zipIdx,
    Nat.min_eq_left hb]

/-- The row of the `i`-th file. -/
theorem getElem?_windowRows {files : List GoString} {a b i : ℕ} (ha : a ≤ i)
    (hb : i < b) (fOffset : ℤ) :
    (windowRows files a b fOffset)[i - a]?
      = files[i]?.map (fileRow (decide ((i : ℤ) = fOffset))) := by
  unfold windowRows
  rw [List.getElem?_map, List.getElem?_drop, Nat.add_sub_cancel' ha,
    List.getElem?_take_of_lt hb, List.getElem?_zipIdx]
  cases files[i]? with
  | none => rfl
  | some f => simp

/-- One row has the arrow, where the selection is one of those shown. -/
theorem countP_windowRows {files : List GoString} {a b i : ℕ} (ha : a ≤ i)
    (hb : i < b) (hbl : b ≤ files.length) :
    (windowRows files a b i).countP (fun row => prefixArrow.isPrefixOf row) = 1 := by
  have hidx : ((files.zipIdx.take b).drop a).map Prod.snd = List.range' a (b - a) := by
    rw [List.map_drop, List.map_take, List.zipIdx_map_snd, ← List.range_eq_range',
      List.take_range, Nat.min_eq_left hbl, List.range_eq_range', List.drop_range',
      Nat.mul_one, Nat.zero_add]
  have hcount : (List.range' a (b - a)).count i = 1 :=
    List.count_eq_one_of_mem List.nodup_range' (List.mem_range'_1.mpr (by omega))
  unfold windowRows
  rw [List.countP_map, ← hcount, ← hidx, List.count, List.countP_map]
  refine List.countP_congr fun fi _ => ?_
  simp only [Function.comp_apply, isPrefixOf_fileRow, beq_iff_eq, decide_eq_true_eq,
    Int.natCast_inj]

/-! ## Keys, redraws and ticks -/

/-- **What a key leaves**, where the window has a row. -/
theorem windowShown_drawSide {s : DirCat} (hf : Showable s.files) (hs : s.Selects)
    (hw : 0 ≤ s.windowOffset) (hh : 1 ≤ s.sideHeight) :
    ∃ view, (s.drawSide s.fileOffset).side = some view
      ∧ (s.drawSide s.fileOffset).WindowShown view := by
  refine ⟨_, side_drawSide s s.fileOffset, ?_⟩
  rw [windowLines_eq hf]
  obtain ⟨h₀, h₁⟩ := hs
  have hwin : 0 ≤ s.sideWindow s.fileOffset
      ∧ s.sideWindow s.fileOffset ≤ s.fileOffset
      ∧ s.fileOffset < s.sideWindow s.fileOffset + s.sideHeight := by
    unfold sideWindow
    unfold sideHeight at *
    split
    · omega
    · split <;> omega
  obtain ⟨hw₀, hwf, hfw⟩ := hwin
  obtain ⟨w, hweq⟩ := Int.eq_ofNat_of_zero_le hw₀
  obtain ⟨i, hieq⟩ := Int.eq_ofNat_of_zero_le h₀
  obtain ⟨b, hbeq⟩ := Int.eq_ofNat_of_zero_le
    (show 0 ≤ min (s.sideWindow s.fileOffset + s.sideHeight) s.files.length by omega)
  have hbl : b ≤ s.files.length := by omega
  have hwi : w ≤ i := by omega
  have hib : i < b := by omega
  have hrows : windowRows s.files (s.sideWindow s.fileOffset).toNat
      (min (s.sideWindow s.fileOffset + s.sideHeight) s.files.length).toNat s.fileOffset
      = windowRows s.files w b i := by
    rw [hbeq, hweq, hieq]
    rfl
  rw [hrows]
  refine ⟨hrows.symm, ?_, hwf, hfw, ?_, countP_windowRows hwi hib hbl⟩
  · show ((windowRows s.files w b i).length : ℤ) ≤ s.sideHeight
    rw [length_windowRows _ hbl]
    omega
  · refine ⟨s.files[i], ?_, ?_⟩
    · show s.files[s.fileOffset.toNat]? = _
      rw [hieq]
      exact List.getElem?_eq_getElem _
    · show (windowRows s.files w b i)[(s.fileOffset - s.sideWindow s.fileOffset).toNat]? = _
      rw [show (s.fileOffset - s.sideWindow s.fileOffset).toNat = i - w by omega,
        getElem?_windowRows hwi hib, List.getElem?_eq_getElem (by omega)]
      simp [fileRow]

/-- The height of the terminal an event finds, if it looks. -/
def Event.height : Event → Option ℤ
  | .nexOne => none
  | .prevOne => none
  | .flush _ maxY => some maxY
  | .drawCenter _ _ maxY => some maxY

/-- No event finds another height. -/
def HeightKept (maxY : ℤ) (es : List Event) : Prop :=
  ∀ e ∈ es, ∀ y, e.height = some y → y = maxY

/-- The keys of a sequence, those up counted against those down. -/
def netKeys (es : List Event) : ℤ := (es.count .nexOne : ℤ) - es.count .prevOne

/-- **Where a sequence of events has led** from a state with a window of the
files, told from the sequence. -/
structure Tracks (s₀ : DirCat) (es : List Event) (s : DirCat) : Prop where
  /-- The files do not change. -/
  files_eq : s.files = s₀.files
  /-- The window of the files is there. -/
  side_ne : s.side ≠ none
  /-- The selection is in range. -/
  selects : s.Selects
  /-- The selection is moved by the keys. -/
  fileOffset_eq : s.fileOffset = netKeys es % s₀.files.length
  /-- The first file shown is one of the files, or just past them. -/
  window_nonneg : 0 ≤ s.windowOffset
  /-- What the last event left, if it was a key. -/
  shown : ∀ e, es.getLast? = some e → e.height = none → 1 ≤ s.sideHeight →
    ∃ view, s.side = some view ∧ s.WindowShown view
  /-- While the height stays, the window does not go further down than it
  has to. -/
  window_le : HeightKept s₀.maxY es → s.maxY = s₀.maxY
    ∧ (1 ≤ s₀.sideHeight → s.windowOffset ≤ max 0 (s₀.files.length - s₀.sideHeight))

theorem heightKept_concat {maxY : ℤ} {es : List Event} {e : Event}
    (h : HeightKept maxY (es ++ [e])) :
    HeightKept maxY es ∧ ∀ y, e.height = some y → y = maxY :=
  ⟨fun e' he' => h e' (List.mem_append_left _ he'),
    h e (List.mem_append_right _ (List.mem_singleton_self e))⟩

/-- An event that leaves the selection alone. -/
theorem Tracks.sameSelection {s₀ s s' : DirCat} {es : List Event} {e : Event}
    (ht : Tracks s₀ es s) (hsame : SameSelection s s') {y : ℤ}
    (he : e.height = some y) (hnet : netKeys (es ++ [e]) = netKeys es)
    (hy : s'.maxY = y ∨ s'.maxY = s.maxY) : Tracks s₀ (es ++ [e]) s' where
  files_eq := hsame.files_eq.trans ht.files_eq
  side_ne := by
    rw [hsame.side_eq ht.side_ne]
    exact ht.side_ne
  selects := hsame.selects ht.selects
  fileOffset_eq := by rw [hsame.fileOffset_eq, ht.fileOffset_eq, hnet]
  window_nonneg := by
    rw [hsame.windowOffset_eq]
    exact ht.window_nonneg
  shown e' he' hnone := by
    rw [List.getLast?_concat] at he'
    obtain rfl := Option.some.inj he'
    rw [he] at hnone
    cases hnone
  window_le hk := by
    obtain ⟨hk, hlast⟩ := heightKept_concat hk
    obtain ⟨hY, hwin⟩ := ht.window_le hk
    rw [hsame.windowOffset_eq]
    refine ⟨?_, hwin⟩
    rcases hy with hy | hy
    · rw [hy, hlast y he]
    · rw [hy, hY]

/-- A key. -/
theorem Tracks.key {s₀ s : DirCat} {es : List Event} {e : Event}
    (ht : Tracks s₀ es s) (hf : Showable s₀.files) {move : ℤ} (hm : -1 ≤ move)
    (hnet : netKeys (es ++ [e]) = netKeys es + move) :
    ∃ s', moveSelection move s = .ok s' ∧ Tracks s₀ (es ++ [e]) s' := by
  obtain ⟨v, hv⟩ := Option.ne_none_iff_exists'.mp ht.side_ne
  have hpos : (0 : ℤ) < s.files.length := lt_of_le_of_lt ht.selects.1 ht.selects.2
  have hoff : netKeys (es ++ [e]) % s₀.files.length
      = (s.fileOffset + move) % s.files.length := by
    rw [ht.fileOffset_eq, ht.files_eq, hnet, Int.emod_add_emod]
  refine ⟨_, moveSelection_eq ht.selects hv hm _ hoff, ?_⟩
  generalize hgen : netKeys (es ++ [e]) % s₀.files.length = off at hoff
  have hsel : ({ s with fileOffset := off } : DirCat).Selects := by
    refine ⟨?_, ?_⟩
    · show 0 ≤ off
      rw [hoff]
      exact Int.emod_nonneg _ (ne_of_gt hpos)
    · show off < s.files.length
      rw [hoff]
      exact Int.emod_lt_of_pos _ hpos
  have hf' : Showable ({ s with fileOffset := off } : DirCat).files := by
    rw [show ({ s with fileOffset := off } : DirCat).files = s₀.files from ht.files_eq]
    exact hf
  constructor
  case files_eq => exact ht.files_eq
  case side_ne => exact Option.some_ne_none _
  case selects => exact hsel
  case fileOffset_eq => exact hgen.symm
  case window_nonneg =>
    have hw := ht.window_nonneg
    have h₀ := hsel.1
    show 0 ≤ sideWindow _ _
    unfold sideWindow
    dsimp only at h₀ ⊢
    split
    · exact h₀
    · split <;> omega
  case shown =>
    intro _ _ _ hh
    exact windowShown_drawSide hf' hsel ht.window_nonneg hh
  case window_le =>
    intro hk
    obtain ⟨hY, hwin⟩ := ht.window_le (heightKept_concat hk).1
    refine ⟨hY, fun hh => ?_⟩
    have hw := hwin hh
    have h₁ := hsel.2
    have hlen := congrArg List.length ht.files_eq
    show sideWindow _ _ ≤ _
    unfold sideWindow
    unfold sideHeight at *
    dsimp only at h₁ ⊢
    split
    · omega
    · split <;> omega

/-- Each event, one case. -/
theorem Tracks.step {s₀ s : DirCat} {es : List Event} (ht : Tracks s₀ es s)
    (hf : Showable s₀.files) (e : Event) :
    ∃ s', s.step e = .ok s' ∧ Tracks s₀ (es ++ [e]) s' := by
  cases e with
  | nexOne => exact ht.key hf (by decide) (by simp [netKeys]; omega)
  | prevOne => exact ht.key hf (by decide) (by simp [netKeys]; omega)
  | flush maxX maxY =>
    rcases flush_cases maxX maxY s with ⟨r, hr, hsame, -, hY⟩ | ⟨hside, -⟩
    · refine ⟨r.1, by rw [DirCat.step, hr]; rfl, ?_⟩
      exact ht.sameSelection hsame rfl (by simp [netKeys]) (Or.inl hY)
    · exact absurd hside ht.side_ne
  | drawCenter tail maxX maxY =>
    rcases drawCenter_cases ht.selects tail maxX maxY with ⟨s', hr, hsame, hY⟩ | ⟨hside, -⟩
    · exact ⟨s', hr, ht.sameSelection hsame rfl (by simp [netKeys]) hY⟩
    · exact absurd hside ht.side_ne

/-- **A sequence of events never panics where there are files and a window
for them**, and leads where `Tracks` says. -/
theorem exists_tracks {s₀ : DirCat} (hf : Showable s₀.files)
    (hstart : Tracks s₀ [] s₀) (es : List Event) :
    ∃ s, s₀.run es = .ok s ∧ Tracks s₀ es s := by
  induction es using List.reverseRecOn with
  | nil => exact ⟨s₀, rfl, hstart⟩
  | append_singleton es e ih =>
    obtain ⟨s, hrun, ht⟩ := ih
    obtain ⟨s', hstep, ht'⟩ := ht.step hf e
    refine ⟨s', ?_, ht'⟩
    unfold run at hrun ⊢
    rw [List.foldlM_append, hrun]
    show ([e].foldlM DirCat.step s : Except DirCatPanic DirCat) = _
    rw [List.foldlM_cons, hstep]
    rfl

theorem tracks_start {s₀ : DirCat} (hne : s₀.files ≠ []) (hside : s₀.side ≠ none)
    (hoff : s₀.fileOffset = 0) (hwin : s₀.windowOffset = 0) : Tracks s₀ [] s₀ where
  files_eq := rfl
  side_ne := hside
  selects := by
    unfold Selects
    rw [hoff]
    exact ⟨le_rfl, by exact_mod_cast List.length_pos_of_ne_nil hne⟩
  fileOffset_eq := by rw [hoff]; rfl
  window_nonneg := le_of_eq hwin.symm
  shown _ he := by cases he
  window_le _ := ⟨rfl, fun _ => by rw [hwin]; exact le_max_left _ _⟩

/-- The names of the files of `Init` fit a line. -/
theorem showable_init {st : FileStat} {filelist : List GoString} {maxX maxY : ℤ}
    (hnames : ∀ f ∈ (init st filelist maxX maxY).files,
      '\n' ∉ Filepath.base f ∧ '\r' ∉ Filepath.base f) :
    Showable (init st filelist maxX maxY).files := by
  intro f hf
  obtain ⟨p, hp, rfl⟩ := List.mem_map.mp hf
  exact ⟨(hnames _ hf).1, (hnames _ hf).2, st.name_le p (List.mem_filter.mp hp).2⟩

/-- The state of `Init` once there is a window for the list, whatever the
first paint has left in it and whatever is in the other window. -/
def initShown (st : FileStat) (filelist : List GoString) (maxX maxY : ℤ)
    (center : Option View) (v : View) : DirCat :=
  { init st filelist maxX maxY with center := center, side := some v }

/-- The first paint finds a file for each of its rows. -/
theorem exists_firstPaint {files : List GoString} {maxY : ℤ}
    (hrows : (files.length : ℤ) < maxY - 2 * padding ∨ maxY ≤ files.length) (v : View) :
    ∃ w, firstPaint files maxY v = .ok w := by
  have hpaint : ∀ (is : List ℕ) (v : View), (∀ i ∈ is, i < files.length) →
      ∃ w, (is.foldlM (paintRow files) v : Except DirCatPanic View) = .ok w := by
    intro is
    induction is with
    | nil => exact fun v _ => ⟨v, rfl⟩
    | cons i is ih =>
      intro v his
      obtain ⟨hi, his⟩ := List.forall_mem_cons.mp his
      have hfile : fileAt files i .firstPaint = .ok files[i] := by
        rw [fileAt, if_pos (Int.natCast_nonneg i), Int.toNat_natCast,
          List.getElem?_eq_getElem hi]
      obtain ⟨w, hw⟩ := ih (v.fprintln (fileRow (decide (i = 0)) files[i])) his
      refine ⟨w, ?_⟩
      rw [List.foldlM_cons, paintRow, hfile]
      exact hw
  refine hpaint _ v fun i hi => ?_
  rw [List.mem_range] at hi
  split at hi
  · omega
  · rcases hrows with hrows | hrows <;> omega

/-- **The first redraw after `Init`** leads there, on a terminal on which both
windows can be placed, unless the first paint runs out of files. -/
theorem run_init_flush (st : FileStat) (filelist : List GoString) (x y maxX maxY : ℤ)
    (hcenter : 0 < (maxX * 4).tdiv 5) (hside : (maxX * 4).tdiv 5 + 1 < maxX - padding)
    (hheight : 0 < maxY - padding)
    (hrows : ((init st filelist x y).files.length : ℤ) < maxY - 2 * padding
      ∨ maxY ≤ (init st filelist x y).files.length) (es : List Event) :
    ∃ v, (init st filelist x y).run (.flush maxX maxY :: es)
      = (initShown st filelist maxX maxY (some View.clear) v).run es := by
  obtain ⟨w, hw⟩ := exists_firstPaint hrows View.clear
  have hflush : (init st filelist x y).flush maxX maxY
      = .ok (initShown st filelist maxX maxY (some View.clear) w, none) := by
    unfold flush layout setView
    dsimp only
    rw [if_neg (by omega), if_neg (by omega)]
    show (firstPaint (init st filelist x y).files maxY View.clear).bind _ = _
    rw [hw]
    rfl
  refine ⟨w, ?_⟩
  rw [run, List.foldlM_cons, step, hflush]
  rfl

/-- While the height stays, the window is full, or shows all the files. -/
theorem Tracks.length_lines {s₀ s : DirCat} {es : List Event} (ht : Tracks s₀ es s)
    (hk : HeightKept s₀.maxY es) (hh : 1 ≤ s.sideHeight) {view : View}
    (hv : s.WindowShown view) :
    (view.lines.length : ℤ) = min (s₀.files.length : ℤ) s.sideHeight := by
  obtain ⟨hY, hwin⟩ := ht.window_le hk
  have hheight : s.sideHeight = s₀.sideHeight := by
    unfold sideHeight
    rw [hY]
  have hle := hwin (hheight ▸ hh)
  have hw := ht.window_nonneg
  have hlen := congrArg List.length ht.files_eq
  rw [hv.lines_eq, length_windowRows _ (by omega)]
  omega

end DirCat

/-- **The selection window invariant.** From a view of some files whose
names have no line end in them, with a window for the list, every sequence
of keys, redraws and ticks – on a terminal of any height, changing at any
time – runs without a panic. The selection is then the keys pressed, modulo
the number of files, and the first file shown is not negative; right after
a key, where the window has a row, the window shows what `WindowShown`
says; and where the height has stayed the same, it is full or shows all the
files. -/
theorem selection_window (st : DirCat.FileStat) (filelist : List GoString)
    (maxX maxY : ℤ) (center : Option View) (v : View)
    (hne : (DirCat.init st filelist maxX maxY).files ≠ [])
    (hnames : ∀ f ∈ (DirCat.init st filelist maxX maxY).files,
      '\n' ∉ Filepath.base f ∧ '\r' ∉ Filepath.base f)
    (es : List DirCat.Event) :
    ∃ s : DirCat,
      (DirCat.initShown st filelist maxX maxY center v).run es = .ok s
      ∧ s.files = (DirCat.init st filelist maxX maxY).files
      ∧ s.fileOffset = ((es.count .nexOne : ℤ) - es.count .prevOne) % s.files.length
      ∧ 0 ≤ s.windowOffset
      ∧ ∀ e, es.getLast? = some e → e = .nexOne ∨ e = .prevOne → 1 ≤ s.maxY - 2 →
        ∃ view, s.side = some view ∧ s.WindowShown view
          ∧ (DirCat.HeightKept maxY es →
            (view.lines.length : ℤ) = min (s.files.length : ℤ) (s.maxY - 2)) := by
  have hshow : DirCat.Showable (DirCat.initShown st filelist maxX maxY center v).files :=
    DirCat.showable_init hnames
  obtain ⟨s, hrun, ht⟩ := DirCat.exists_tracks hshow
    (DirCat.tracks_start hne (Option.some_ne_none v) rfl rfl) es
  have hfiles : s.files = (DirCat.init st filelist maxX maxY).files := ht.files_eq
  refine ⟨s, hrun, hfiles, ?_, ht.window_nonneg, fun e he hkey hh => ?_⟩
  · rw [hfiles]
    exact ht.fileOffset_eq
  · have hnone : e.height = none := by
      rcases hkey with rfl | rfl <;> rfl
    obtain ⟨view, hside, hview⟩ := ht.shown e he hnone hh
    refine ⟨view, hside, hview, fun hk => ?_⟩
    rw [hfiles]
    exact ht.length_lines hk hh hview

/-- Four files in a window of two rows: after two keys down the third file is
selected, and two rows are shown. -/
theorem selection_window_four_files :
    ∃ (s : DirCat) (view : View),
      (DirCat.init
          (.ofFiles "/".toList ["/a".toList, "/b".toList, "/c".toList, "/d".toList] (by decide))
          ["/a".toList, "/b".toList, "/c".toList, "/d".toList] 80 4).run
        [.flush 80 4, .nexOne, .nexOne] = .ok s
      ∧ s.side = some view ∧ s.fileOffset = 2 ∧ view.lines.length = 2 := by
  obtain ⟨v, hflush⟩ := DirCat.run_init_flush
    (.ofFiles "/".toList ["/a".toList, "/b".toList, "/c".toList, "/d".toList] (by decide))
    ["/a".toList, "/b".toList, "/c".toList, "/d".toList] 80 4 80 4
    (by decide) (by decide) (by decide) (Or.inr (by decide)) [.nexOne, .nexOne]
  obtain ⟨s, hrun, hfiles, hoff, -, hlast⟩ := selection_window
    (.ofFiles "/".toList ["/a".toList, "/b".toList, "/c".toList, "/d".toList] (by decide))
    ["/a".toList, "/b".toList, "/c".toList, "/d".toList] 80 4 (some View.clear) v (by decide)
    (by decide) [.nexOne, .nexOne]
  have hY : s.maxY = 4 := by
    rw [← Except.ok.inj hrun]
    rfl
  have hkept : DirCat.HeightKept 4 [.nexOne, .nexOne] := by
    intro e he y hy
    obtain rfl : e = .nexOne := by simpa using he
    cases hy
  obtain ⟨view, hside, -, hlen⟩ := hlast .nexOne rfl (Or.inl rfl) (by omega)
  have hlen' := hlen hkept
  rw [hfiles, hY] at hlen'
  refine ⟨s, view, hflush.trans hrun, hside, ?_, Int.ofNat.inj hlen'⟩
  rw [hoff, hfiles]
  decide
