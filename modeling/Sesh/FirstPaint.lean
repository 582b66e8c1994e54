import Mathlib.Data.List.TakeDrop
import Sesh.Selection

/-!
# The first paint and the next one

The list of the files is drawn by two functions (`dir_cat.go`). `layout`
paints it when the window is new, before any key; `drawSide` paints it again
after each key. Both leave out what the window is too small for, by formulas
of their own: `layout` compares the number of files with the height less the
padding, but where there are more, its loop runs to the full height.

So the first paint has two files more than the window shows, where there
are that many – which is seen only if rows are missing above them – and
reads past the end of the list where there are not. `first_paint_agrees_iff`
says when the two agree, for any list of names, and
`paints_agree_of_showable` what that comes to for names that take a row
each.
-/

namespace DirCat

/-- The view before anything is drawn, on a terminal of the given size. -/
def fresh (files : List GoString) (maxX maxY : ℤ) : DirCat where
  files := files
  fileOffset := 0
  windowOffset := 0
  maxX := maxX
  maxY := maxY
  center := none
  side := none

/-- The lines of the first `k` files, the first one with the arrow. -/
def firstLines (files : List GoString) (k : ℕ) : List GoString := windowLines files 0 k 0

/-- **The two paints agree**: the first one reads no file out of range, and
leaves in the rows of the window what `drawSide` paints for the first file,
from the first file on. -/
def PaintsAgree (files : List GoString) (maxX maxY : ℤ) : Prop :=
  ∃ s' first next, (fresh files maxX maxY).layout = .ok (s', none)
    ∧ s'.side = some first
    ∧ ((fresh files maxX maxY).drawSide 0).side = some next
    ∧ first.lines.take (maxY - 2 * padding).toNat = next.lines

/-- **The files that are painted fit the window**: the ones `drawSide` paints
take no more rows than it has, and either there are fewer files than rows,
or there are two more and those are not seen, because the window is full or
they take no row. -/
def FitsWindow (files : List GoString) (maxY : ℤ) : Prop :=
  (firstLines files (maxY - 2).toNat).length ≤ (maxY - 2).toNat
    ∧ ((files.length : ℤ) < maxY - 2
      ∨ maxY ≤ files.length
        ∧ ((firstLines files (maxY - 2).toNat).length = (maxY - 2).toNat
          ∨ firstLines files maxY.toNat = firstLines files (maxY - 2).toNat))

/-! ## What is painted -/

theorem firstLines_succ {files : List GoString} {k : ℕ} {f : GoString}
    (h : files[k]? = some f) :
    firstLines files (k + 1) = firstLines files k ++ rowLines (decide (k = 0)) f := by
  have hzip : files.zipIdx[k]? = some (f, k) := by
    rw [List.getElem?_zipIdx, h]
    simp
  unfold firstLines windowLines
  rw [List.drop_zero, List.drop_zero, List.take_add_one, hzip, List.flatMap_append]
  simp

theorem firstLines_of_length_le {files : List GoString} {k : ℕ} (h : files.length ≤ k) :
    firstLines files k = firstLines files files.length := by
  unfold firstLines windowLines
  rw [List.take_of_length_le (by rwa [List.length_zipIdx]),
    List.take_of_length_le (by rw [List.length_zipIdx])]

theorem firstLines_prefix (files : List GoString) {j k : ℕ} (h : j ≤ k) :
    firstLines files j <+: firstLines files k := by
  unfold firstLines windowLines
  rw [List.drop_zero, List.drop_zero]
  obtain ⟨rest, hrest⟩ : files.zipIdx.take j <+: files.zipIdx.take k :=
    List.take_prefix_take_left h
  rw [← hrest, List.flatMap_append]
  exact List.prefix_append _ _

/-- **The loop of the first paint**: the first `k` files, or an access out of
range. -/
theorem foldlM_paintRow (files : List GoString) (k : ℕ) :
    (List.range k).foldlM (paintRow files) View.clear
      = if k ≤ files.length then .ok ⟨firstLines files k⟩ else .error .firstPaint := by
  induction k with
  | zero => rfl
  | succ k ih =>
    rw [List.range_succ, List.foldlM_append, ih]
    by_cases hk : k < files.length
    · have hget : files[k]? = some files[k] := List.getElem?_eq_getElem hk
      have hat : fileAt files k .firstPaint = .ok files[k] := by
        rw [fileAt, if_pos (Int.natCast_nonneg k), Int.toNat_natCast, hget]
      rw [if_pos (le_of_lt hk), if_pos (Nat.succ_le_of_lt hk), firstLines_succ hget]
      simp only [bind, Except.bind, List.foldlM_cons, List.foldlM_nil, paintRow, hat]
      rfl
    · rw [if_neg (show ¬ k + 1 ≤ files.length from hk)]
      by_cases hle : k ≤ files.length
      · have hat : fileAt files k .firstPaint = .error .firstPaint := by
          rw [fileAt, if_pos (Int.natCast_nonneg k), Int.toNat_natCast,
            List.getElem?_eq_none (not_lt.mp hk)]
        rw [if_pos hle]
        simp only [bind, Except.bind, List.foldlM_cons, paintRow, hat]
      · rw [if_neg hle]
        rfl

variable {files : List GoString} {maxX maxY : ℤ}

/-- What `layout` comes to on a terminal in which the window can be
placed. -/
theorem layout_fresh (hx : (maxX * 4).tdiv 5 + 1 < maxX - padding) (hy : 0 < maxY - padding) :
    (fresh files maxX maxY).layout
      = (firstPaint files maxY View.clear).map (fun v =>
          ({ fresh files maxX maxY with center := some View.clear, side := some v }, none)) := by
  have hwide : 0 < (maxX * 4).tdiv 5 := by
    unfold padding at hx
    rw [Int.tdiv_eq_ediv] at hx ⊢
    split at hx
    · rename_i h
      rw [if_pos h]
      omega
    · change _ + 1 + 1 < _ at hx
      omega
  have hcenter : setView (fresh files maxX maxY).center 0 0 ((maxX * 4).tdiv 5)
      (maxY - padding) = .ok (View.clear, true) := if_neg (by omega)
  have hside : setView (fresh files maxX maxY).side ((maxX * 4).tdiv 5 + 1) 0
      (maxX - padding) (maxY - padding) = .ok (View.clear, true) := if_neg (by omega)
  unfold layout
  simp only [show (fresh files maxX maxY).maxX = maxX from rfl,
    show (fresh files maxX maxY).maxY = maxY from rfl,
    show (fresh files maxX maxY).files = files from rfl, hcenter, hside]
  cases firstPaint files maxY View.clear <;> rfl

/-- What `drawSide` paints at first. -/
theorem side_drawSide_fresh (hy : 0 < maxY - padding) :
    ((fresh files maxX maxY).drawSide 0).side
      = some ⟨firstLines files (maxY - 2 * padding).toNat⟩ := by
  rw [side_drawSide]
  refine congrArg some (View.ext ?_)
  show windowLines files _ (min _ (files.length : ℤ)).toNat 0 = _
  by_cases hzero : maxY - 2 * padding = 0
  · -- a window without rows
    have hwindow : (fresh files maxX maxY).sideWindow 0 = 1 := by
      show (if (0 : ℤ) < 0 then 0 else if 0 ≥ 0 + (maxY - 2 * padding) then
        0 - (maxY - 2 * padding) + 1 else 0) = 1
      rw [hzero]
      rfl
    rw [hwindow, hzero, show (fresh files maxX maxY).sideHeight = 0 from hzero]
    unfold windowLines
    rw [List.drop_eq_nil_of_le (le_trans (List.length_take_le _ _) (by omega))]
    rfl
  · have hwindow : (fresh files maxX maxY).sideWindow 0 = 0 := by
      show (if (0 : ℤ) < 0 then 0 else if 0 ≥ 0 + (maxY - 2 * padding) then
        0 - (maxY - 2 * padding) + 1 else 0) = 0
      unfold padding at *
      rw [if_neg (lt_irrefl 0), if_neg (by omega)]
    rw [hwindow, show (fresh files maxX maxY).sideHeight = maxY - 2 * padding from rfl,
      zero_add]
    show firstLines files _ = _
    rcases le_total (maxY - 2 * padding) files.length with hle | hle
    · rw [min_eq_left hle]
    · rw [min_eq_right hle, Int.toNat_natCast]
      exact (firstLines_of_length_le (by omega)).symm

/-- The two paints agree where the first one does not panic and shows what
`drawSide` paints. -/
theorem paintsAgree_iff (hx : (maxX * 4).tdiv 5 + 1 < maxX - padding)
    (hy : 0 < maxY - padding) :
    PaintsAgree files maxX maxY
      ↔ ∃ v, firstPaint files maxY View.clear = .ok v
        ∧ v.lines.take (maxY - 2).toNat = firstLines files (maxY - 2).toNat := by
  unfold PaintsAgree
  rw [layout_fresh hx hy, side_drawSide_fresh hy]
  constructor
  · rintro ⟨s', first, next, hlayout, hfirst, hnext, hrows⟩
    obtain rfl := Option.some.inj hnext
    cases hv : firstPaint files maxY View.clear with
    | error p =>
      rw [hv] at hlayout
      cases hlayout
    | ok v =>
      rw [hv] at hlayout
      obtain ⟨rfl, -⟩ := Prod.mk.inj (Except.ok.inj hlayout)
      obtain rfl : v = first := Option.some.inj hfirst
      exact ⟨v, rfl, hrows⟩
  · rintro ⟨v, hv, hrows⟩
    rw [hv]
    exact ⟨_, v, _, rfl, rfl, rfl, hrows⟩

/-- The first paint, by how many files there are. -/
theorem firstPaint_eq (hy : 0 < maxY - padding) :
    firstPaint files maxY View.clear
      = if (files.length : ℤ) < maxY - 2 then .ok ⟨firstLines files (maxY - 2).toNat⟩
        else if maxY ≤ files.length then .ok ⟨firstLines files maxY.toNat⟩
        else .error .firstPaint := by
  unfold padding at hy
  unfold firstPaint
  show (List.range (if maxY - 2 > (files.length : ℤ) then (files.length : ℤ)
    else maxY).toNat).foldlM (paintRow files) View.clear = _
  rw [foldlM_paintRow]
  by_cases hfew : (files.length : ℤ) < maxY - 2
  · rw [if_pos (show maxY - 2 > (files.length : ℤ) from hfew), if_pos hfew,
      Int.toNat_natCast, if_pos (le_refl _),
      firstLines_of_length_le (show files.length ≤ (maxY - 2).toNat by omega)]
  · rw [if_neg (show ¬ maxY - 2 > (files.length : ℤ) from hfew), if_neg hfew]
    exact if_congr (by omega) rfl rfl

theorem exists_ok_take_iff (l l' : List GoString) (h : ℕ) :
    (∃ v : View, (.ok ⟨l⟩ : Except DirCatPanic View) = .ok v ∧ v.lines.take h = l')
      ↔ l.take h = l' := by
  constructor
  · rintro ⟨v, hv, hrows⟩
    rwa [← Except.ok.inj hv] at hrows
  · exact fun hrows => ⟨_, rfl, hrows⟩

/-- The rows a window shows of `l` with more lines after it. -/
theorem take_append_eq_self_iff {α : Type} (l l' : List α) (h : ℕ) :
    (l ++ l').take h = l ↔ l.length ≤ h ∧ (l.length = h ∨ l' = []) := by
  rw [List.take_append]
  constructor
  · intro heq
    have hlen := congrArg List.length heq
    rw [List.length_append, List.length_take, List.length_take] at hlen
    have hle : l.length ≤ h := by omega
    refine ⟨hle, ?_⟩
    rcases Nat.eq_or_lt_of_le hle with heq | hlt
    · exact Or.inl heq
    · exact Or.inr (List.eq_nil_of_length_eq_zero (by omega))
  · rintro ⟨hle, heq | rfl⟩
    · rw [List.take_of_length_le hle, heq, Nat.sub_self, List.take_zero, List.append_nil]
    · rw [List.take_of_length_le hle, List.take_nil, List.append_nil]

end DirCat

open DirCat in
/-- **When the first paint agrees with the next one.** For any list of files
and any size of the terminal in which the window can be placed, the first
paint reads no file out of range and leaves in the window what `drawSide`
paints exactly when the files that are painted fit the window. -/
theorem first_paint_agrees_iff (files : List GoString) {maxX maxY : ℤ}
    (hx : (maxX * 4).tdiv 5 + 1 < maxX - padding) (hy : 0 < maxY - padding) :
    PaintsAgree files maxX maxY ↔ FitsWindow files maxY := by
  rw [paintsAgree_iff hx hy, firstPaint_eq hy]
  by_cases hfew : (files.length : ℤ) < maxY - 2
  · -- all the files are painted by both
    rw [if_pos hfew, exists_ok_take_iff, List.take_eq_self_iff]
    exact ⟨fun h => ⟨h, Or.inl hfew⟩, And.left⟩
  · rw [if_neg hfew]
    by_cases hmany : maxY ≤ files.length
    · -- the first paint has two files more
      have hle : (maxY - 2).toNat ≤ maxY.toNat := by omega
      obtain ⟨extra, hextra⟩ := firstLines_prefix files hle
      unfold FitsWindow
      rw [if_pos hmany, exists_ok_take_iff, ← hextra, take_append_eq_self_iff,
        List.append_right_eq_self]
      refine and_congr_right fun _ => ?_
      exact ⟨fun h => Or.inr ⟨hmany, h⟩, fun h => (h.resolve_left hfew).2⟩
    · -- the first paint panics
      rw [if_neg hmany]
      refine iff_of_false (fun ⟨v, hv, _⟩ => by cases hv) ?_
      rintro ⟨-, h | h⟩
      · exact hfew h
      · exact hmany h.1

open DirCat in
/-- Two files and a window of three rows. -/
theorem first_paint_agrees_two_files :
    ((80 : ℤ) * 4).tdiv 5 + 1 < 80 - padding ∧ (0 : ℤ) < 5 - padding
      ∧ PaintsAgree ["/t/a".toList, "/t/b".toList] 80 5 :=
  ⟨by decide, by decide, (first_paint_agrees_iff _ (by decide) (by decide)).mpr
    ⟨by decide, Or.inl (by decide)⟩⟩

/-- Three files and a window of two rows: the first paint reads a fourth
file. -/
theorem first_paint_panics :
    (DirCat.fresh ["/t/a".toList, "/t/b".toList, "/t/c".toList] 80 4).layout
      = .error .firstPaint := by
  decide

/-- **Names that take a row each fit** unless there are as many as rows, or
one more. -/
theorem DirCat.fitsWindow_iff {files : List GoString} (hf : Showable files) {maxY : ℤ}
    (hy : 0 < maxY - padding) :
    FitsWindow files maxY ↔ (files.length : ℤ) < maxY - 2 ∨ maxY ≤ files.length := by
  unfold padding at hy
  have hlen : ∀ k, (firstLines files k).length = min k files.length := by
    intro k
    rcases le_total k files.length with hk | hk
    · rw [firstLines, windowLines_eq hf, length_windowRows files hk, Nat.sub_zero,
        min_eq_left hk]
    · rw [firstLines_of_length_le hk, firstLines, windowLines_eq hf,
        length_windowRows files (le_refl _), Nat.sub_zero, min_eq_right hk]
  unfold FitsWindow
  rw [hlen]
  refine ⟨fun h => h.2.imp id And.left, fun h => ⟨min_le_left _ _, h.imp id fun hmany => ?_⟩⟩
  exact ⟨hmany, Or.inl (min_eq_left (by omega))⟩
