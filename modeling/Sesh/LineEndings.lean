import Mathlib.Algebra.Ring.Parity
import Sesh.TailLines

/-!
# Line ends and the tail

A carriage return before a newline is dropped by the scanner, but the search
for a line goes on by the length of what the scanner yields, and so only
past the carriage return. Where every newline comes after one, each line is
two blocks for the search (`FileHandle.blockAt_crlf`): the line with its
carriage return, and the newline, which is taken for a line of its own. The
tail then has an empty line after each complete one (`tailFile_crlf`).

`crlf_same_tail_iff` says for which files that makes no difference: only
where all the lines that are asked for are empty anyway.
-/

/-! ## Lines with carriage returns -/

/-- A disk that holds one file, which stays as it is. -/
def FileEnv.still (c : Bytes) : FileEnv where
  stat _ := .ok c.length
  openFile _ := .ok (FileHandle.still c)

/-- The complete lines among the last `n` lines of a text. -/
def endedAmong (c : Bytes) (n : ℕ) : List Bytes :=
  (byteLines.ended c).rtake (if byteLines.unended c = [] then n else n - 1)

namespace FileHandle

variable {contents : ℕ → Bytes}

/-- **A line that ends in a carriage return and a newline is two blocks**:
the line with the carriage return, which is dropped, and the newline, which
is taken for an empty line. -/
theorem blockAt_crlf {off : ℕ} {l : Bytes} (hl : FitLine l) (hlen : l.length ≤ 65534)
    {rest : ℕ → Bytes} (h : ∀ n, (contents n).drop off = l ++ 13 :: 10 :: rest n) :
    (live contents).BlockAt off ⟨l.length + 1, l⟩
      ∧ (live contents).BlockAt (off + (l.length + 1)) ⟨1, []⟩ := by
  have hscan : ∀ n o, o ≤ l.length →
      (live contents).scan n (off + o : ℕ) = l.drop o := by
    intro n o ho
    have hdrop : (contents n).drop (off + o) = (l.drop o ++ [13]) ++ 10 :: rest n := by
      rw [← List.drop_drop, h, List.drop_append_of_le_length ho, List.append_assoc]
      rfl
    have hfirst : byteLines.firstLine ((l.drop o ++ [13]) ++ 10 :: rest n)
        = l.drop o ++ [13] := by
      refine LineFormat.firstLine_append_newline (fun hmem => ?_) (rest n)
      rcases List.mem_append.mp hmem with hmem | hmem
      · exact (hl.drop o).newline_notMem hmem
      · exact absurd (List.mem_singleton.mp hmem) (by decide)
    have hwidth : byteLines.width (l.drop o ++ [13]) < byteLines.limit := by
      rw [width_byteLines, List.length_append, List.length_drop]
      show l.length - o + 1 < 65536
      omega
    rw [scan_live, hdrop, LineFormat.scan_eq, hfirst, if_pos hwidth]
    exact LineFormat.dropCarriage_concat _
  have hnewline : ∀ n, (live contents).scan n (off + (l.length + 1) : ℕ) = [] := by
    intro n
    rw [scan_live, ← List.drop_drop, h, List.drop_append, Nat.add_sub_cancel_left,
      List.drop_eq_nil_of_le (Nat.le_succ _)]
    exact LineFormat.scan_eq (F := byteLines) (10 :: rest n)
  refine ⟨⟨Nat.succ_pos _, fun n o ho => ?_, fun n => ?_⟩,
    ⟨Nat.one_pos, fun n o ho => ?_, fun n => ?_⟩⟩
  · have hle : o ≤ l.length := Nat.lt_succ_iff.mp ho
    rw [hscan n o hle, List.length_drop]
    show o + (l.length - o) + 1 = l.length + 1
    omega
  · have hscan₀ := hscan n 0 (Nat.zero_le _)
    rw [Nat.add_zero, List.drop_zero] at hscan₀
    rw [hscan₀, readAt_live, h, fill_append]
  · obtain rfl : o = 0 := Nat.lt_one_iff.mp ho
    show 0 + ((live contents).scan n (off + (l.length + 1) : ℕ)).length + 1 = 1
    rw [hnewline]
    rfl
  · rw [hnewline]
    exact fill_append [] _

/-- **Lines that end in carriage returns and newlines are two blocks
each.** -/
theorem blocks_crlf {off : ℕ} {ls : List Bytes}
    (hls : ∀ l ∈ ls, FitLine l ∧ l.length ≤ 65534) {rest : ℕ → Bytes}
    (h : ∀ n, (contents n).drop off = byteLines.ends (ls.map (· ++ [13])) ++ rest n) :
    (live contents).Blocks off (ls.flatMap (fun l => [⟨l.length + 1, l⟩, ⟨1, []⟩])) := by
  induction ls generalizing off with
  | nil => exact trivial
  | cons l ls ih =>
    obtain ⟨⟨hl, hlen⟩, hls⟩ := List.forall_mem_cons.mp hls
    have hcons : ∀ n, (contents n).drop off
        = l ++ 13 :: 10 :: (byteLines.ends (ls.map (· ++ [13])) ++ rest n) := fun n => by
      rw [h n, List.map_cons, LineFormat.ends_cons_append, List.append_assoc]
      rfl
    obtain ⟨hline, hempty⟩ := blockAt_crlf hl hlen hcons
    refine ⟨hline, hempty, ih hls fun n => ?_⟩
    show (contents n).drop (off + (l.length + 1) + 1) = _
    rw [Nat.add_assoc, ← List.drop_drop, hcons, List.drop_append, Nat.add_assoc,
      Nat.add_sub_cancel_left, List.drop_eq_nil_of_le (Nat.le_add_right _ _)]
    rfl

end FileHandle

/-! ## Lists with an empty line after each line -/

section

variable {α : Type} (ts : List (List α))

theorem getElem?_doubled_even {i : ℕ} (hi : i < ts.length) :
    (ts.flatMap (fun t => [[], t]))[2 * i]? = some [] := by
  induction ts generalizing i with
  | nil => exact absurd hi (Nat.not_lt_zero i)
  | cons t ts ih =>
    cases i with
    | zero => rfl
    | succ i => exact ih (Nat.lt_of_succ_lt_succ hi)

theorem getElem?_doubled_odd (i : ℕ) :
    (ts.flatMap (fun t => [[], t]))[2 * i + 1]? = ts[i]? := by
  induction ts generalizing i with
  | nil => rfl
  | cons t ts ih =>
    cases i with
    | zero => rfl
    | succ i => exact ih i

variable {ts}

/-- Lines that are found twice as far from the end, or are empty, are all
empty: each is the one half as far, or empty. -/
theorem getElem?_of_take_doubled {j : ℕ} (hj : j ≤ ts.length)
    (h : (ts.flatMap (fun t => [[], t])).take j = ts.take j) {i : ℕ} (hi : i < j) :
    ts[i]? = some [] := by
  induction i using Nat.strong_induction_on with
  | _ i ih =>
    have hsame : (ts.flatMap (fun t => [[], t]))[i]? = ts[i]? := by
      have hget := congrArg (·[i]?) h
      rwa [List.getElem?_take_of_lt hi, List.getElem?_take_of_lt hi] at hget
    obtain ⟨k, rfl | rfl⟩ := Nat.even_or_odd' i
    · rw [← hsame]
      exact getElem?_doubled_even ts (by omega)
    · rw [← hsame, getElem?_doubled_odd]
      exact ih k (by omega) (by omega)

theorem take_doubled_iff (j : ℕ) :
    (ts.flatMap (fun t => [[], t])).take j = ts.take j
      ↔ ts = [] ∨ j ≤ ts.length ∧ ∀ t ∈ ts.take j, t = [] := by
  constructor
  · intro h
    refine or_iff_not_imp_left.mpr fun hne => ?_
    have hlen : (ts.flatMap (fun t => [[], t])).length = 2 * ts.length := by
      rw [List.length_flatMap]
      show (ts.map (fun _ => 2)).sum = _
      rw [List.map_const', List.sum_replicate_nat, Nat.mul_comm]
    have hle : j ≤ ts.length := by
      have hcount := congrArg List.length h
      have hpos := List.length_pos_of_ne_nil hne
      rw [List.length_take, List.length_take, hlen] at hcount
      omega
    refine ⟨hle, fun t ht => ?_⟩
    obtain ⟨i, hi⟩ := List.mem_iff_getElem?.mp ht
    rw [List.getElem?_take, Option.ite_none_right_eq_some] at hi
    exact Option.some.inj (hi.2.symm.trans (getElem?_of_take_doubled hle h hi.1))
  · rintro (rfl | ⟨hle, hnil⟩)
    · rfl
    · have hget : ∀ i < j, ts[i]? = some [] := fun i hi => by
        have hlt : i < ts.length := lt_of_lt_of_le hi hle
        rw [List.getElem?_eq_getElem hlt, hnil _ (List.mem_take_iff_getElem.mpr ⟨i, by omega, rfl⟩)]
      refine List.ext_getElem? fun i => ?_
      by_cases hi : i < j
      · rw [List.getElem?_take_of_lt hi, List.getElem?_take_of_lt hi, hget i hi]
        obtain ⟨k, rfl | rfl⟩ := Nat.even_or_odd' i
        · exact getElem?_doubled_even ts (by omega)
        · rw [getElem?_doubled_odd]
          exact hget k (by omega)
      · rw [List.getElem?_take, List.getElem?_take, if_neg hi, if_neg hi]

end

/-- A list in which an empty line follows each line has the same end as the
list itself only where that end is made of empty lines. -/
theorem rtake_doubled_iff {α : Type} (ls : List (List α)) (j : ℕ) :
    (ls.flatMap (fun l => [l, []])).rtake j = ls.rtake j
      ↔ ls = [] ∨ j ≤ ls.length ∧ ∀ l ∈ ls.rtake j, l = [] := by
  have hrev : (ls.flatMap (fun l => [l, []])).reverse
      = ls.reverse.flatMap (fun l => [[], l]) := by
    rw [List.reverse_flatMap]
    rfl
  rw [List.rtake_eq_reverse_take_reverse, List.rtake_eq_reverse_take_reverse,
    List.reverse_inj, hrev, take_doubled_iff, List.reverse_eq_nil_iff, List.length_reverse]
  simp only [List.mem_reverse]

/-! ## The two tails -/

theorem total_crlf (ls : List Bytes) :
    Block.total (ls.flatMap (fun l => [⟨l.length + 1, l⟩, ⟨1, []⟩]))
      = (byteLines.ends (ls.map (· ++ [13]))).length := by
  rw [← total_lines, List.map_map]
  induction ls with
  | nil => rfl
  | cons l ls ih =>
    have hsize : (l ++ [(13 : UInt8)]).length = l.length + 1 := List.length_append
    show l.length + 1 + (1 + Block.total (ls.flatMap _)) = (l ++ [13]).length + 1 + _
    rw [ih, hsize, Nat.add_assoc (l.length + 1)]
    rfl

theorem tokens_crlf (ls : List Bytes) :
    (ls.flatMap (fun l => [(⟨l.length + 1, l⟩ : Block), ⟨1, []⟩])).map Block.token
      = ls.flatMap (fun l => [l, []]) := by
  rw [List.map_flatMap]
  rfl

/-- A scan in a last line without a newline returns the rest of it. -/
theorem FileHandle.scan_still_rest {r : Bytes} (hr : FitLine r) (e : Bytes) (n o : ℕ) :
    (FileHandle.still (e ++ r)).scan n (e.length + o : ℕ) = r.drop o := by
  have hfirst : byteLines.firstLine (r.drop o) = r.drop o :=
    LineFormat.firstLine_of_notMem (hr.drop o).newline_notMem
  rw [FileHandle.still, FileHandle.scan_live, ← List.drop_drop, List.drop_left,
    scan_byteLines (hfirst.symm ▸ hr.drop o), hfirst]

/-- **The tail of a file with carriage returns**: an empty line follows each
complete one. -/
theorem tailFile_crlf {ls : List Bytes} {r : Bytes}
    (hls : ∀ l ∈ ls, FitLine l ∧ l.length ≤ 65534) (hr : FitLine r)
    (filename : GoString) (cnt : ℤ) {fuel : ℕ}
    (hfuel : (byteLines.ends (ls.map (· ++ [13])) ++ r).length < fuel) :
    tailFile (FileEnv.still (byteLines.ends (ls.map (· ++ [13])) ++ r)) fuel filename cnt
      = some (.ok ([10].intercalate
          (if r = [] then (ls.flatMap (fun l => [l, []])).rtake (tailCount cnt)
            else (ls.flatMap (fun l => [l, []])).rtake (tailCount cnt - 1) ++ [r]))) := by
  have hblocks : (FileHandle.still (byteLines.ends (ls.map (· ++ [13])) ++ r)).Blocks 0
      (ls.flatMap (fun l => [⟨l.length + 1, l⟩, ⟨1, []⟩])) :=
    FileHandle.blocks_crlf hls (fun _ => rfl)
  have htotal := total_crlf ls
  generalize byteLines.ends (ls.map (· ++ [13])) = e at hblocks htotal hfuel
  by_cases hnil : r = []
  · subst hnil
    obtain ⟨run, hrun, htext⟩ := exists_tailLoop_blocks hblocks (tailCount cnt) TailRun.empty
    rw [tokens_crlf] at htext
    rw [List.append_nil] at hblocks hrun hfuel ⊢
    have htail : tailRun (FileHandle.still e) fuel e.length cnt = some (.ok run) := by
      rw [htotal] at hrun
      exact hrun fuel (le_of_lt hfuel)
    rw [tailFile_eq rfl rfl htail, if_pos rfl, htext]
    exact congrArg (fun t => some (Except.ok ([10].intercalate t))) (List.append_nil _)
  · obtain ⟨m, hm⟩ := exists_tailCount cnt
    obtain ⟨ext, run, rfl, hrun, htext⟩ := exists_tailLoop_rest hblocks hnil
      (P := fun ext => ext = [])
      (fun n o ho => by
        rw [htotal, FileHandle.scan_still_rest hr, List.length_drop]
        omega)
      (fun n => by
        have hscan₀ := FileHandle.scan_still_rest hr e n 0
        rw [Nat.add_zero, List.drop_zero] at hscan₀
        refine ⟨[], rfl, ?_⟩
        rw [htotal, hscan₀, FileHandle.still, FileHandle.readAt_live, List.drop_left,
          fill_self, List.append_nil]) m TailRun.empty
    rw [htotal, ← List.length_append] at hrun
    rw [tokens_crlf] at htext
    have htail : tailRun (FileHandle.still (e ++ r)) fuel (e ++ r).length cnt
        = some (.ok run) := by
      rw [tailRun, hm]
      exact hrun fuel (le_of_lt hfuel)
    rw [tailFile_eq rfl rfl htail, if_neg hnil, htext, hm, List.append_nil]
    rfl

theorem mem_ends_iff {ls : List Bytes} {r : Bytes} (hr : 10 ∉ r) :
    10 ∈ byteLines.ends ls ++ r ↔ ls ≠ [] := by
  cases ls with
  | nil => exact iff_of_false hr (fun h => h rfl)
  | cons l ls =>
    refine iff_of_true ?_ (List.cons_ne_nil l ls)
    rw [LineFormat.ends_cons_append]
    exact List.mem_append_right _ List.mem_cons_self

/-- Two texts of joined lines are the same only if their lines are. -/
theorem intercalate_inj {ls ls' : List Bytes} (hls : ∀ l ∈ ls, 10 ∉ l)
    (hls' : ∀ l ∈ ls', 10 ∉ l) (hne : ls ≠ []) (hne' : ls' ≠ [])
    (h : ([10] : Bytes).intercalate ls = [10].intercalate ls') : ls = ls' := by
  rw [← List.splitOn_intercalate 10 hls hne, h, List.splitOn_intercalate 10 hls' hne']

theorem rtake_ne_nil {α : Type} {ls : List α} (hne : ls ≠ []) (m : ℕ) :
    ls.rtake (m + 1) ≠ [] := by
  obtain ⟨ls, l, rfl⟩ := (List.eq_nil_or_concat' ls).resolve_left hne
  rw [List.rtake_concat_succ]
  exact List.concat_ne_nil _ _

section

variable {ls : List Bytes} (hls : ∀ l ∈ ls, 10 ∉ l) (n : ℕ)

include hls

theorem newline_notMem_rtake {l : Bytes} (hl : l ∈ ls.rtake n) : 10 ∉ l :=
  hls l (List.mem_of_mem_drop hl)

theorem newline_notMem_rtake_doubled {l : Bytes}
    (hl : l ∈ (ls.flatMap (fun l => [l, []])).rtake n) : 10 ∉ l := by
  obtain ⟨l', hl', hmem⟩ := List.mem_flatMap.mp (List.mem_of_mem_drop hl)
  rcases List.mem_cons.mp hmem with rfl | hmem
  · exact hls l hl'
  · rw [List.mem_singleton.mp hmem]
    exact List.not_mem_nil

/-- The texts of two tails are the same only if the tails are. -/
theorem intercalate_doubled_iff :
    ([10] : Bytes).intercalate ((ls.flatMap (fun l => [l, []])).rtake (n + 1))
        = [10].intercalate (ls.rtake (n + 1))
      ↔ (ls.flatMap (fun l => [l, []])).rtake (n + 1) = ls.rtake (n + 1) := by
  refine ⟨fun h => ?_, fun h => congrArg _ h⟩
  cases ls with
  | nil => rfl
  | cons l ls =>
    exact intercalate_inj (fun _ => newline_notMem_rtake_doubled hls _)
      (fun _ => newline_notMem_rtake hls _) (rtake_ne_nil (List.cons_ne_nil _ _) n)
      (rtake_ne_nil (List.cons_ne_nil _ _) n) h

/-- The same with a line after the complete ones. -/
theorem intercalate_doubled_concat_iff {r : Bytes} (hr : 10 ∉ r) :
    ([10] : Bytes).intercalate ((ls.flatMap (fun l => [l, []])).rtake n ++ [r])
        = [10].intercalate (ls.rtake n ++ [r])
      ↔ (ls.flatMap (fun l => [l, []])).rtake n = ls.rtake n := by
  refine ⟨fun h => ?_, fun h => by rw [h]⟩
  have hconcat : ∀ {us : List Bytes}, (∀ l ∈ us, 10 ∉ l) → ∀ l ∈ us ++ [r], 10 ∉ l := by
    intro us hus l hl
    rcases List.mem_append.mp hl with hl | hl
    · exact hus l hl
    · rw [List.mem_singleton.mp hl]
      exact hr
  exact List.append_cancel_right (intercalate_inj
    (hconcat fun _ => newline_notMem_rtake_doubled hls n)
    (hconcat fun _ => newline_notMem_rtake hls n) (List.concat_ne_nil _ _)
    (List.concat_ne_nil _ _) h)

end

section

variable {ls : List Bytes} {r : Bytes} (hls : ∀ l ∈ ls, 10 ∉ l) (hr : 10 ∉ r)

include hls hr

/-- What fits with a carriage return before each newline, fits. -/
theorem fitLine_of_crlf (hcr : 13 ∉ byteLines.ends ls ++ r)
    (hfit : ∀ l ∈ byteLines.rawLines (byteLines.crlf (byteLines.ends ls ++ r)), l.length ≤ 65535) :
    (∀ l ∈ ls, FitLine l ∧ l.length ≤ 65534) ∧ FitLine r := by
  have hls' : ∀ l ∈ ls.map (· ++ [13]), 10 ∉ l := by
    intro _ hmem
    obtain ⟨l, hl, rfl⟩ := List.mem_map.mp hmem
    have hnl : 10 ∉ l := hls l hl
    simpa using hnl
  have hcr' : ∀ l ∈ ls, 13 ∉ l := fun l hl hmem =>
    hcr (List.mem_append_left _ (List.mem_flatMap.mpr ⟨l, hl, List.mem_append_left _ hmem⟩))
  rw [LineFormat.crlf_ends hls hr, LineFormat.rawLines_ends_append hls'] at hfit
  refine ⟨fun l hl => ?_, hr, fun hmem => hcr (List.mem_append_right _ hmem), ?_⟩
  · have hlen := hfit _ (List.mem_append_left _ (List.mem_map_of_mem hl))
    rw [List.length_append, List.length_singleton] at hlen
    exact ⟨⟨hls l hl, hcr' l hl, by omega⟩, by omega⟩
  · by_cases hnil : r = []
    · rw [hnil]
      exact Nat.zero_le _
    · refine hfit r (List.mem_append_right _ ?_)
      rw [LineFormat.rawLines_of_notMem hr, if_neg hnil]
      exact List.mem_singleton_self r

/-- A file that stays as it is and whose lines fit is a log that nothing is
appended to. -/
theorem liveLog_of_fitLine (hcr : 13 ∉ byteLines.ends ls ++ r) (hfit : ∀ l ∈ ls, FitLine l)
    (hfitR : FitLine r) :
    LiveLog (byteLines.ends ls ++ r) (fun _ => byteLines.ends ls ++ r) := by
  refine ⟨fun _ => List.prefix_refl _, fun _ => List.prefix_refl _, fun _ => hcr, ?_⟩
  intro _ l hl
  rw [LineFormat.rawLines_ends_append hls, LineFormat.rawLines_of_notMem hr] at hl
  rcases List.mem_append.mp hl with hl | hl
  · exact (hfit l hl).length_le
  · split at hl
    · exact absurd hl List.not_mem_nil
    · rw [List.mem_singleton.mp hl]
      exact hfitR.length_le

end

/-- **When line ends do not matter.** For a file without carriage returns
whose lines fit the scanner, also with one more byte each, and for any number
of lines: `TailFile` returns the same text when each newline is preceded by a
carriage return exactly when there is no newline, or the file has as many
lines as are asked for and those of them that end in a newline are empty. -/
theorem crlf_same_tail_iff {c : Bytes} (hcr : 13 ∉ c)
    (hfit : ∀ l ∈ byteLines.rawLines (byteLines.crlf c), l.length ≤ 65535) {cnt : ℤ}
    (hcnt : 1 ≤ cnt) (filename : GoString) {fuel : ℕ} (hfuel : (byteLines.crlf c).length < fuel) :
    tailFile (FileEnv.still (byteLines.crlf c)) fuel filename cnt
        = tailFile (FileEnv.still c) fuel filename cnt
      ↔ 10 ∉ c ∨ cnt ≤ (byteLines.rawLines c).length
        ∧ ∀ l ∈ endedAmong c cnt.toNat, l = [] := by
  obtain ⟨ls, r, hls, hr, rfl⟩ := byteLines.exists_ends c
  obtain ⟨hfitLs, hfitR⟩ := fitLine_of_crlf hls hr hcr hfit
  have hlive := liveLog_of_fitLine hls hr hcr (fun l hl => (hfitLs l hl).1) hfitR
  have hfuel' := lt_of_le_of_lt (LineFormat.length_le_crlf (byteLines.ends ls ++ r)) hfuel
  have hends : byteLines.crlf (byteLines.ends ls ++ r)
      = byteLines.ends (ls.map (· ++ [13])) ++ r := LineFormat.crlf_ends hls hr
  rw [hends] at hfuel ⊢
  obtain ⟨m, hm⟩ := exists_tailCount cnt
  have hcount : cnt.toNat = m + 1 := by
    rw [← hm, tailCount, if_neg (not_lt.mpr hcnt)]
  rw [tailFile_crlf hfitLs hfitR filename cnt hfuel,
    hlive.tailFile_of_still (fun _ => rfl) rfl rfl cnt hfuel', hm,
    LineFormat.rawLines_ends hls hr, endedAmong, LineFormat.ended_ends hls hr,
    LineFormat.unended_ends hls hr, hcount, mem_ends_iff hr, not_not]
  by_cases hnil : r = []
  · rw [if_pos hnil, if_pos hnil, if_pos hnil, Option.some.injEq, Except.ok.injEq,
      intercalate_doubled_iff hls, rtake_doubled_iff]
    exact or_congr_right (and_congr_left fun _ => by omega)
  · rw [if_neg hnil, if_neg hnil, if_neg hnil, Option.some.injEq, Except.ok.injEq,
      List.rtake_concat_succ, Nat.add_sub_cancel, intercalate_doubled_concat_iff hls _ hr,
      rtake_doubled_iff, List.length_append, List.length_singleton]
    exact or_congr_right (and_congr_left fun _ => by omega)

/-- A file of an empty line and a line without a newline: its last two lines
are the same with a carriage return. -/
theorem crlf_same_tail_empty_line :
    13 ∉ ([10, 98] : Bytes)
      ∧ (∀ l ∈ byteLines.rawLines (byteLines.crlf [10, 98]), l.length ≤ 65535)
      ∧ tailFile (FileEnv.still (byteLines.crlf [10, 98])) 9 [] 2
        = tailFile (FileEnv.still [10, 98]) 9 [] 2 :=
  ⟨by decide, by decide, (crlf_same_tail_iff (by decide) (by decide) (by decide) []
    (by decide)).mpr (by decide)⟩

/-- The last line of `a\n` is `a`; with a carriage return it is empty. -/
theorem crlf_other_tail :
    tailFile (FileEnv.still [97, 10]) 9 [] 1 = some (.ok [97])
      ∧ tailFile (FileEnv.still (byteLines.crlf [97, 10])) 9 [] 1 = some (.ok []) := by
  decide
