import Mathlib.Algebra.Ring.Nat
import Mathlib.Data.List.DropRight
import Mathlib.Data.List.ModifyLast
import Sesh.FileTail
import Sesh.Scanner

/-!
# The lines of a tail

What `TailFile` returns, for files whose contents are known at every read
(`FileHandle.live`): a file that is appended to while it is read, or one that
stays as it is.

A search finds the start `s` of a piece of the file as soon as two things
hold of the scans around it (`FileHandle.exists_getLine_at`): a scan that
begins less than a step before `s` ends before `s`, and one that begins
between `s` and the cursor reaches the cursor. The file itself does not
matter. So a file is read as a list of *blocks* – pieces that a scan from
anywhere inside reaches the last byte of – and `TailFile` returns the last
of them, whatever they are (`exists_tailLoop_blocks`).

Where lines end in a newline, fit the scanner and hold no carriage return,
the blocks are the lines, so the tail is what it should be, also while the
file grows (`tail_live_log`), and each line is found whole exactly when it
fits (`line_whole_iff`).
-/

/-- The lines of a file, as `bufio.Scanner` reports them. -/
def byteLines : LineFormat UInt8 where
  newline := 10
  carriage := 13
  size := fun _ => 1
  limit := 65536

theorem width_byteLines (l : Bytes) : byteLines.width l = l.length := by
  induction l with
  | nil => rfl
  | cons b l ih =>
    show 1 + byteLines.width l = l.length + 1
    rw [ih, Nat.add_comm]

/-- **A file that is written while it is read**: what it holds at each
read. -/
def FileHandle.live (contents : ℕ → Bytes) : FileHandle where
  scan n p := byteLines.scan ((contents n).drop p.toNat)
  readAt n p := (contents n).drop p.toNat

/-- A file that stays as it is. -/
def FileHandle.still (c : Bytes) : FileHandle := FileHandle.live (fun _ => c)

theorem fill_append (l rest : Bytes) : fill l.length (l ++ rest) = l := by
  have hzero : l.length - (l ++ rest).length = 0 := by
    rw [List.length_append]
    omega
  rw [fill, List.take_left, hzero, List.replicate_zero, List.append_nil]

theorem fill_self (l : Bytes) : fill l.length l = l := by
  have h := fill_append l []
  rwa [List.append_nil] at h

theorem length_fill (n : ℕ) (b : Bytes) : (fill n b).length = n := by
  rw [fill, List.length_append, List.length_take, List.length_replicate]
  omega

/-! ## Finding a place -/

namespace FileHandle

/-- **A search finds the start of what the cursor is in.** It is enough
that a scan that begins at most a step before the start ends before it, and
that one that begins between the start and the cursor reaches the cursor. -/
theorem exists_getLine_at {f : FileHandle} {cursor s : ℕ} (hs : s ≤ cursor)
    (hbefore : ∀ n p : ℕ, p < s → s ≤ p + 50 → p + (f.scan n p).length < s)
    (hinside : ∀ n p : ℕ, s ≤ p → p ≤ cursor → cursor ≤ p + (f.scan n p).length)
    (log : IoLog) :
    ∃ (n : ℕ) (r : LineAt),
      (∀ fuel, cursor < fuel → f.getLineByPosition cursor fuel log = some (.ok r))
      ∧ r.head = s ∧ r.str = fill (f.scan n s).length (f.readAt (n + 1) s) := by
  -- the two conditions, for the integers the search goes by
  have hbefore' : ∀ (log : IoLog) (p : ℤ), 0 ≤ p → p < s → (s : ℤ) ≤ p + 50 →
      p + f.linelen log p < s := by
    intro log p hp hlt hle
    lift p to ℕ using hp
    have := hbefore log.reads p (by omega) (by omega)
    unfold linelen
    omega
  have hinside' : ∀ (log : IoLog) (p : ℤ), p ≤ cursor →
      p + f.linelen log p < cursor → p < s := by
    intro log p hcur hlt
    by_contra hge
    lift p to ℕ using by omega
    have := hinside log.reads p (by omega) (by omega)
    unfold linelen at hlt
    omega
  have hstep : ∀ now : ℤ, (s : ℤ) ≤ now → (s : ℤ) ≤ stepBack now + 50 := by
    intro now hnow
    unfold stepBack
    split <;> omega
  obtain ⟨t, r, hrun, ⟨hle, hnear⟩, hnn, -, hreach, rfl⟩ :=
    exists_getLine (f := f) (Int.natCast_nonneg cursor) log
      (fun t => (s : ℤ) ≤ t.now) (fun t => t.now ≤ s ∧ (s : ℤ) ≤ t.now + 50)
      (Int.ofNat_le.mpr hs)
      (by
        intro t t' ht hnn hle hgo
        obtain ⟨-, hge, rfl⟩ := of_backStep_inl hgo
        by_contra hlt
        have := hbefore' t.log _ (stepBack_nonneg t.now) (not_le.mp hlt) (hstep t.now ht)
        omega)
      (by
        intro t t' ht hnn hle hturn
        have hnear := hstep t.now ht
        obtain ⟨-, ⟨hzero, hnow⟩ | ⟨hlt, hnow⟩⟩ := of_backStep_inr hturn
        · rw [hnow]
          omega
        · have hbehind := hinside' t.log _ (le_trans (stepBack_le hnn) hle) hlt
          have := hbefore' t.log _ (stepBack_nonneg t.now) hbehind hnear
          rw [hnow]
          omega)
      (by
        rintro t t' ⟨hle, hnear⟩ hnn hcur hgo
        obtain ⟨hlt, rfl⟩ := of_forwardStep_inl hgo
        have := hbefore' t.log _ hnn (hinside' t.log _ hcur hlt) hnear
        dsimp only
        omega)
  have hnow : t.now = s := by
    by_contra hne
    have := hbefore' t.log t.now hnn (by omega) hnear
    omega
  refine ⟨t.log.reads, _, fun fuel hfuel => hrun fuel hfuel, hnow, ?_⟩
  show fill (f.linelen t.log t.now) (f.readAt (t.log.reads + 1) t.now) = _
  rw [hnow]
  rfl

end FileHandle

/-! ## Blocks -/

/-- A piece of a file: how many bytes it has, and what a search returns for
it. -/
structure Block where
  /-- The number of its bytes. -/
  size : ℕ
  /-- What is returned. -/
  token : Bytes
  deriving DecidableEq, Repr

/-- The bytes of some blocks. -/
def Block.total (bs : List Block) : ℕ := (bs.map Block.size).sum

theorem Block.total_concat (bs : List Block) (b : Block) :
    total (bs ++ [b]) = total bs + b.size := by
  unfold total
  rw [List.map_append, List.sum_append, List.map_singleton, List.sum_singleton]

/-- **A block lies at an offset**: a scan from any of its bytes stops before
its last one, and its token is what is read from its first one. -/
structure FileHandle.BlockAt (f : FileHandle) (off : ℕ) (b : Block) : Prop where
  /-- It is not empty. -/
  pos : 0 < b.size
  /-- A scan from a byte of it stops before its last byte. -/
  scan_add : ∀ n o, o < b.size → o + (f.scan n (off + o : ℕ)).length + 1 = b.size
  /-- Its token. -/
  token_eq : ∀ n, fill (f.scan n off).length (f.readAt (n + 1) off) = b.token

/-- Blocks lie one after the other from an offset on. -/
def FileHandle.Blocks (f : FileHandle) : ℕ → List Block → Prop
  | _, [] => True
  | off, b :: bs => f.BlockAt off b ∧ f.Blocks (off + b.size) bs

namespace FileHandle

variable {f : FileHandle}

theorem blocks_concat {off : ℕ} {bs : List Block} {b : Block} :
    f.Blocks off (bs ++ [b])
      ↔ f.Blocks off bs ∧ f.BlockAt (off + Block.total bs) b := by
  induction bs generalizing off with
  | nil => exact and_comm
  | cons b' bs ih =>
    have htotal : off + Block.total (b' :: bs) = off + b'.size + Block.total bs :=
      (Nat.add_assoc _ _ _).symm
    rw [List.cons_append, Blocks, ih, htotal, Blocks, and_assoc]

/-- A scan from inside of blocks ends inside of them. -/
theorem Blocks.scan_lt {off : ℕ} {bs : List Block} (h : f.Blocks off bs) {p : ℕ}
    (hoff : off ≤ p) (hp : p < off + Block.total bs) (n : ℕ) :
    p + (f.scan n p).length < off + Block.total bs := by
  induction bs generalizing off with
  | nil => exact absurd hp (not_lt.mpr hoff)
  | cons b bs ih =>
    have htotal : off + Block.total (b :: bs) = off + b.size + Block.total bs :=
      (Nat.add_assoc _ _ _).symm
    rw [htotal] at hp ⊢
    by_cases hin : p < off + b.size
    · have hscan := h.1.scan_add n (p - off) (by omega)
      rw [show off + (p - off) = p by omega] at hscan
      omega
    · exact ih h.2 (not_lt.mp hin) hp

/-- **What follows blocks is found.** -/
theorem Blocks.exists_getLine {bs : List Block} (h : f.Blocks 0 bs) (cursor : ℕ)
    (hcursor : Block.total bs ≤ cursor)
    (hinside : ∀ n p : ℕ, Block.total bs ≤ p → p ≤ cursor →
      cursor ≤ p + (f.scan n p).length) (log : IoLog) :
    ∃ (n : ℕ) (r : LineAt),
      (∀ fuel, cursor < fuel → f.getLineByPosition cursor fuel log = some (.ok r))
      ∧ r.head = Block.total bs
      ∧ r.str = fill (f.scan n (Block.total bs)).length (f.readAt (n + 1) (Block.total bs)) := by
  refine exists_getLine_at hcursor (fun n p hp _ => ?_) hinside log
  have hlt := h.scan_lt (Nat.zero_le p) (by rwa [Nat.zero_add]) n
  rwa [Nat.zero_add] at hlt

end FileHandle

theorem tailLoop_neg (f : FileHandle) (fuel n : ℕ) (run : TailRun) :
    tailLoop f fuel n (-1) run = some (.ok run) := by
  cases n with
  | zero => rfl
  | succ n => exact if_pos (by decide)

/-- A call that returns is a turn of the loop. -/
theorem tailLoop_succ {f : FileHandle} {fuel n cursor : ℕ} {run : TailRun} {l : LineAt}
    (h : f.getLineByPosition cursor fuel run.log = some (.ok l)) :
    tailLoop f fuel (n + 1) cursor run
      = tailLoop f fuel n (l.head - 1)
        ⟨l.str :: run.text, run.calls ++ [(cursor : ℤ)], l.log⟩ := by
  rw [tailLoop, if_neg (not_lt.mpr (Int.natCast_nonneg cursor)), h]

/-- **The loop of `TailFile` over blocks**: it returns the tokens of the
last of them. -/
theorem exists_tailLoop_blocks {f : FileHandle} {bs : List Block} (h : f.Blocks 0 bs)
    (n : ℕ) (run : TailRun) :
    ∃ run', (∀ fuel, Block.total bs ≤ fuel →
        tailLoop f fuel n (Block.total bs - 1) run = some (.ok run'))
      ∧ run'.text = (bs.map Block.token).rtake n ++ run.text := by
  induction bs using List.reverseRecOn generalizing n run with
  | nil =>
    refine ⟨run, fun fuel _ => tailLoop_neg f fuel n run, ?_⟩
    rw [List.map_nil, List.rtake_nil, List.nil_append]
  | append_singleton bs b ih =>
    obtain ⟨hbs, hb⟩ := FileHandle.blocks_concat.mp h
    rw [Nat.zero_add] at hb
    cases n with
    | zero => exact ⟨run, fun fuel _ => rfl, by rw [List.rtake_zero, List.nil_append]⟩
    | succ n =>
      have hpos := hb.pos
      obtain ⟨k, l, hl, hhead, hstr⟩ := hbs.exists_getLine
        (Block.total bs + b.size - 1) (by omega) (fun k p hle hp => by
          have hscan := hb.scan_add k (p - Block.total bs) (by omega)
          rw [show Block.total bs + (p - Block.total bs) = p by omega] at hscan
          omega) run.log
      rw [hb.token_eq k] at hstr
      obtain ⟨run', hrun', htext⟩ := ih hbs n
        ⟨l.str :: run.text, run.calls ++ [((Block.total bs + b.size - 1 : ℕ) : ℤ)], l.log⟩
      refine ⟨run', fun fuel hfuel => ?_, ?_⟩
      · rw [Block.total_concat] at hfuel ⊢
        rw [show ((Block.total bs + b.size : ℕ) : ℤ) - 1
          = (Block.total bs + b.size - 1 : ℕ) by omega, tailLoop_succ (hl fuel (by omega)),
          hhead]
        exact hrun' fuel (by omega)
      · rw [htext, List.map_append, List.map_singleton, List.rtake_concat_succ, hstr,
          List.append_assoc]
        rfl

/-- **The loop of `TailFile` over blocks and a rest**: where a scan from
inside of the rest reaches its end, the first call returns the rest, with
whatever else was read with it, and the others the tokens of the last
blocks. -/
theorem exists_tailLoop_rest {f : FileHandle} {bs : List Block} (h : f.Blocks 0 bs)
    {r : Bytes} (hne : r ≠ []) {P : Bytes → Prop}
    (hscan : ∀ n o, o ≤ r.length →
      r.length ≤ o + (f.scan n (Block.total bs + o : ℕ)).length)
    (hread : ∀ n, ∃ ext, P ext
      ∧ fill (f.scan n (Block.total bs)).length (f.readAt (n + 1) (Block.total bs)) = r ++ ext)
    (n : ℕ) (run : TailRun) :
    ∃ ext run', P ext
      ∧ (∀ fuel, Block.total bs + r.length ≤ fuel →
        tailLoop f fuel (n + 1) ((Block.total bs + r.length : ℕ) - 1) run = some (.ok run'))
      ∧ run'.text = (bs.map Block.token).rtake n ++ (r ++ ext) :: run.text := by
  have hpos : 0 < r.length := List.length_pos_of_ne_nil hne
  obtain ⟨k, l, hl, hhead, hstr⟩ := h.exists_getLine (Block.total bs + r.length - 1)
    (by omega) (fun k p hle hp => by
      have := hscan k (p - Block.total bs) (by omega)
      rw [show Block.total bs + (p - Block.total bs) = p by omega] at this
      omega) run.log
  obtain ⟨ext, hext, hfill⟩ := hread k
  obtain ⟨run', hrun', htext⟩ := exists_tailLoop_blocks h n
    ⟨l.str :: run.text, run.calls ++ [((Block.total bs + r.length - 1 : ℕ) : ℤ)], l.log⟩
  refine ⟨ext, run', hext, fun fuel hfuel => ?_, ?_⟩
  · rw [show ((Block.total bs + r.length : ℕ) : ℤ) - 1
      = (Block.total bs + r.length - 1 : ℕ) by omega, tailLoop_succ (hl fuel (by omega)),
      hhead]
    exact hrun' fuel (by omega)
  · rw [htext, hstr, hfill]

/-! ## Lines are blocks -/

/-- A line that can be read: it has no line end in it, and fits the scanner
with its newline. -/
structure FitLine (l : Bytes) : Prop where
  newline_notMem : 10 ∉ l
  carriage_notMem : 13 ∉ l
  length_le : l.length ≤ 65535

theorem FitLine.drop {l : Bytes} (hl : FitLine l) (o : ℕ) : FitLine (l.drop o) where
  newline_notMem h := hl.newline_notMem (List.mem_of_mem_drop h)
  carriage_notMem h := hl.carriage_notMem (List.mem_of_mem_drop h)
  length_le := by
    have := hl.length_le
    rw [List.length_drop]
    omega

/-- A scan yields the line it begins in, if it fits. -/
theorem scan_byteLines {p : Bytes} (h : FitLine (byteLines.firstLine p)) :
    byteLines.scan p = byteLines.firstLine p := by
  refine LineFormat.scan_of_notMem_carriage h.carriage_notMem ?_
  rw [width_byteLines]
  exact Nat.lt_succ_of_le h.length_le

theorem FitLine.scan_append_newline {l : Bytes} (hl : FitLine l) (rest : Bytes) :
    byteLines.scan (l ++ 10 :: rest) = l := by
  have hfirst : byteLines.firstLine (l ++ 10 :: rest) = l :=
    LineFormat.firstLine_append_newline hl.newline_notMem rest
  rw [scan_byteLines (hfirst.symm ▸ hl), hfirst]

/-- A scan inside of a line that `r` begins yields the rest of it. -/
theorem scan_drop_append {r y : Bytes} (hr : 10 ∉ r)
    (hfit : FitLine (r ++ byteLines.firstLine y)) {o : ℕ} (ho : o ≤ r.length) :
    byteLines.scan ((r ++ y).drop o) = (r ++ byteLines.firstLine y).drop o := by
  have hfirst : byteLines.firstLine ((r ++ y).drop o)
      = (r ++ byteLines.firstLine y).drop o := by
    rw [List.drop_append_of_le_length ho, List.drop_append_of_le_length ho]
    exact LineFormat.firstLine_append (fun h => hr (List.mem_of_mem_drop h)) y
  rw [scan_byteLines (hfirst ▸ hfit.drop o), hfirst]

namespace FileHandle

variable {contents : ℕ → Bytes}

theorem scan_live (n p : ℕ) :
    (live contents).scan n p = byteLines.scan ((contents n).drop p) := rfl

theorem readAt_live (n p : ℕ) : (live contents).readAt n p = (contents n).drop p := rfl

/-- **A line that ends in a newline is a block.** -/
theorem blockAt_line {off : ℕ} {l : Bytes} (hl : FitLine l) {rest : ℕ → Bytes}
    (h : ∀ n, (contents n).drop off = l ++ 10 :: rest n) :
    (live contents).BlockAt off ⟨l.length + 1, l⟩ where
  pos := Nat.succ_pos _
  scan_add n o ho := by
    have hle : o ≤ l.length := Nat.lt_succ_iff.mp ho
    rw [scan_live, ← List.drop_drop, h, List.drop_append_of_le_length hle,
      (hl.drop o).scan_append_newline, List.length_drop]
    show o + (l.length - o) + 1 = l.length + 1
    omega
  token_eq n := by
    rw [scan_live, readAt_live, h, h, hl.scan_append_newline, fill_append]

/-- **Lines that end in newlines are blocks.** -/
theorem blocks_lines {off : ℕ} {ls : List Bytes} (hls : ∀ l ∈ ls, FitLine l)
    {rest : ℕ → Bytes} (h : ∀ n, (contents n).drop off = byteLines.ends ls ++ rest n) :
    (live contents).Blocks off (ls.map (fun l => ⟨l.length + 1, l⟩)) := by
  induction ls generalizing off with
  | nil => exact trivial
  | cons l ls ih =>
    obtain ⟨hl, hls⟩ := List.forall_mem_cons.mp hls
    have hcons : ∀ n, (contents n).drop off = l ++ 10 :: (byteLines.ends ls ++ rest n) :=
      fun n => (h n).trans (LineFormat.ends_cons_append l ls (rest n))
    refine ⟨blockAt_line hl hcons, ih hls fun n => ?_⟩
    show (contents n).drop (off + (l.length + 1)) = _
    rw [← List.drop_drop, hcons, List.drop_append, Nat.add_sub_cancel_left,
      List.drop_eq_nil_of_le (Nat.le_succ _)]
    rfl

end FileHandle

theorem total_lines (ls : List Bytes) :
    Block.total (ls.map (fun l => ⟨l.length + 1, l⟩)) = (byteLines.ends ls).length := by
  induction ls with
  | nil => rfl
  | cons l ls ih =>
    have hends := congrArg List.length (LineFormat.ends_cons_append (F := byteLines) l ls [])
    rw [List.append_nil, List.append_nil, List.length_append, List.length_cons] at hends
    show l.length + 1 + Block.total _ = _
    rw [ih, hends]
    omega

theorem tokens_lines (ls : List Bytes) :
    (ls.map (fun l => (⟨l.length + 1, l⟩ : Block))).map Block.token = ls := by
  rw [List.map_map]
  exact List.map_id ls

/-! ## A file that grows -/

/-- **The contents of a file that is only appended to**, from what `os.Stat`
saw on, with no carriage return in them and no line that does not fit the
scanner. -/
structure LiveLog (c₀ : Bytes) (contents : ℕ → Bytes) : Prop where
  /-- Every read sees what was there. -/
  extends_stat : ∀ n, c₀ <+: contents n
  /-- Every read sees what the one before it saw. -/
  grows : ∀ n, contents n <+: contents (n + 1)
  /-- There is no carriage return. -/
  carriage_notMem : ∀ n, 13 ∉ contents n
  /-- Every line fits the scanner. -/
  length_le : ∀ n, ∀ l ∈ byteLines.rawLines (contents n), l.length ≤ 65535

namespace LiveLog

variable {ls : List Bytes} {r : Bytes} {contents : ℕ → Bytes}

/-- What follows the complete lines, at each read. -/
theorem exists_rest (h : LiveLog (byteLines.ends ls ++ r) contents) :
    ∃ y : ℕ → Bytes, ∀ n, contents n = byteLines.ends ls ++ (r ++ y n) := by
  refine ⟨fun n => (contents n).drop (byteLines.ends ls ++ r).length, fun n => ?_⟩
  rw [← List.append_assoc]
  exact (List.prefix_iff_eq_append.mp (h.extends_stat n)).symm

variable (hls : ∀ l ∈ ls, 10 ∉ l)

include hls

theorem fitLine (h : LiveLog (byteLines.ends ls ++ r) contents) {l : Bytes} (hl : l ∈ ls) :
    FitLine l := by
  obtain ⟨y, hy⟩ := h.exists_rest
  have hraw : l ∈ byteLines.rawLines (contents 0) := by
    rw [hy 0, LineFormat.rawLines_ends_append hls]
    exact List.mem_append_left _ hl
  refine ⟨hls l hl, fun hmem => h.carriage_notMem 0 ?_, h.length_le 0 l hraw⟩
  rw [hy 0]
  refine List.mem_append_left _ (List.mem_flatMap.mpr ⟨l, hl, ?_⟩)
  exact List.mem_append_left _ hmem

/-- The line that `r` begins fits at each read. -/
theorem fitLine_rest (h : LiveLog (byteLines.ends ls ++ r) contents)
    {y : ℕ → Bytes} (hy : ∀ n, contents n = byteLines.ends ls ++ (r ++ y n)) (n : ℕ) :
    FitLine (byteLines.firstLine (r ++ y n)) := by
  refine ⟨LineFormat.newline_notMem_firstLine _, fun hmem => h.carriage_notMem n ?_, ?_⟩
  · rw [hy n]
    exact List.mem_append_right _ ((List.takeWhile_prefix _).subset hmem)
  · by_cases hnil : byteLines.firstLine (r ++ y n) = []
    · rw [hnil]
      exact Nat.zero_le _
    · refine h.length_le n _ ?_
      rw [hy n, LineFormat.rawLines_ends_append hls]
      exact List.mem_append_right _ (LineFormat.firstLine_mem_rawLines hnil)

section

variable (h : LiveLog (byteLines.ends ls ++ r) contents) (hr : 10 ∉ r)
  {y : ℕ → Bytes} (hy : ∀ n, contents n = byteLines.ends ls ++ (r ++ y n))

include h hr hy

/-- A scan inside of the line that `r` begins. -/
theorem scan_rest (n : ℕ) {o : ℕ} (ho : o ≤ r.length) :
    (FileHandle.live contents).scan n ((byteLines.ends ls).length + o : ℕ)
      = (r ++ byteLines.firstLine (y n)).drop o := by
  have hfit := fitLine_rest hls h hy n
  rw [show byteLines.firstLine (r ++ y n) = r ++ byteLines.firstLine (y n) from
    LineFormat.firstLine_append hr (y n)] at hfit
  rw [FileHandle.scan_live, ← List.drop_drop, hy n, List.drop_left]
  exact scan_drop_append hr hfit ho

/-- What is read after a scan of that line is what the scan saw: the file
has not lost it. -/
theorem fill_rest (n : ℕ) :
    fill ((FileHandle.live contents).scan n (byteLines.ends ls).length).length
        ((FileHandle.live contents).readAt (n + 1) (byteLines.ends ls).length)
      = r ++ byteLines.firstLine (y n) := by
  obtain ⟨z, hz⟩ := h.grows n
  obtain ⟨y', hy'⟩ : byteLines.firstLine (y n) <+: y n := List.takeWhile_prefix _
  have hread : (FileHandle.live contents).readAt (n + 1) (byteLines.ends ls).length
      = (r ++ byteLines.firstLine (y n)) ++ (y' ++ z) := by
    rw [FileHandle.readAt_live, ← hz, hy n, List.append_assoc, List.drop_left]
    nth_rewrite 1 [← hy']
    simp only [List.append_assoc]
  have hscan := scan_rest hls h hr hy n (Nat.zero_le r.length)
  rw [Nat.add_zero, List.drop_zero] at hscan
  rw [hread, hscan, fill_append]

end

end LiveLog

theorem exists_tailCount (cnt : ℤ) : ∃ m, tailCount cnt = m + 1 := by
  refine Nat.exists_eq_add_one_of_ne_zero ?_
  unfold tailCount
  split
  · decide
  · omega

/-- `TailFile` on a file that can be opened. -/
theorem tailFile_eq {env : FileEnv} {filename : GoString} {size : ℕ} {f : FileHandle}
    (hstat : env.stat filename = .ok size) (hopen : env.openFile filename = .ok f)
    {fuel : ℕ} {cnt : ℤ} {run : TailRun} (h : tailRun f fuel size cnt = some (.ok run)) :
    tailFile env fuel filename cnt = some (.ok ([10].intercalate run.text)) := by
  rw [tailFile, hstat]
  dsimp only
  rw [hopen]
  dsimp only
  rw [h]
  rfl

theorem modifyLast_append_nil (ls : List Bytes) : ls.modifyLast (· ++ []) = ls := by
  rcases List.eq_nil_or_concat' ls with rfl | ⟨ls, l, rfl⟩
  · rfl
  · rw [List.modifyLast_concat, List.append_nil]

/-- The lines of the tail of a live log. -/
theorem LiveLog.exists_tailRun {c₀ : Bytes} {contents : ℕ → Bytes}
    (h : LiveLog c₀ contents) (cnt : ℤ) :
    ∃ (ext : Bytes) (run : TailRun), 10 ∉ ext ∧ (c₀.getLast? = some 10 → ext = [])
      ∧ (∃ n, c₀ ++ ext <+: contents n)
      ∧ (∀ fuel, c₀.length < fuel →
        tailRun (FileHandle.live contents) fuel c₀.length cnt = some (.ok run))
      ∧ run.text = ((byteLines.rawLines c₀).rtake (tailCount cnt)).modifyLast (· ++ ext) := by
  obtain ⟨ls, r, hls, hr, rfl⟩ := byteLines.exists_ends c₀
  obtain ⟨y, hy⟩ := h.exists_rest
  have htotal := total_lines ls
  have hblocks : (FileHandle.live contents).Blocks 0 (ls.map fun l => ⟨l.length + 1, l⟩) :=
    FileHandle.blocks_lines (fun l hl => h.fitLine hls hl) hy
  rw [LineFormat.rawLines_ends hls hr]
  by_cases hnil : r = []
  · -- every line ends in a newline, and is a block
    subst hnil
    obtain ⟨run, hrun, htext⟩ := exists_tailLoop_blocks hblocks (tailCount cnt) TailRun.empty
    rw [htotal] at hrun
    rw [tokens_lines] at htext
    refine ⟨[], run, List.not_mem_nil, fun _ => rfl, ⟨0, ?_⟩, fun fuel hfuel => ?_, ?_⟩
    · rw [List.append_nil]
      exact h.extends_stat 0
    · rw [List.append_nil] at hfuel ⊢
      exact hrun fuel (le_of_lt hfuel)
    · rw [if_pos rfl, modifyLast_append_nil, htext]
      exact List.append_nil _
  · -- the first call returns the line without a newline, the others are blocks
    obtain ⟨m, hm⟩ := exists_tailCount cnt
    obtain ⟨ext, run, ⟨hext, hpre⟩, hrun, htext⟩ := exists_tailLoop_rest hblocks hnil
      (P := fun ext => 10 ∉ ext ∧ ∃ n, byteLines.ends ls ++ r ++ ext <+: contents n)
      (fun n o ho => by
        rw [htotal, LiveLog.scan_rest hls h hr hy n ho, List.length_drop, List.length_append]
        omega)
      (fun n => by
        refine ⟨byteLines.firstLine (y n),
          ⟨LineFormat.newline_notMem_firstLine _, n, ?_⟩, ?_⟩
        · rw [hy n, ← List.append_assoc]
          exact (List.prefix_append_right_inj _).mpr (List.takeWhile_prefix _)
        · rw [htotal]
          exact LiveLog.fill_rest hls h hr hy n) m TailRun.empty
    rw [htotal, ← List.length_append] at hrun
    rw [tokens_lines] at htext
    refine ⟨ext, run, hext, fun hlast => ?_, hpre, fun fuel hfuel => ?_, ?_⟩
    · rw [List.getLast?_append_of_ne_nil _ hnil] at hlast
      exact absurd (List.mem_of_getLast? hlast) hr
    · rw [tailRun, hm]
      exact hrun fuel (le_of_lt hfuel)
    · rw [if_neg hnil, hm, List.rtake_concat_succ, List.modifyLast_concat, htext]
      rfl

/-- Nothing can have been appended to a file that stays as it is. -/
theorem LiveLog.tailFile_of_still {c₀ : Bytes} {contents : ℕ → Bytes}
    (h : LiveLog c₀ contents) (hstill : ∀ n, contents n = c₀) {env : FileEnv}
    {filename : GoString} (hstat : env.stat filename = .ok c₀.length)
    (hopen : env.openFile filename = .ok (FileHandle.live contents)) (cnt : ℤ) {fuel : ℕ}
    (hfuel : c₀.length < fuel) :
    tailFile env fuel filename cnt
      = some (.ok ([10].intercalate ((byteLines.rawLines c₀).rtake (tailCount cnt)))) := by
  obtain ⟨ext, run, -, -, ⟨n, hn⟩, hrun, htext⟩ := h.exists_tailRun cnt
  have hle := hn.length_le
  rw [hstill n, List.length_append] at hle
  obtain rfl : ext = [] := List.eq_nil_of_length_eq_zero (by omega)
  rw [tailFile_eq hstat hopen (hrun fuel hfuel), htext, modifyLast_append_nil]

/-- **The tail of a live log.** Let the file be appended to while it is read
– each scan and each read may see more of it than the last one, with no
carriage return and no line that does not fit. Then `TailFile` returns the
last lines of what `os.Stat` saw, as many as it was asked for or as there
are, joined by newlines; only the last of them may be longer, by bytes that
were appended to it, and only if no newline ended it. If nothing is
appended, it returns just the last lines. -/
theorem tail_live_log {c₀ : Bytes} {contents : ℕ → Bytes} (h : LiveLog c₀ contents)
    {env : FileEnv} {filename : GoString} (hstat : env.stat filename = .ok c₀.length)
    (hopen : env.openFile filename = .ok (FileHandle.live contents)) (cnt : ℤ) :
    (∃ ext : Bytes, 10 ∉ ext ∧ (c₀.getLast? = some 10 → ext = [])
      ∧ (∃ n, c₀ ++ ext <+: contents n)
      ∧ ∀ fuel, c₀.length < fuel → tailFile env fuel filename cnt
        = some (.ok ([10].intercalate (((byteLines.rawLines c₀).rtake
            (if cnt < 1 then 10 else cnt.toNat)).modifyLast (· ++ ext)))))
    ∧ ((∀ n, contents n = c₀) → ∀ fuel, c₀.length < fuel → tailFile env fuel filename cnt
        = some (.ok ([10].intercalate ((byteLines.rawLines c₀).rtake
            (if cnt < 1 then 10 else cnt.toNat))))) := by
  refine ⟨?_, fun hstill fuel hfuel => h.tailFile_of_still hstill hstat hopen cnt hfuel⟩
  obtain ⟨ext, run, hext, hlast, hpre, hrun, htext⟩ := h.exists_tailRun cnt
  refine ⟨ext, hext, hlast, hpre, fun fuel hfuel => ?_⟩
  rw [tailFile_eq hstat hopen (hrun fuel hfuel), htext]
  rfl

/-- A log that is `a\nb` when it is looked at, and to which a `c` and a
newline are appended after the first read. -/
theorem tail_live_log_appended :
    let contents : ℕ → Bytes := fun n => if n = 0 then [97, 10, 98] else [97, 10, 98, 99, 10]
    let env : FileEnv := ⟨fun _ => .ok 3, fun _ => .ok (.live contents)⟩
    LiveLog [97, 10, 98] contents ∧ ∃ ext, ∀ fuel, 3 < fuel →
      tailFile env fuel [] 2 = some (.ok ([97, 10, 98] ++ ext)) := by
  intro contents env
  have hcases : ∀ {P : Bytes → Prop}, P [97, 10, 98] → P [97, 10, 98, 99, 10] →
      ∀ n, P (contents n) := by
    intro P hbefore hafter n
    by_cases hn : n = 0
    · rwa [show contents n = _ from if_pos hn]
    · rwa [show contents n = _ from if_neg hn]
  have hlive : LiveLog [97, 10, 98] contents := by
    have hshort : ∀ n, ∀ l ∈ byteLines.rawLines (contents n), l.length ≤ 65535 :=
      hcases (P := fun c => ∀ l ∈ byteLines.rawLines c, l.length ≤ 65535) (by decide) (by decide)
    have hlast : ∀ n, contents n <+: [97, 10, 98, 99, 10] :=
      hcases (P := (· <+: [97, 10, 98, 99, 10])) (by decide) (by decide)
    refine ⟨hcases (P := ([97, 10, 98] <+: ·)) (by decide) (by decide), fun n => ?_,
      hcases (P := (13 ∉ ·)) (by decide) (by decide), hshort⟩
    rw [show contents (n + 1) = [97, 10, 98, 99, 10] from if_neg (Nat.succ_ne_zero n)]
    exact hlast n
  have hstat : env.stat [] = .ok 3 := rfl
  have hlines : (byteLines.rawLines [97, 10, 98]).rtake 2 = [[97]] ++ [[98]] := by decide
  obtain ⟨⟨ext, -, -, -, htail⟩, -⟩ := tail_live_log hlive hstat rfl 2
  refine ⟨hlive, ext, fun fuel hfuel => (htail fuel hfuel).trans ?_⟩
  show some (Except.ok ([10].intercalate
    (((byteLines.rawLines [97, 10, 98]).rtake 2).modifyLast (· ++ ext)))) = _
  rw [hlines, List.modifyLast_concat]
  simp [List.intercalate]

/-! ## A line of any length -/

/-- Where the line a position lies on begins. -/
def lineHead (c : Bytes) (cursor : ℕ) : ℕ :=
  ((c.take cursor).rdropWhile (fun b => decide (b ≠ 10))).length

/-- **The line a position lies on**: what is before the position since the
last newline, and what is from it on up to the next one. -/
def lineOf (c : Bytes) (cursor : ℕ) : Bytes :=
  (c.take cursor).rtakeWhile (fun b => decide (b ≠ 10)) ++ byteLines.firstLine (c.drop cursor)

/-- **A position lies on a line**: the line begins at the start of the file
or behind a newline, not after the position and with no newline between, and
goes up to the next newline or the end of the file. -/
structure OnLine (p : Bytes) (cursor head : ℕ) (str : Bytes) : Prop where
  head_le : head ≤ cursor
  starts : head = 0 ∨ p[head - 1]? = some 10
  newline_notMem : 10 ∉ (p.drop head).take (cursor - head)
  str_eq : str = byteLines.firstLine (p.drop head)

/-- The parts of a file around a position: the lines before, the beginning of
the line it lies on, and the rest. -/
structure Around (c : Bytes) (cursor : ℕ) (before a d : Bytes) : Prop where
  content_eq : c = before ++ (a ++ d)
  cursor_eq : cursor = before.length + a.length
  newline_notMem : 10 ∉ a
  ended : before = [] ∨ ∃ q, before = q ++ [10]
  head_eq : lineHead c cursor = before.length
  line_eq : lineOf c cursor = a ++ byteLines.firstLine d

theorem exists_around {c : Bytes} {cursor : ℕ} (h : cursor ≤ c.length) :
    ∃ before a d, Around c cursor before a d := by
  have hsplit : (c.take cursor).rdropWhile (fun b => decide (b ≠ 10))
      ++ (c.take cursor).rtakeWhile (fun b => decide (b ≠ 10)) = c.take cursor :=
    List.rdropWhile_append_rtakeWhile
  refine ⟨_, _, c.drop cursor, ?_, ?_, fun hmem => ?_, ?_, rfl, rfl⟩
  · rw [← List.append_assoc, hsplit, List.take_append_drop]
  · rw [← List.length_append, hsplit, List.length_take, Nat.min_eq_left h]
  · exact absurd (List.mem_rtakeWhile_imp hmem) (by simp)
  · rcases List.eq_nil_or_concat'
      ((c.take cursor).rdropWhile (fun b => decide (b ≠ 10))) with hnil | ⟨q, b, hq⟩
    · exact Or.inl hnil
    · refine Or.inr ⟨q, ?_⟩
      have hlast := List.rdropWhile_last_not (fun b => decide (b ≠ 10)) (c.take cursor)
        (by rw [hq]; exact List.concat_ne_nil b q)
      simp only [hq, List.getLast_append_singleton] at hlast
      rw [hq, show b = 10 by simpa using hlast]

theorem Around.onLine {c : Bytes} {cursor : ℕ} {before a d : Bytes}
    (h : Around c cursor before a d) : OnLine c cursor before.length (lineOf c cursor) where
  head_le := by
    rw [h.cursor_eq]
    exact Nat.le_add_right _ _
  starts := by
    rcases h.ended with hnil | ⟨q, hq⟩
    · exact Or.inl (congrArg List.length hnil)
    · refine Or.inr ?_
      rw [h.content_eq, hq, List.length_append, List.append_assoc, List.length_singleton,
        Nat.add_sub_cancel, List.getElem?_append_right (le_refl _), Nat.sub_self]
      rfl
  newline_notMem := by
    rw [h.cursor_eq, Nat.add_sub_cancel_left, h.content_eq, List.drop_left, List.take_left]
    exact h.newline_notMem
  str_eq := by
    rw [h.line_eq, h.content_eq, List.drop_left]
    exact (LineFormat.firstLine_append h.newline_notMem d).symm

/-- A position lies on one line only. -/
theorem OnLine.head_unique {c : Bytes} {cursor head head' : ℕ} {str str' : Bytes}
    (h : OnLine c cursor head str) (h' : OnLine c cursor head' str') : head ≤ head' := by
  by_contra hlt
  have hle := h.head_le
  rcases h.starts with hzero | hnl
  · omega
  · refine h'.newline_notMem (List.mem_of_getElem? (i := head - 1 - head') ?_)
    rw [List.getElem?_take_of_lt (by omega), List.getElem?_drop,
      show head' + (head - 1 - head') = head - 1 by omega, hnl]

theorem OnLine.str_unique {c : Bytes} {cursor head head' : ℕ} {str str' : Bytes}
    (h : OnLine c cursor head str) (h' : OnLine c cursor head' str') : str = str' := by
  obtain rfl : head = head' := le_antisymm (h.head_unique h') (h'.head_unique h)
  rw [h.str_eq, h'.str_eq]

/-- What a search finds on a file that stays as it is, where the line fits. -/
theorem Around.exists_getLine {c : Bytes} {cursor : ℕ} {before a d : Bytes}
    (h : Around c cursor before a d) (hcr : 13 ∉ c)
    (hfit : (lineOf c cursor).length ≤ 65535) (log : IoLog) :
    ∃ r : LineAt,
      (∀ fuel, cursor < fuel →
        (FileHandle.still c).getLineByPosition cursor fuel log = some (.ok r))
      ∧ r.head = before.length ∧ r.str = lineOf c cursor := by
  have hline := h.line_eq
  have hfitLine : FitLine (a ++ byteLines.firstLine d) := by
    rw [← hline]
    refine ⟨?_, fun hmem => hcr ?_, hfit⟩
    · rw [h.onLine.str_eq]
      exact LineFormat.newline_notMem_firstLine _
    · rw [h.onLine.str_eq] at hmem
      exact List.mem_of_mem_drop ((List.takeWhile_prefix _).subset hmem)
  have hscan : ∀ n o, o ≤ a.length →
      (FileHandle.still c).scan n (before.length + o : ℕ)
        = (a ++ byteLines.firstLine d).drop o := by
    intro n o ho
    rw [FileHandle.still, FileHandle.scan_live, ← List.drop_drop, h.content_eq,
      List.drop_left]
    exact scan_drop_append h.newline_notMem hfitLine ho
  obtain ⟨n, r, hr, hhead, hstr⟩ := FileHandle.exists_getLine_at (f := FileHandle.still c)
    h.onLine.head_le
    (fun n p hp hnear => by
      -- a newline ends what is before, less than a step away
      obtain ⟨q, rfl⟩ : ∃ q, before = q ++ [10] :=
        h.ended.resolve_left (List.ne_nil_of_length_pos (Nat.zero_lt_of_lt hp))
      rw [List.length_append, List.length_singleton] at hp hnear ⊢
      have hdrop : c.drop p = q.drop p ++ 10 :: (a ++ d) := by
        rw [h.content_eq, List.append_assoc, List.drop_append_of_le_length (by omega)]
        rfl
      have hlen : (byteLines.firstLine (c.drop p)).length ≤ q.length - p := by
        rw [hdrop, ← List.length_drop]
        exact LineFormat.length_firstLine_le _ _
      have hp' : FitLine (byteLines.firstLine (c.drop p)) := by
        refine ⟨LineFormat.newline_notMem_firstLine _, fun hmem => hcr ?_, by omega⟩
        exact List.mem_of_mem_drop ((List.takeWhile_prefix _).subset hmem)
      rw [FileHandle.still, FileHandle.scan_live, scan_byteLines hp']
      omega)
    (fun n p hle hp => by
      rw [h.cursor_eq] at hp ⊢
      have hp' := hscan n (p - before.length) (by omega)
      rw [show before.length + (p - before.length) = p by omega] at hp'
      rw [hp', List.length_drop, List.length_append]
      omega) log
  refine ⟨r, hr, hhead, ?_⟩
  have hscan₀ := hscan n 0 (Nat.zero_le _)
  rw [Nat.add_zero, List.drop_zero] at hscan₀
  obtain ⟨d', hd⟩ : byteLines.firstLine d <+: d := List.takeWhile_prefix _
  have hread : (FileHandle.still c).readAt (n + 1) before.length
      = (a ++ byteLines.firstLine d) ++ d' := by
    rw [FileHandle.still, FileHandle.readAt_live, h.content_eq, List.drop_left,
      List.append_assoc, hd]
  rw [hstr, hscan₀, hread, fill_append, hline]

/-- A search never returns a line the scanner's buffer would not hold. -/
theorem length_str_le {c : Bytes} {cursor : ℕ} {log : IoLog} {r : LineAt}
    (h : ∀ fuel, cursor < fuel →
      (FileHandle.still c).getLineByPosition cursor fuel log = some (.ok r)) :
    r.str.length ≤ 65535 := by
  obtain ⟨s, r', hr', -, -, -, -, rfl⟩ :=
    FileHandle.exists_getLine (f := FileHandle.still c) (Int.natCast_nonneg cursor) log
      (fun _ => True) (fun _ => True) trivial (fun _ _ _ _ _ _ => trivial)
      (fun _ _ _ _ _ _ => trivial) (fun _ _ _ _ _ _ => trivial)
  have hfuel := Nat.lt_succ_self cursor
  have heq := Except.ok.inj (Option.some.inj ((h _ hfuel).symm.trans (hr' _ hfuel)))
  rw [heq]
  show (fill _ _).length ≤ 65535
  rw [length_fill]
  have hwidth := byteLines.width_scan_lt (by decide) (c.drop s.now.toNat)
  rw [width_byteLines] at hwidth
  exact Nat.le_of_lt_succ hwidth

/-- **When a line is returned whole.** On a file that stays as it is and has
no carriage return in it, for every position inside of it,
`GetLineByPosition` returns the line the position lies on – where it begins,
and all of it – exactly when that line has at most 65535 bytes. How long the
other lines are does not matter. -/
theorem line_whole_iff {c : Bytes} (hcr : 13 ∉ c) {cursor : ℕ} (hcursor : cursor < c.length)
    (log : IoLog) :
    (∃ (head : ℕ) (r : LineAt),
      (∀ fuel, cursor < fuel →
        (FileHandle.still c).getLineByPosition cursor fuel log = some (.ok r))
      ∧ r.head = head ∧ OnLine c cursor head r.str)
      ↔ (lineOf c cursor).length ≤ 65535 := by
  obtain ⟨before, a, d, h⟩ := exists_around (le_of_lt hcursor)
  constructor
  · rintro ⟨head, r, hr, -, hon⟩
    rw [← hon.str_unique h.onLine]
    exact length_str_le hr
  · intro hfit
    obtain ⟨r, hr, hhead, hstr⟩ := h.exists_getLine hcr hfit log
    exact ⟨before.length, r, hr, hhead, hstr ▸ h.onLine⟩

/-- The last line of a file is found from its last byte. -/
theorem line_whole_last_line :
    13 ∉ ([97, 10, 98, 98] : Bytes) ∧ 3 < ([97, 10, 98, 98] : Bytes).length
      ∧ ∃ (head : ℕ) (r : LineAt),
        (∀ fuel, 3 < fuel →
          (FileHandle.still [97, 10, 98, 98]).getLineByPosition (3 : ℕ) fuel IoLog.empty
            = some (.ok r))
        ∧ r.head = head ∧ OnLine [97, 10, 98, 98] 3 head r.str :=
  ⟨by decide, by decide, (line_whole_iff (by decide) (by decide) IoLog.empty).mpr (by decide)⟩

/-- A file of one line that is one byte too long: nothing of it is
returned. -/
theorem line_too_long :
    (∃ r : LineAt, (∀ fuel, 0 < fuel →
        (FileHandle.still (List.replicate 65536 97)).getLineByPosition 0 fuel IoLog.empty
          = some (.ok r))
      ∧ r.head = 0 ∧ r.str = [])
    ∧ OnLine (List.replicate 65536 97) 0 0 (List.replicate 65536 97) := by
  have hnl : 10 ∉ List.replicate 65536 (97 : UInt8) :=
    fun hmem => absurd (List.eq_of_mem_replicate hmem) (by decide)
  have hlen : (List.replicate 65536 (97 : UInt8)).length = 65536 := List.length_replicate
  generalize List.replicate 65536 (97 : UInt8) = c at hnl hlen
  have hfirst : byteLines.firstLine c = c := LineFormat.firstLine_of_notMem hnl
  have hscan : byteLines.scan c = [] := by
    rw [LineFormat.scan_eq, hfirst, width_byteLines, hlen]
    rfl
  obtain ⟨n, r, hr, hhead, hstr⟩ := FileHandle.exists_getLine_at
    (f := FileHandle.still c) (le_refl 0) (fun n p hp => absurd hp (Nat.not_lt_zero p))
    (fun n p hp _ => Nat.zero_le _) IoLog.empty
  refine ⟨⟨r, hr, hhead, ?_⟩, le_refl 0, Or.inl rfl, List.not_mem_nil, hfirst.symm⟩
  rw [hstr, FileHandle.still, FileHandle.scan_live, List.drop_zero, hscan]
  exact fill_append [] _
