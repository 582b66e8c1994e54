import Mathlib.Algebra.Order.Group.Int
import Mathlib.Data.List.Chain
import Mathlib.Data.Set.Defs
import Sesh.ByteStore
import Sesh.Loop
import Sesh.Text

/-!
# Reading a file from its end

The tail of a file is read line by line from its end (`file_tail.go`). From
a position in the file, `GetLineByPosition` goes back in steps of 50 bytes
until a scan from there ends before the position, goes on behind that scan,
and then forward line by line to the one the position lies on. `TailFile`
calls it at the last byte, and then each time at the byte before the line it
was given.

The file may be written, cut short or replaced while it is read, so what a
scan yields is a matter of the moment: a `FileHandle` answers each read by
its number, and no two answers need to fit each other. Nor is it looked at
whether a scan succeeds. Still both loops end, and every position sought
lies between the start of the file and the one given (`tail_search_ends`):
the first loop only ever goes back and stops at the start, and the second
one only takes a step that does not pass the position.

Positions are integers here. A scan yields less than 65536 bytes, so the
sums of the source stay below the position given and that, and do not wrap
unless a file has close to 2^63 bytes.
-/

/-- **An open file that others may write**: what each read finds in it, by
the number of reads before. -/
structure FileHandle where
  /-- What the first call of a new scanner yields from a position on. -/
  scan : ℕ → ℤ → Bytes
  /-- What there is from a position on. -/
  readAt : ℕ → ℤ → Bytes

/-- What was done with a file: how often it was read, and the positions that
were sought, in order. -/
structure IoLog where
  /-- The number of reads. -/
  reads : ℕ
  /-- The positions sought. -/
  seeks : List ℤ
  deriving DecidableEq, Repr

namespace IoLog

/-- Nothing yet. -/
def empty : IoLog := ⟨0, []⟩

/-- `Seek`. -/
def seek (log : IoLog) (p : ℤ) : IoLog := { log with seeks := log.seeks ++ [p] }

/-- A `Scan`, or a `ReadAt`. -/
def read (log : IoLog) : IoLog := { log with reads := log.reads + 1 }

/-- Every position sought since `log₀` is one of `S`. -/
def SeeksIn (S : Set ℤ) (log₀ log : IoLog) : Prop :=
  ∃ ps, log.seeks = log₀.seeks ++ ps ∧ ∀ p ∈ ps, p ∈ S

theorem seeksIn_refl (S : Set ℤ) (log : IoLog) : SeeksIn S log log :=
  ⟨[], (List.append_nil _).symm, fun _ h => absurd h List.not_mem_nil⟩

theorem SeeksIn.read {S : Set ℤ} {log₀ log : IoLog} (h : SeeksIn S log₀ log) :
    SeeksIn S log₀ log.read := h

theorem SeeksIn.seek {S : Set ℤ} {log₀ log : IoLog} (h : SeeksIn S log₀ log) {p : ℤ}
    (hp : p ∈ S) : SeeksIn S log₀ (log.seek p) := by
  obtain ⟨ps, heq, hps⟩ := h
  refine ⟨ps ++ [p], ?_, ?_⟩
  · show log.seeks ++ [p] = _
    rw [heq, List.append_assoc]
  · intro q hq
    rcases List.mem_append.mp hq with hq | hq
    · exact hps q hq
    · exact List.mem_singleton.mp hq ▸ hp

end IoLog

/-- The errors of `TailFile`. -/
inductive TailError
  | stat (err : GoString)
  | openFile (err : GoString)
  | seek
  deriving DecidableEq, Repr

/-! ## One line -/

/-- Where the search is. -/
structure Search where
  /-- The position it has come to. -/
  now : ℤ
  /-- What was done with the file. -/
  log : IoLog
  deriving DecidableEq, Repr

/-- What the search has found. -/
structure Found where
  /-- Where the line begins. -/
  now : ℤ
  /-- How long it is. -/
  linelen : ℕ
  /-- What was done with the file. -/
  log : IoLog
  deriving DecidableEq, Repr

/-- What `GetLineByPosition` returns. -/
structure LineAt where
  /-- Where the line begins. -/
  head : ℤ
  /-- The line. -/
  str : Bytes
  /-- What was done with the file. -/
  log : IoLog
  deriving DecidableEq, Repr

/-- A step back. -/
def stepBack (now : ℤ) : ℤ := if now - 50 < 0 then 0 else now - 50

/-- A buffer of `n` bytes after a read of what there is. -/
def fill (n : ℕ) (b : Bytes) : Bytes := b.take n ++ List.replicate (n - b.length) 0

namespace FileHandle

variable (f : FileHandle) (cursor : ℤ)

/-- The length of the token a search would get next from a position. -/
def linelen (log : IoLog) (p : ℤ) : ℕ := (f.scan log.reads p).length

/-- A turn of the loop that goes back: it goes on where the scan from the
new position reaches the cursor, and else breaks with the position the
other loop starts from. -/
def backStep (s : Search) : Search ⊕ Search :=
  let now := stepBack s.now
  let linelen := f.linelen s.log now
  let log := (s.log.seek now).read
  if (linelen : ℤ) + now ≥ cursor ∧ now ≠ 0 then .inl ⟨now, log⟩
  else if now ≠ 0 then .inr ⟨now + linelen + 1, log⟩
  else .inr ⟨now, log⟩

/-- A turn of the loop that goes forward. -/
def forwardStep (s : Search) : Search ⊕ Found :=
  let linelen := f.linelen s.log s.now
  let log := (s.log.seek s.now).read
  if s.now + linelen < cursor then .inl ⟨s.now + linelen + 1, log⟩
  else .inr ⟨s.now, linelen, log⟩

/-- **`GetLineByPosition`**, `none` where the fuel of a loop does not
suffice. The loop that goes forward stands inside of the other one in the
source, before its `break`; so it is run once, on what the other one breaks
with. A position is refused where it is negative. -/
def getLineByPosition (fuel : ℕ) (log : IoLog) : Option (Except TailError LineAt) :=
  if cursor < 0 then some (.error .seek)
  else do
    let s ← Loop.run (f.backStep cursor) fuel ⟨cursor, log.seek cursor⟩
    let r ← Loop.run (f.forwardStep cursor) fuel s
    let data := fill r.linelen (f.readAt r.log.reads r.now)
    some (.ok ⟨r.now, data, r.log.read⟩)

end FileHandle

/-! ## The tail -/

/-- How far `TailFile` has come. -/
structure TailRun where
  /-- The lines so far. -/
  text : List Bytes
  /-- The positions `GetLineByPosition` was called at, in order. -/
  calls : List ℤ
  /-- What was done with the file. -/
  log : IoLog
  deriving DecidableEq, Repr

/-- Nothing yet. -/
def TailRun.empty : TailRun := ⟨[], [], IoLog.empty⟩

/-- The loop of `TailFile`, with `n` turns left. -/
def tailLoop (f : FileHandle) (fuel : ℕ) :
    ℕ → ℤ → TailRun → Option (Except TailError TailRun)
  | 0, _, run => some (.ok run)
  | n + 1, cursor, run =>
    if cursor < 0 then some (.ok run)
    else
      match f.getLineByPosition cursor fuel run.log with
      | none => none
      | some (.error err) => some (.error err)
      | some (.ok l) =>
        tailLoop f fuel n (l.head - 1) ⟨l.str :: run.text, run.calls ++ [cursor], l.log⟩

/-- The number of lines `TailFile` is to return. -/
def tailCount (cnt : ℤ) : ℕ := if cnt < 1 then 10 else cnt.toNat

/-- The run of `TailFile` over a file that had `size` bytes. -/
def tailRun (f : FileHandle) (fuel size : ℕ) (cnt : ℤ) :
    Option (Except TailError TailRun) :=
  tailLoop f fuel (tailCount cnt) (size - 1) TailRun.empty

/-- What the disk says of a file. -/
structure FileEnv where
  /-- The size `os.Stat` reports, or the text of its error. -/
  stat : GoString → Except GoString ℕ
  /-- The file `os.Open` opens, or the text of its error. -/
  openFile : GoString → Except GoString FileHandle

/-- **`TailFile`**, `none` where the fuel of a loop does not suffice. -/
def tailFile (env : FileEnv) (fuel : ℕ) (filename : GoString) (cnt : ℤ) :
    Option (Except TailError Bytes) :=
  match env.stat filename with
  | .error err => some (.error (.stat err))
  | .ok size =>
    match env.openFile filename with
    | .error err => some (.error (.openFile err))
    | .ok f => (tailRun f fuel size cnt).map (·.map (fun r => [10].intercalate r.text))

/-! ## What a search does -/

namespace FileHandle

variable {f : FileHandle} {cursor : ℤ}

theorem stepBack_nonneg (now : ℤ) : 0 ≤ stepBack now := by
  unfold stepBack
  split
  · exact le_refl 0
  · omega

theorem stepBack_le {now : ℤ} (h : 0 ≤ now) : stepBack now ≤ now := by
  unfold stepBack
  split
  · exact h
  · omega

theorem stepBack_lt {now : ℤ} (h : stepBack now ≠ 0) : stepBack now < now := by
  unfold stepBack at *
  split at h
  · exact absurd rfl h
  · rename_i hnow
    rw [if_neg hnow]
    omega

/-- What a turn back that goes on has done. -/
theorem of_backStep_inl {s s' : Search} (h : f.backStep cursor s = .inl s') :
    stepBack s.now ≠ 0 ∧ cursor ≤ stepBack s.now + f.linelen s.log (stepBack s.now)
      ∧ s' = ⟨stepBack s.now, (s.log.seek (stepBack s.now)).read⟩ := by
  unfold backStep at h
  dsimp only at h
  split at h
  · rename_i hc
    exact ⟨hc.2, by omega, (Sum.inl.inj h).symm⟩
  · split at h <;> cases h

/-- What the last turn back has done. -/
theorem of_backStep_inr {s s' : Search} (h : f.backStep cursor s = .inr s') :
    s'.log = (s.log.seek (stepBack s.now)).read
      ∧ (stepBack s.now = 0 ∧ s'.now = 0
        ∨ stepBack s.now + f.linelen s.log (stepBack s.now) < cursor
          ∧ s'.now = stepBack s.now + f.linelen s.log (stepBack s.now) + 1) := by
  unfold backStep at h
  dsimp only at h
  split at h
  · cases h
  · rename_i hc
    split at h
    · rename_i hnow
      rw [← Sum.inr.inj h]
      refine ⟨rfl, Or.inr ⟨?_, rfl⟩⟩
      by_contra hge
      exact hc ⟨by omega, hnow⟩
    · rename_i hnow
      rw [← Sum.inr.inj h]
      exact ⟨rfl, Or.inl ⟨not_not.mp hnow, not_not.mp hnow⟩⟩

/-- What a turn forward that goes on has done. -/
theorem of_forwardStep_inl {s s' : Search} (h : f.forwardStep cursor s = .inl s') :
    s.now + f.linelen s.log s.now < cursor
      ∧ s' = ⟨s.now + f.linelen s.log s.now + 1, (s.log.seek s.now).read⟩ := by
  unfold forwardStep at h
  dsimp only at h
  split at h
  · rename_i hc
    exact ⟨hc, (Sum.inl.inj h).symm⟩
  · cases h

/-- What the last turn forward has done. -/
theorem of_forwardStep_inr {s : Search} {r : Found} (h : f.forwardStep cursor s = .inr r) :
    cursor ≤ s.now + f.linelen s.log s.now
      ∧ r = ⟨s.now, f.linelen s.log s.now, (s.log.seek s.now).read⟩ := by
  unfold forwardStep at h
  dsimp only at h
  split at h
  · cases h
  · rename_i hc
    exact ⟨not_lt.mp hc, (Sum.inr.inj h).symm⟩

/-- **The turns that go back end**: what `back` is kept by, and `fwd` holds
after. -/
theorem exists_run_back (hcursor : 0 ≤ cursor) (back fwd : Search → Prop)
    (hback : ∀ s s', back s → 0 ≤ s.now → s.now ≤ cursor →
      f.backStep cursor s = .inl s' → back s')
    (hturn : ∀ s s', back s → 0 ≤ s.now → s.now ≤ cursor →
      f.backStep cursor s = .inr s' → fwd s')
    {s : Search} (hs : back s ∧ 0 ≤ s.now ∧ s.now ≤ cursor) :
    ∃ s', (∀ fuel, s.now.toNat < fuel → Loop.run (f.backStep cursor) fuel s = some s')
      ∧ fwd s' ∧ 0 ≤ s'.now ∧ s'.now ≤ cursor := by
  refine Loop.exists_run (f.backStep cursor) (fun s => back s ∧ 0 ≤ s.now ∧ s.now ≤ cursor)
    (fun s => fwd s ∧ 0 ≤ s.now ∧ s.now ≤ cursor) (fun s => s.now.toNat) ?_ ?_ hs
  · rintro s s' ⟨hb, hnn, hle⟩ hstep
    obtain ⟨hne, -, hs'⟩ := of_backStep_inl hstep
    have hlt := stepBack_lt hne
    have hnn' := stepBack_nonneg s.now
    refine ⟨⟨hback s s' hb hnn hle hstep, ?_, ?_⟩, ?_⟩ <;> rw [hs']
    · exact hnn'
    · exact le_trans (le_of_lt hlt) hle
    · show (stepBack s.now).toNat < s.now.toNat
      omega
  · rintro s s' ⟨hb, hnn, hle⟩ hstep
    have hnn' := stepBack_nonneg s.now
    refine ⟨hturn s s' hb hnn hle hstep, ?_⟩
    obtain ⟨-, ⟨-, hs'⟩ | ⟨hlt, hs'⟩⟩ := of_backStep_inr hstep <;> rw [hs']
    · exact ⟨le_refl 0, hcursor⟩
    · exact ⟨by omega, by omega⟩

/-- **The turns that go forward end**, in a place from where a scan reaches
the cursor. -/
theorem exists_run_forward (fwd : Search → Prop)
    (hfwd : ∀ s s', fwd s → 0 ≤ s.now → s.now ≤ cursor →
      f.forwardStep cursor s = .inl s' → fwd s')
    {s : Search} (hs : fwd s ∧ 0 ≤ s.now ∧ s.now ≤ cursor) :
    ∃ r, (∀ fuel, (cursor - s.now).toNat < fuel →
        Loop.run (f.forwardStep cursor) fuel s = some r)
      ∧ ∃ s', fwd s' ∧ 0 ≤ s'.now ∧ s'.now ≤ cursor
        ∧ cursor ≤ s'.now + f.linelen s'.log s'.now
        ∧ r = ⟨s'.now, f.linelen s'.log s'.now, (s'.log.seek s'.now).read⟩ := by
  refine Loop.exists_run (f.forwardStep cursor)
    (fun s => fwd s ∧ 0 ≤ s.now ∧ s.now ≤ cursor) _ (fun s => (cursor - s.now).toNat) ?_ ?_ hs
  · rintro s s' ⟨hf, hnn, hle⟩ hstep
    obtain ⟨hlt, hs'⟩ := of_forwardStep_inl hstep
    refine ⟨⟨hfwd s s' hf hnn hle hstep, ?_, ?_⟩, ?_⟩ <;> rw [hs'] <;> dsimp only <;> omega
  · rintro s r ⟨hf, hnn, hle⟩ hstep
    obtain ⟨hge, hr⟩ := of_forwardStep_inr hstep
    exact ⟨s, hf, hnn, hle, hge, hr⟩

/-- **The rule of a search.** Let `back` be kept by the turns that go back,
let `fwd` hold when the last of them is made, and be kept by the turns that
go forward. Then the search returns, with any fuel above the cursor: it
stands in a place where `fwd` holds, not after the cursor, from where a scan
reaches it. -/
theorem exists_getLine (hcursor : 0 ≤ cursor) (log : IoLog) (back fwd : Search → Prop)
    (hstart : back ⟨cursor, log.seek cursor⟩)
    (hback : ∀ s s', back s → 0 ≤ s.now → s.now ≤ cursor →
      f.backStep cursor s = .inl s' → back s')
    (hturn : ∀ s s', back s → 0 ≤ s.now → s.now ≤ cursor →
      f.backStep cursor s = .inr s' → fwd s')
    (hfwd : ∀ s s', fwd s → 0 ≤ s.now → s.now ≤ cursor →
      f.forwardStep cursor s = .inl s' → fwd s') :
    ∃ (s : Search) (r : LineAt),
      (∀ fuel, cursor.toNat < fuel → f.getLineByPosition cursor fuel log = some (.ok r))
      ∧ fwd s ∧ 0 ≤ s.now ∧ s.now ≤ cursor
      ∧ cursor ≤ s.now + f.linelen s.log s.now
      ∧ r = ⟨s.now, fill (f.linelen s.log s.now) (f.readAt (s.log.reads + 1) s.now),
          (s.log.seek s.now).read.read⟩ := by
  have hinit : back ⟨cursor, log.seek cursor⟩ ∧ 0 ≤ cursor ∧ cursor ≤ cursor :=
    ⟨hstart, hcursor, le_refl cursor⟩
  obtain ⟨s₁, hrun₁, hs₁⟩ := exists_run_back hcursor back fwd hback hturn hinit
  obtain ⟨r, hrun₂, s, hf, hnn, hle, hge, rfl⟩ := exists_run_forward fwd hfwd hs₁
  refine ⟨s, _, fun fuel hfuel => ?_, hf, hnn, hle, hge, rfl⟩
  have h₁ := hrun₁ fuel hfuel
  have h₂ := hrun₂ fuel (by omega)
  rw [getLineByPosition, if_neg (not_lt.mpr hcursor), h₁]
  show (Loop.run (f.forwardStep cursor) fuel s₁).bind _ = _
  rw [h₂]
  rfl

/-- **A search ends between the start of the file and the cursor**, and
seeks nothing outside, whatever its scans yield. -/
theorem exists_getLine_bounded (f : FileHandle) (hcursor : 0 ≤ cursor) (log : IoLog) :
    ∃ r : LineAt,
      (∀ fuel, cursor.toNat < fuel → f.getLineByPosition cursor fuel log = some (.ok r))
      ∧ 0 ≤ r.head ∧ r.head ≤ cursor ∧ IoLog.SeeksIn ({p | 0 ≤ p ∧ p ≤ cursor}) log r.log := by
  have hmem : ∀ s s' : Search, IoLog.SeeksIn ({p | 0 ≤ p ∧ p ≤ cursor}) log s.log → 0 ≤ s.now →
      s.now ≤ cursor → s'.log = (s.log.seek (stepBack s.now)).read →
      IoLog.SeeksIn ({p | 0 ≤ p ∧ p ≤ cursor}) log s'.log := by
    intro s s' hs hnn hle hlog
    rw [hlog]
    exact (hs.seek ⟨stepBack_nonneg s.now, le_trans (stepBack_le hnn) hle⟩).read
  obtain ⟨s, r, hrun, hs, hnn, hle, -, rfl⟩ := exists_getLine (f := f) hcursor log
    (fun s => IoLog.SeeksIn ({p | 0 ≤ p ∧ p ≤ cursor}) log s.log)
    (fun s => IoLog.SeeksIn ({p | 0 ≤ p ∧ p ≤ cursor}) log s.log)
    ((IoLog.seeksIn_refl _ log).seek ⟨hcursor, le_refl cursor⟩)
    (fun s s' hs hnn hle hstep =>
      hmem s s' hs hnn hle (congrArg Search.log (of_backStep_inl hstep).2.2))
    (fun s s' hs hnn hle hstep => hmem s s' hs hnn hle (of_backStep_inr hstep).1)
    (fun s s' hs hnn hle hstep => by
      rw [(of_forwardStep_inl hstep).2]
      exact (hs.seek ⟨hnn, hle⟩).read)
  exact ⟨_, hrun, hnn, hle, ((hs.seek ⟨hnn, hle⟩).read).read⟩

end FileHandle

/-- The calls of `TailFile`, from a state in which all of them were after
`cursor`. -/
theorem exists_tailLoop (f : FileHandle) (n : ℕ) {cursor : ℤ} (run : TailRun)
    (hcalls : (run.calls ++ [cursor]).IsChain (· > ·)) :
    ∃ run' : TailRun,
      (∀ fuel, cursor.toNat < fuel → tailLoop f fuel n cursor run = some (.ok run'))
      ∧ run'.calls.IsChain (· > ·)
      ∧ run'.calls.length ≤ run.calls.length + min n (cursor + 1).toNat := by
  have hinit : run.calls.IsChain (· > ·) := (List.isChain_append.mp hcalls).1
  induction n generalizing cursor run with
  | zero => exact ⟨run, fun _ _ => rfl, hinit, Nat.le_add_right _ _⟩
  | succ n ih =>
    by_cases hneg : cursor < 0
    · exact ⟨run, fun fuel _ => if_pos hneg, hinit, Nat.le_add_right _ _⟩
    · have hcursor : 0 ≤ cursor := not_lt.mp hneg
      obtain ⟨l, hl, hnn, hle, -⟩ := f.exists_getLine_bounded hcursor run.log
      have hchain : ((run.calls ++ [cursor]) ++ [l.head - 1]).IsChain (· > ·) := by
        rw [List.isChain_append]
        refine ⟨hcalls, List.isChain_singleton _, fun x hx y hy => ?_⟩
        rw [List.getLast?_concat, Option.mem_some] at hx
        rw [List.head?_singleton, Option.mem_some] at hy
        omega
      obtain ⟨run', hrun', hc, hlen⟩ :=
        ih ⟨l.str :: run.text, run.calls ++ [cursor], l.log⟩ hchain hcalls
      refine ⟨run', fun fuel hfuel => ?_, hc, ?_⟩
      · rw [tailLoop, if_neg hneg, hl fuel hfuel]
        exact hrun' fuel (by omega)
      · rw [List.length_append, List.length_singleton] at hlen
        omega

/-- **The search for a line ends, and so does the tail.** Whatever each scan
yields and each read finds – a handle answers them all at will – the two
loops of `GetLineByPosition` end, it returns a position between the start of
the file and the one it was given, and it seeks no other; and over a file of
any size, the calls of `TailFile` are each before the last one, and no more
than there are lines to return or bytes in the file. -/
theorem tail_search_ends (f : FileHandle) :
    (∀ (cursor : ℤ) (log : IoLog), 0 ≤ cursor → ∃ r : LineAt,
      (∀ fuel, cursor.toNat < fuel → f.getLineByPosition cursor fuel log = some (.ok r))
      ∧ 0 ≤ r.head ∧ r.head ≤ cursor
      ∧ ∃ ps, r.log.seeks = log.seeks ++ ps ∧ ∀ p ∈ ps, 0 ≤ p ∧ p ≤ cursor)
    ∧ ∀ (size : ℕ) (cnt : ℤ), ∃ run : TailRun,
      (∀ fuel, size < fuel → tailRun f fuel size cnt = some (.ok run))
      ∧ run.calls.IsChain (· > ·)
      ∧ run.calls.length ≤ min (if cnt < 1 then 10 else cnt.toNat) size := by
  refine ⟨fun cursor log hcursor => f.exists_getLine_bounded hcursor log,
    fun size cnt => ?_⟩
  obtain ⟨run, hrun, hchain, hlen⟩ := exists_tailLoop f (tailCount cnt)
    TailRun.empty (List.isChain_singleton ((size : ℤ) - 1))
  refine ⟨run, fun fuel hfuel => hrun fuel (by omega), hchain, ?_⟩
  rw [show ((size : ℤ) - 1 + 1).toNat = size by omega] at hlen
  exact le_trans hlen (Nat.le_of_eq (Nat.zero_add _))

/-- A handle whose scans yield three bytes and nothing in turn, wherever they
begin: a search from position 120 ends all the same. -/
theorem tail_search_ends_erratic :
    (0 : ℤ) ≤ 120 ∧ ∃ r : LineAt,
      (∀ fuel, 120 < fuel →
        FileHandle.getLineByPosition ⟨fun n _ => if n % 2 = 0 then [65, 66, 67] else [],
          fun _ _ => []⟩ 120 fuel IoLog.empty = some (.ok r))
      ∧ 0 ≤ r.head ∧ r.head ≤ 120
      ∧ ∃ ps, r.log.seeks = IoLog.empty.seeks ++ ps ∧ ∀ p ∈ ps, 0 ≤ p ∧ p ≤ 120 :=
  ⟨by decide, (tail_search_ends ⟨fun n _ => if n % 2 = 0 then [65, 66, 67] else [],
    fun _ _ => []⟩).1 120 IoLog.empty (by decide)⟩
