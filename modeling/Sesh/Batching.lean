import Mathlib.Algebra.Order.Group.Int
import Mathlib.Data.List.Chain
import Sesh.SerialRun

/-!
# Cutting the host list into runs

Once the command is known, `main` (`main.go`) hands the host list to
`SerialRun` and `ParallelRun` piece by piece: with `--check` the first host
alone, and then either the rest at once or batches of the parallel degree.
The offset is moved by `--check`, the degree is taken back to what is left
when it is out of range, the end of a batch is cut at the end of the list,
and the loop stops when a batch would be empty.

`runHosts` is that part of `main`, over whatever the two runs do
(`RunOps`); since it ignores what they return, its calls are the same for
all of them, and `traceOps` records them. The loop is by fuel, and
`batchLoop_eq_foldlM` says how much is enough.
-/

/-- The flags that decide how the hosts are run. -/
structure RunFlags where
  /-- `-r`. -/
  parallel : Bool
  /-- `--parallel-degree`. -/
  parallelDegree : ℤ
  /-- `--check`. -/
  pause : Bool
  deriving DecidableEq, Repr

/-- **What `main` does to the world while it runs the hosts**: the two runs,
each on a range of the list, the check of the first host by hand, and the
greeting of the parallel mode. An operation is `none` where it does not
come back. -/
structure RunOps (σ : Type) where
  /-- `SerialRun` on a range. -/
  serialRun : ℤ → ℤ → σ → Option σ
  /-- `ParallelRun` on a range. -/
  parallelRun : ℤ → ℤ → σ → Option σ
  /-- The prompts of `--check` and the login between them. -/
  check : σ → Option σ
  /-- What is printed before a parallel run. -/
  greet : σ → σ

/-- The parallel degree `main` goes on with: what is left, where the flag is
not between one and that. -/
def effectiveDegree (degree stop hostOffset : ℤ) : ℤ :=
  if degree < 1 ∨ degree > stop - hostOffset then stop - hostOffset else degree

/-- The loop of `main` over the batches, `none` where the fuel does not
suffice or a batch does not come back. -/
def batchLoop {σ : Type} (parallelRun : ℤ → ℤ → σ → Option σ)
    (degree stop : ℤ) : ℕ → ℤ → σ → Option σ
  | 0, _, _ => none
  | fuel + 1, hostOffset, s =>
    let upTo := if hostOffset + degree > stop then stop else hostOffset + degree
    if hostOffset ≥ upTo then some s
    else (parallelRun hostOffset upTo s).bind
      (batchLoop parallelRun degree stop fuel (hostOffset + degree))

/-- What `main` does from the offset on. -/
def runRest {σ : Type} (ops : RunOps σ) (flags : RunFlags) (n : ℤ) (fuel : ℕ)
    (hostOffset : ℤ) (s : σ) : Option σ :=
  if flags.parallel then
    batchLoop ops.parallelRun
      (effectiveDegree flags.parallelDegree n hostOffset) n fuel hostOffset
      (ops.greet s)
  else ops.serialRun hostOffset n s

/-- More fuel does not change what the loop comes to. -/
theorem batchLoop_mono {σ : Type} {parallelRun : ℤ → ℤ → σ → Option σ}
    {degree stop off : ℤ} {fuel fuel' : ℕ} (hle : fuel ≤ fuel') {s s' : σ}
    (h : batchLoop parallelRun degree stop fuel off s = some s') :
    batchLoop parallelRun degree stop fuel' off s = some s' := by
  induction fuel generalizing fuel' off s with
  | zero => cases h
  | succ fuel ih =>
    obtain ⟨fuel', rfl⟩ := Nat.exists_eq_succ_of_ne_zero
      (Nat.ne_of_gt (Nat.zero_lt_of_lt hle))
    simp only [batchLoop] at h ⊢
    by_cases hge : off ≥ if off + degree > stop then stop else off + degree
    · rw [if_pos hge] at h ⊢
      exact h
    · rw [if_neg hge] at h ⊢
      obtain ⟨s₁, hrun, hrest⟩ := Option.bind_eq_some_iff.mp h
      rw [hrun, Option.bind_some]
      exact ih (Nat.le_of_succ_le_succ hle) hrest

/-- **How `main` runs `n` hosts.** -/
def runHosts {σ : Type} (ops : RunOps σ) (flags : RunFlags) (n : ℤ)
    (fuel : ℕ) (s : σ) : Option σ :=
  if flags.pause then
    ((ops.serialRun 0 1 s).bind ops.check).bind (runRest ops flags n fuel 1)
  else runRest ops flags n fuel 0 s

theorem runRest_mono {σ : Type} {ops : RunOps σ} {flags : RunFlags} {n off : ℤ}
    {fuel fuel' : ℕ} (hle : fuel ≤ fuel') {s s' : σ}
    (h : runRest ops flags n fuel off s = some s') :
    runRest ops flags n fuel' off s = some s' := by
  unfold runRest at h ⊢
  split
  · rw [if_pos ‹_›] at h
    exact batchLoop_mono hle h
  · rwa [if_neg ‹_›] at h

/-- More fuel does not change what a run comes to. -/
theorem runHosts_mono {σ : Type} {ops : RunOps σ} {flags : RunFlags} {n : ℤ}
    {fuel fuel' : ℕ} (hle : fuel ≤ fuel') {s s' : σ}
    (h : runHosts ops flags n fuel s = some s') :
    runHosts ops flags n fuel' s = some s' := by
  unfold runHosts at h ⊢
  split
  · rw [if_pos ‹_›] at h
    obtain ⟨s₁, hcheck, hrest⟩ := Option.bind_eq_some_iff.mp h
    rw [hcheck, Option.bind_some]
    exact runRest_mono hle hrest
  · rw [if_neg ‹_›] at h
    exact runRest_mono hle h

/-- The prompt before the login on the first host. -/
def loginPrompt (host : GoString) : GoString :=
  "The task on \x1b[33m".toList ++ host
    ++ "\x1b[0m has done.\nPress any key to auto login \x1b[33m".toList ++ host
    ++ "\x1b[0m to have a check...".toList

/-- The prompt after it. -/
def checkedPrompt : GoString :=
  ("\n\x1b[32mCheck completed! Press any key to acomplish the left tasks."
    ++ "\x1b[0m").toList

/-- What `main` does to the console, given what `ParallelRun` does there.
(What the user sees of the login itself is not modelled.) -/
def consoleOps (work : ℕ → List Write) (hosts : List GoString)
    (greeting : GoString) (parallelRun : ℤ → ℤ → Console → Option Console) :
    RunOps Console where
  serialRun := serialRun work hosts
  parallelRun := parallelRun
  check c := hosts.head?.map (fun h =>
    (c.notice (loginPrompt h)).notice checkedPrompt)
  greet c := c.notice (greeting ++ ['\n'])

/-! ## The batches -/

/-- **The batches of a degree**, from an offset to the end of the list. -/
inductive Batches (degree stop : ℤ) : ℤ → List (ℤ × ℤ) → Prop
  | nil {off : ℤ} (_h : stop ≤ off) : Batches degree stop off []
  | cons {off : ℤ} {rs : List (ℤ × ℤ)} (_hd : 0 < degree) (_h : off < stop)
      (_hr : Batches degree stop (off + degree) rs) :
      Batches degree stop off ((off, min (off + degree) stop) :: rs)

/-- The positions in a range. -/
def positions (r : ℤ × ℤ) : List ℕ := List.range' r.1.toNat (r.2 - r.1).toNat

theorem positions_natCast (a b : ℕ) : positions (a, b) = List.range' a (b - a) := by
  unfold positions
  dsimp only
  rw [Int.toNat_natCast, show ((b : ℤ) - a).toNat = b - a by omega]

theorem positions_append {a m b : ℤ} (ha : 0 ≤ a) (ham : a ≤ m) (hmb : m ≤ b) :
    positions (a, m) ++ positions (m, b) = positions (a, b) := by
  unfold positions
  dsimp only
  have hm : m.toNat = a.toNat + (m - a).toNat := by omega
  have hb : (b - a).toNat = (m - a).toNat + (b - m).toNat := by omega
  rw [hm, hb, List.range'_append_1]

theorem mem_positions {r : ℤ × ℤ} {i : ℕ} :
    i ∈ positions r ↔ r.1.toNat ≤ i ∧ i < r.1.toNat + (r.2 - r.1).toNat :=
  List.mem_range'_1

theorem positions_eq_nil {r : ℤ × ℤ} (h : r.2 ≤ r.1) : positions r = [] := by
  unfold positions
  rw [show (r.2 - r.1).toNat = 0 by omega, List.range'_zero]

/-- The tasks a serial run starts. -/
theorem serialRun_started {work : ℕ → List Write} {hosts : List GoString}
    {start stop : ℤ} {c c' : Console} (h : serialRun work hosts start stop c = some c') :
    c'.started = c.started ++ positions (start, stop) := by
  obtain ⟨arr, hslice, -⟩ := Option.map_eq_some_iff.mp h
  obtain ⟨a, b, rfl, rfl, hab, hb⟩ := exists_of_goSlice hslice
  rw [serialRun_console work hab hb c] at h
  rw [positions_natCast, ← Option.some.inj h]
  rfl

namespace Batches

variable {degree stop off : ℤ} {rs : List (ℤ × ℤ)}

/-- Batches of a positive degree get to the end. -/
theorem exists_of_pos (hd : 0 < degree) (stop off : ℤ) :
    ∃ rs, Batches degree stop off rs := by
  induction hn : (stop - off).toNat using Nat.strong_induction_on generalizing off with
  | _ n ih =>
    by_cases h : off < stop
    · obtain ⟨rs, hr⟩ := ih (stop - (off + degree)).toNat (by omega) (off + degree) rfl
      exact ⟨_, .cons hd h hr⟩
    · exact ⟨[], .nil (by omega)⟩

/-- **The loop runs the batches in order**, with any fuel above their
number. -/
theorem batchLoop_eq_foldlM (hb : Batches degree stop off rs) (hd : 0 ≤ degree)
    {σ : Type} (run : ℤ → ℤ → σ → Option σ) {fuel : ℕ} (hf : rs.length < fuel)
    (s : σ) :
    batchLoop run degree stop fuel off s
      = rs.foldlM (fun s r => run r.1 r.2 s) s := by
  induction hb generalizing fuel s with
  | @nil off h =>
    obtain ⟨fuel, rfl⟩ := Nat.exists_eq_succ_of_ne_zero (Nat.ne_of_gt hf)
    have hle : off ≤ off + degree := Int.le_add_of_nonneg_right hd
    refine if_pos ?_
    split <;> omega
  | @cons off rs hd' h hr ih =>
    obtain ⟨fuel, rfl⟩ := Nat.exists_eq_succ_of_ne_zero
      (Nat.ne_of_gt (Nat.zero_lt_of_lt hf))
    have hto : (if off + degree > stop then stop else off + degree)
        = min (off + degree) stop := by
      split <;> omega
    simp only [batchLoop, hto]
    rw [if_neg (by omega), List.foldlM_cons]
    exact congrArg _ (funext fun s' => ih (Nat.lt_of_succ_lt_succ hf) s')

/-- No more batches than hosts. -/
theorem length_le (hb : Batches degree stop off rs) :
    rs.length ≤ (stop - off).toNat := by
  induction hb with
  | nil h => exact Nat.zero_le _
  | cons hd h hr ih =>
    rw [List.length_cons]
    omega

/-- No batch is empty, or larger than the degree, or goes past the end. -/
theorem size_le (hb : Batches degree stop off rs) :
    ∀ r ∈ rs, r.1 < r.2 ∧ r.2 - r.1 ≤ degree ∧ r.2 ≤ stop := by
  induction hb with
  | nil h => exact fun r hr => absurd hr List.not_mem_nil
  | cons hd h hr ih =>
    intro r hmem
    rcases List.mem_cons.mp hmem with rfl | hmem
    · dsimp only
      omega
    · exact ih r hmem

/-- No batch starts before the offset. -/
theorem le_start (hb : Batches degree stop off rs) : ∀ r ∈ rs, off ≤ r.1 := by
  induction hb with
  | nil h => exact fun r hr => absurd hr List.not_mem_nil
  | cons hd h hr ih =>
    intro r hmem
    rcases List.mem_cons.mp hmem with rfl | hmem
    · exact le_rfl
    · have hle := ih r hmem
      omega

/-- Where the batches start: at the offset and at the multiples of the
degree past it. -/
theorem forall_start_iff (hb : Batches degree stop off rs) (P : ℤ → Prop) :
    (∀ r ∈ rs, P r.1)
      ↔ ∀ start, off ≤ start → start < stop → degree ∣ start - off → P start := by
  induction hb with
  | nil h =>
    refine iff_of_true (fun r hr => absurd hr List.not_mem_nil) (fun start hle hlt => ?_)
    omega
  | @cons off rs hd h hr ih =>
    have hnext : ∀ start, degree ∣ start - (off + degree) ↔ degree ∣ start - off := by
      intro start
      rw [show start - off = start - (off + degree) + degree by ring]
      exact (Int.dvd_add_left (Int.dvd_refl degree)).symm
    rw [List.forall_mem_cons, ih]
    refine ⟨fun ⟨hfirst, hrest⟩ start hle hlt hdvd => ?_,
      fun hall => ⟨hall off le_rfl h ?_, fun start hle hlt hdvd => ?_⟩⟩
    · rcases hle.eq_or_lt with rfl | hgt
      · exact hfirst
      · -- past the first batch, the next multiple is a whole degree away
        have hstep := Int.le_of_dvd (by omega) hdvd
        exact hrest start (by omega) hlt ((hnext start).mpr hdvd)
    · rw [Int.sub_self]
      exact Int.dvd_zero degree
    · exact hall start (by omega) hlt ((hnext start).mp hdvd)

/-- Every batch but the last has the size of the degree. -/
theorem size_eq (hb : Batches degree stop off rs) :
    ∀ r ∈ rs.dropLast, r.2 - r.1 = degree := by
  induction hb with
  | nil h => exact fun r hr => absurd hr List.not_mem_nil
  | @cons off rs hd h hr ih =>
    intro r hmem
    cases hr with
    | nil h' => exact absurd hmem List.not_mem_nil
    | cons hd' h' hr' =>
      -- there is a batch after the first, so the first was not cut
      rcases List.mem_cons.mp hmem with rfl | hmem
      · dsimp only
        omega
      · exact ih r hmem

/-- Each batch starts where the one before stops. -/
theorem isChain (hb : Batches degree stop off rs) (hoff : off ≤ stop) (a : ℤ) :
    ((a, off) :: rs).IsChain (fun r r' => r.2 = r'.1) := by
  induction hb generalizing a with
  | nil h => exact List.isChain_singleton _
  | @cons off rs hd h hr ih =>
    refine List.isChain_cons_cons.mpr ⟨rfl, ?_⟩
    cases hr with
    | nil h' => exact List.isChain_singleton _
    | cons hd' h' hr' =>
      have hm : min (off + degree) stop = off + degree := by omega
      rw [hm]
      exact ih h'.le off

/-- **The batches are the rest of the list.** -/
theorem flatMap_positions (hb : Batches degree stop off rs) (hoff : 0 ≤ off) :
    rs.flatMap positions = positions (off, stop) := by
  induction hb with
  | nil h => exact (positions_eq_nil h).symm
  | @cons off rs hd h hr ih =>
    rw [List.flatMap_cons, ih (by omega)]
    by_cases hm : off + degree ≤ stop
    · rw [Int.min_eq_left hm, positions_append hoff (by omega) hm]
    · have hnil : positions (off + degree, stop) = [] :=
        positions_eq_nil (by dsimp only; omega)
      rw [Int.min_eq_right (by omega), hnil, List.append_nil]

/-- The positions in some of the batches are not before the offset. -/
theorem le_of_mem_flatMap (hb : Batches degree stop off rs) (p : ℤ → Bool) {i : ℕ}
    (hi : i ∈ rs.flatMap (fun r => if p r.1 then positions r else [])) :
    off.toNat ≤ i := by
  obtain ⟨r, hr, hi⟩ := List.mem_flatMap.mp hi
  split at hi
  · exact (Int.toNat_le_toNat (hb.le_start r hr)).trans (mem_positions.mp hi).1
  · exact absurd hi List.not_mem_nil

/-- Some of the batches reach every position only if they are all of
them. -/
theorem forall_mem_flatMap_iff (hb : Batches degree stop off rs) (hoff : 0 ≤ off)
    (p : ℤ → Bool) :
    (∀ i ∈ positions (off, stop),
      i ∈ rs.flatMap (fun r => if p r.1 then positions r else []))
      ↔ ∀ r ∈ rs, p r.1 = true := by
  constructor
  · intro hall
    induction hb with
    | nil h => exact fun r hr => absurd hr List.not_mem_nil
    | @cons off rs hd h hr ih =>
      refine List.forall_mem_cons.mpr ⟨?_, ih (by omega) fun i hi => ?_⟩
      · have hfirst := hall off.toNat (mem_positions.mpr ⟨le_rfl, by dsimp only; omega⟩)
        rw [List.flatMap_cons, List.mem_append] at hfirst
        rcases hfirst with hfirst | hfirst
        · by_contra hp
          rw [if_neg hp] at hfirst
          exact absurd hfirst List.not_mem_nil
        · -- the positions of the batches after the first are past it
          have hle := hr.le_of_mem_flatMap p hfirst
          omega
      · have hi' := mem_positions.mp hi
        dsimp only at hi'
        have hmem := hall i (mem_positions.mpr (by dsimp only; omega))
        rw [List.flatMap_cons, List.mem_append] at hmem
        rcases hmem with hmem | hmem
        · split at hmem
          · have hlt := (mem_positions.mp hmem).2
            dsimp only at hlt
            omega
          · exact absurd hmem List.not_mem_nil
        · exact hmem
  · intro hp i hi
    rw [← hb.flatMap_positions hoff] at hi
    obtain ⟨r, hr, hi⟩ := List.mem_flatMap.mp hi
    refine List.mem_flatMap.mpr ⟨r, hr, ?_⟩
    rwa [if_pos (hp r hr)]

end Batches

theorem effectiveDegree_nonneg (d : ℤ) {stop off : ℤ} (h : off ≤ stop) :
    0 ≤ effectiveDegree d stop off := by
  unfold effectiveDegree
  split <;> omega

theorem effectiveDegree_le {d : ℤ} (hd : 1 ≤ d) (stop off : ℤ) :
    effectiveDegree d stop off ≤ d := by
  unfold effectiveDegree
  split <;> omega

/-- The degree `main` goes on with cuts the rest of the list into batches. -/
theorem exists_batches (d : ℤ) {stop off : ℤ} (h : off ≤ stop) :
    ∃ rs, Batches (effectiveDegree d stop off) stop off rs := by
  by_cases hlt : off < stop
  · refine Batches.exists_of_pos ?_ stop off
    unfold effectiveDegree
    split <;> omega
  · exact ⟨[], .nil (by omega)⟩

/-! ## The calls -/

/-- A call of `main` while it runs the hosts. -/
inductive Call
  | serial (start stop : ℤ)
  | check
  | greet
  | parallel (start stop : ℤ)
  deriving DecidableEq, Repr

/-- The operations of `main` that record the calls. -/
def traceOps : RunOps (List Call) where
  serialRun start stop cs := some (cs ++ [.serial start stop])
  parallelRun start stop cs := some (cs ++ [.parallel start stop])
  check cs := some (cs ++ [.check])
  greet cs := cs ++ [.greet]

namespace RunOps

variable {σ : Type} (ops : RunOps σ)

/-- What a call does. -/
def call (s : σ) : Call → Option σ
  | .serial start stop => ops.serialRun start stop s
  | .check => ops.check s
  | .greet => some (ops.greet s)
  | .parallel start stop => ops.parallelRun start stop s

theorem foldlM_call_parallel (rs : List (ℤ × ℤ)) (s : σ) :
    (rs.map (fun r => Call.parallel r.1 r.2)).foldlM ops.call s
      = rs.foldlM (fun s r => ops.parallelRun r.1 r.2 s) s := by
  rw [List.foldlM_map]
  rfl

variable {ops} in
/-- Calls that all come back come back one after the other. -/
theorem exists_foldlM_call {ks : List Call}
    (h : ∀ k ∈ ks, ∀ s, ∃ s', ops.call s k = some s') (s : σ) :
    ∃ s', ks.foldlM ops.call s = some s' := by
  induction ks generalizing s with
  | nil => exact ⟨s, rfl⟩
  | cons k ks ih =>
    obtain ⟨hk, hks⟩ := List.forall_mem_cons.mp h
    obtain ⟨s₁, hs₁⟩ := hk s
    obtain ⟨s₂, hs₂⟩ := ih hks s₁
    exact ⟨s₂, by rw [List.foldlM_cons, hs₁]; exact hs₂⟩

end RunOps

/-- The calls recorded are the calls made. -/
theorem foldlM_traceOps (cs cs' : List Call) :
    cs'.foldlM traceOps.call cs = some (cs ++ cs') := by
  induction cs' generalizing cs with
  | nil => exact congrArg some (List.append_nil cs).symm
  | cons c cs' ih =>
    have hc : traceOps.call cs c = some (cs ++ [c]) := by
      cases c <;> rfl
    rw [List.foldlM_cons, hc]
    exact (ih _).trans (by rw [List.append_assoc, List.singleton_append])

namespace RunFlags

/-- The offset after the check. -/
def hostOffset (flags : RunFlags) : ℤ := if flags.pause then 1 else 0

/-- The range of the check. -/
def checkRange (flags : RunFlags) : List (ℤ × ℤ) :=
  if flags.pause then [(0, 1)] else []

/-- The degree a parallel run of `n` hosts goes on with. -/
def degree (flags : RunFlags) (n : ℤ) : ℤ :=
  effectiveDegree flags.parallelDegree n flags.hostOffset

/-- The calls from the offset on, where the batches are `rs`. -/
def restCalls (flags : RunFlags) (n : ℤ) (rs : List (ℤ × ℤ)) : List Call :=
  if flags.parallel then .greet :: rs.map (fun r => .parallel r.1 r.2)
  else [.serial flags.hostOffset n]

/-- The calls of a run whose batches are `rs`. -/
def calls (flags : RunFlags) (n : ℤ) (rs : List (ℤ × ℤ)) : List Call :=
  (if flags.pause then [.serial 0 1, .check] else []) ++ flags.restCalls n rs

variable {flags : RunFlags} {n : ℤ} {rs : List (ℤ × ℤ)}

theorem runRest_eq_foldlM {σ : Type} (ops : RunOps σ)
    (hb : Batches (flags.degree n) n flags.hostOffset rs)
    (hd : 0 ≤ flags.degree n) {fuel : ℕ} (hf : rs.length < fuel) (s : σ) :
    runRest ops flags n fuel flags.hostOffset s
      = (flags.restCalls n rs).foldlM ops.call s := by
  unfold runRest restCalls
  cases flags.parallel with
  | false =>
    simp only [Bool.false_eq_true, if_false, List.foldlM_cons, List.foldlM_nil]
    exact (bind_pure _).symm
  | true =>
    simp only [if_true, List.foldlM_cons]
    refine (hb.batchLoop_eq_foldlM hd _ hf _).trans ?_
    rw [← ops.foldlM_call_parallel]
    rfl

/-- **A run is its calls, one after the other**, whatever they do. -/
theorem runHosts_eq_foldlM {σ : Type} (ops : RunOps σ)
    (hb : Batches (flags.degree n) n flags.hostOffset rs)
    (hd : 0 ≤ flags.degree n) {fuel : ℕ} (hf : rs.length < fuel) (s : σ) :
    runHosts ops flags n fuel s = (flags.calls n rs).foldlM ops.call s := by
  have hrest := runRest_eq_foldlM ops hb hd hf
  unfold runHosts calls
  by_cases hp : flags.pause = true
  · have hoff : flags.hostOffset = 1 := if_pos hp
    rw [hoff] at hrest
    rw [if_pos hp, if_pos hp, List.foldlM_append, funext hrest]
    simp only [List.foldlM_cons, List.foldlM_nil, bind_pure]
    rfl
  · have hoff : flags.hostOffset = 0 := if_neg hp
    rw [hoff] at hrest
    rw [if_neg hp, if_neg hp, List.nil_append, hrest]

/-- What a run comes to, with whatever fuel, its calls come to. -/
theorem foldlM_of_runHosts {σ : Type} {ops : RunOps σ}
    (hb : Batches (flags.degree n) n flags.hostOffset rs)
    (hd : 0 ≤ flags.degree n) {fuel : ℕ} {s s' : σ}
    (h : runHosts ops flags n fuel s = some s') :
    (flags.calls n rs).foldlM ops.call s = some s' := by
  have hmax := runHosts_mono (le_max_left fuel (rs.length + 1)) h
  rwa [runHosts_eq_foldlM ops hb hd (le_max_right fuel (rs.length + 1))] at hmax

theorem hostOffset_le {n : ℕ} (hn : flags.pause = true → 1 ≤ n) :
    flags.hostOffset ≤ n := by
  unfold hostOffset
  split
  · rename_i hp
    exact_mod_cast hn hp
  · exact Int.natCast_nonneg n

theorem hostOffset_nonneg (flags : RunFlags) : 0 ≤ flags.hostOffset := by
  unfold hostOffset
  split <;> decide

end RunFlags

/-- The range of a call, where it has one. -/
def Call.range : Call → Option (ℤ × ℤ)
  | .serial start stop => some (start, stop)
  | .check => none
  | .greet => none
  | .parallel start stop => some (start, stop)

/-- The range of a call of `ParallelRun`. -/
def Call.batch : Call → Option (ℤ × ℤ)
  | .serial _ _ => none
  | .check => none
  | .greet => none
  | .parallel start stop => some (start, stop)

/-- **The size of a batch**: the degree asked for, where it is between one
and the number of hosts that are left for the batches, and all of these
otherwise. The check takes the first host. -/
def RunFlags.batchSize (flags : RunFlags) (n : ℕ) : ℤ :=
  let left : ℤ := if flags.pause then n - 1 else n
  if 1 ≤ flags.parallelDegree ∧ flags.parallelDegree ≤ left then flags.parallelDegree else left

/-- **What it is for `main` to run each of `n` hosts once, in order**, told
from its calls. -/
structure RunsEachOnce (flags : RunFlags) (n : ℕ) (calls : List Call) : Prop where
  /-- With `--check`, the first host is run by itself and then checked. -/
  check_first : flags.pause = true → [.serial 0 1, .check] <+: calls
  /-- Each range starts where the one before stops. -/
  consecutive : (calls.filterMap Call.range).IsChain (fun r r' => r.2 = r'.1)
  /-- No position is in two ranges. -/
  disjoint : (calls.filterMap Call.range).Pairwise
    (fun r r' => (positions r).Disjoint (positions r'))
  /-- Together the ranges are the whole list, in order. -/
  covers : (calls.filterMap Call.range).flatMap positions = List.range n
  /-- No range is empty in parallel mode. -/
  nonempty : flags.parallel = true → ∀ r ∈ calls.filterMap Call.range, r.1 < r.2
  /-- In parallel mode all but the check is run in batches. -/
  batches_eq : flags.parallel = true → calls.filterMap Call.range
    = flags.checkRange ++ calls.filterMap Call.batch
  /-- Every batch but the last has the full size. -/
  size_eq : ∀ r ∈ (calls.filterMap Call.batch).dropLast, r.2 - r.1 = flags.batchSize n
  /-- The last batch is not larger. -/
  size_le : ∀ r ∈ calls.filterMap Call.batch, r.2 - r.1 ≤ flags.batchSize n
  /-- A degree that was asked for is not exceeded. -/
  size_le_parallelDegree : 1 ≤ flags.parallelDegree →
    ∀ r ∈ calls.filterMap Call.batch, r.2 - r.1 ≤ flags.parallelDegree

namespace RunFlags

variable {flags : RunFlags} {n : ℤ} {rs : List (ℤ × ℤ)}

/-- The degree `main` goes on with is the size of a batch. -/
theorem degree_eq_batchSize (flags : RunFlags) (n : ℕ) : flags.degree n = flags.batchSize n := by
  unfold degree effectiveDegree batchSize hostOffset
  cases flags.pause <;> simp only [Bool.false_eq_true, if_false, if_true] <;> split <;> split <;>
    omega

/-- The ranges of the calls. -/
theorem filterMap_range_calls (flags : RunFlags) (n : ℤ) (rs : List (ℤ × ℤ)) :
    (flags.calls n rs).filterMap Call.range
      = flags.checkRange
        ++ (if flags.parallel then rs else [(flags.hostOffset, n)]) := by
  have hpar : (rs.map (fun r => Call.parallel r.1 r.2)).filterMap Call.range = rs := by
    rw [List.filterMap_map]
    exact List.filterMap_some
  unfold calls restCalls checkRange
  cases flags.pause <;> cases flags.parallel <;> simp [List.filterMap_cons, Call.range, hpar]

/-- The ranges of the calls are within the list. -/
theorem range_mem_calls {n : ℕ} (hb : Batches (flags.degree n) n flags.hostOffset rs)
    (hoff : flags.hostOffset ≤ n) {k : Call} (hk : k ∈ flags.calls n rs) :
    ∀ r ∈ k.range, 0 ≤ r.1 ∧ r.1 ≤ r.2 ∧ r.2 ≤ n := by
  intro r hr
  have hmem : r ∈ (flags.calls n rs).filterMap Call.range :=
    List.mem_filterMap.mpr ⟨k, hk, hr⟩
  rw [flags.filterMap_range_calls, List.mem_append] at hmem
  have hnonneg := flags.hostOffset_nonneg
  rcases hmem with hmem | hmem
  · unfold checkRange at hmem
    unfold hostOffset at hoff
    split at hmem
    · rename_i hp
      rw [if_pos hp] at hoff
      rw [List.mem_singleton.mp hmem]
      exact ⟨le_rfl, Int.zero_le_ofNat 1, hoff⟩
    · exact absurd hmem List.not_mem_nil
  · split at hmem
    · have hsize := hb.size_le r hmem
      have hstart := hb.le_start r hmem
      omega
    · rw [List.mem_singleton.mp hmem]
      exact ⟨hnonneg, hoff, le_rfl⟩

/-- The batches among the calls. -/
theorem filterMap_batch_calls (flags : RunFlags) (n : ℤ) (rs : List (ℤ × ℤ)) :
    (flags.calls n rs).filterMap Call.batch
      = if flags.parallel then rs else [] := by
  have hpar : (rs.map (fun r => Call.parallel r.1 r.2)).filterMap Call.batch = rs := by
    rw [List.filterMap_map]
    exact List.filterMap_some
  unfold calls restCalls
  cases flags.pause <;> cases flags.parallel <;> simp [List.filterMap_cons, Call.batch, hpar]

/-- The ranges from the offset on follow the check's, and each other. -/
theorem isChain_ranges (hb : Batches (flags.degree n) n flags.hostOffset rs)
    (hoff : flags.hostOffset ≤ n) :
    (flags.checkRange ++ (if flags.parallel then rs else [(flags.hostOffset, n)])).IsChain
      (fun r r' => r.2 = r'.1) := by
  have hrest : ((0, flags.hostOffset)
      :: (if flags.parallel then rs else [(flags.hostOffset, n)])).IsChain
        (fun r r' => r.2 = r'.1) := by
    split
    · exact hb.isChain hoff 0
    · exact List.isChain_pair.mpr rfl
  unfold checkRange
  by_cases hp : flags.pause = true
  · have h1 : flags.hostOffset = 1 := if_pos hp
    rw [if_pos hp]
    rw [h1] at hrest
    rwa [h1]
  · rw [if_neg hp, List.nil_append]
    exact hrest.tail

/-- The ranges are the whole list. -/
theorem flatMap_positions_ranges
    (hb : Batches (flags.degree n) n flags.hostOffset rs)
    (hoff : flags.hostOffset ≤ n) :
    (flags.checkRange
        ++ (if flags.parallel then rs else [(flags.hostOffset, n)])).flatMap positions
      = positions (0, n) := by
  have hrest : (if flags.parallel then rs else [(flags.hostOffset, n)]).flatMap positions
      = positions (flags.hostOffset, n) := by
    split
    · exact hb.flatMap_positions flags.hostOffset_nonneg
    · exact List.append_nil _
  have hcheck : flags.checkRange.flatMap positions = positions (0, flags.hostOffset) := by
    unfold checkRange hostOffset
    split <;> rfl
  rw [List.flatMap_append, hrest, hcheck]
  exact positions_append le_rfl flags.hostOffset_nonneg hoff

end RunFlags

/-- The calls of a run are those of one that runs each host once. -/
theorem runsEachOnce_calls {flags : RunFlags} {n : ℕ} {rs : List (ℤ × ℤ)}
    (hb : Batches (flags.degree n) n flags.hostOffset rs)
    (hoff : flags.hostOffset ≤ n) : RunsEachOnce flags n (flags.calls n rs) := by
  have hcovers : ((flags.calls n rs).filterMap Call.range).flatMap positions
      = List.range n := by
    rw [flags.filterMap_range_calls, RunFlags.flatMap_positions_ranges hb hoff,
      List.range_eq_range']
    unfold positions
    simp
  have hbatch := flags.filterMap_batch_calls n rs
  have hsize : ∀ r ∈ (flags.calls n rs).filterMap Call.batch,
      r.2 - r.1 ≤ flags.degree n := by
    intro r hr
    rw [hbatch] at hr
    split at hr
    · exact (hb.size_le r hr).2.1
    · exact absurd hr List.not_mem_nil
  have hdegree := flags.degree_eq_batchSize n
  constructor
  case check_first =>
    intro hp
    rw [RunFlags.calls, if_pos hp]
    exact List.prefix_append _ _
  case consecutive =>
    rw [flags.filterMap_range_calls]
    exact RunFlags.isChain_ranges hb hoff
  case disjoint =>
    refine (List.nodup_flatMap.mp ?_).2
    rw [hcovers]
    exact List.nodup_range
  case covers => exact hcovers
  case nonempty =>
    intro hp r hr
    rw [flags.filterMap_range_calls, if_pos hp] at hr
    rcases List.mem_append.mp hr with hr | hr
    · unfold RunFlags.checkRange at hr
      split at hr
      · rw [List.mem_singleton.mp hr]
        decide
      · exact absurd hr List.not_mem_nil
    · exact (hb.size_le r hr).1
  case batches_eq =>
    intro hp
    rw [hbatch, flags.filterMap_range_calls, if_pos hp, if_pos hp]
  case size_eq =>
    intro r hr
    rw [hbatch] at hr
    split at hr
    · exact (hb.size_eq r hr).trans hdegree
    · exact absurd hr List.not_mem_nil
  case size_le => exact fun r hr => (hsize r hr).trans hdegree.le
  case size_le_parallelDegree =>
    intro hd r hr
    exact (hsize r hr).trans (effectiveDegree_le hd _ _)

/-- The line that announces a host of `n`: in yellow, its number from one on
and `n`, in decimal and with a stroke between them, and its name. -/
def announcement (n : ℕ) (hi : GoString × ℕ) : GoString :=
  "\x1b[33m".toList ++ Nat.toDigits 10 (hi.2 + 1) ++ '/' :: Nat.toDigits 10 n
    ++ " ========== ".toList ++ hi.1 ++ " ==========\x1b[0m\n".toList

example : announcement 12 ("web".toList, 8)
    = "\x1b[33m9/12 ========== web ==========\x1b[0m\n".toList := by
  decide +kernel

/-- What is printed for a host is that line. -/
theorem report_progressLabel (n : ℕ) (hi : GoString × ℕ) :
    report (progressLabel (hi.2 + 1) n) hi.1 true = announcement n hi := by
  have hshow : ∀ m : ℕ, showInt m = Nat.toDigits 10 m := fun m => if_neg (by omega)
  have hsucc : showInt (hi.2 + 1) = Nat.toDigits 10 (hi.2 + 1) := hshow (hi.2 + 1)
  unfold report progressLabel announcement
  rw [if_pos rfl, hshow, hsucc]
  simp only [List.append_assoc, List.cons_append]
  rfl

/-- The lines that announce all the hosts of a list, each with its position. -/
def announcements (hosts : List GoString) : List GoString :=
  hosts.zipIdx.map (announcement hosts.length)

/-- What a serial run of a range adds to the lines that announce hosts. -/
theorem serialRun_announces (work : ℕ → List Write) {hosts : List GoString}
    {a b : ℕ} (hab : a ≤ b) (hb : b ≤ hosts.length) (c : Console) :
    ∃ c' : Console, serialRun work hosts a b c = some c'
      ∧ reportLines c'.errOutput = reportLines c.errOutput
          ++ (hostsAt hosts a b).map (announcement hosts.length) := by
  refine ⟨_, serialRun_console work hab hb c, ?_⟩
  rw [Console.extend, reportLines_append, reportLines_flatMap_hostChunks]
  exact congrArg _ (List.map_congr_left fun hi _ => report_progressLabel hosts.length hi)

theorem hostsAt_zero_length (hosts : List GoString) :
    hostsAt hosts 0 hosts.length = hosts.zipIdx := by
  unfold hostsAt
  rw [List.take_length, List.drop_zero]

theorem reportLines_notice (c : Console) (line : GoString) :
    reportLines (c.notice line).errOutput = reportLines c.errOutput := by
  rw [Console.notice, reportLines_append]
  exact List.append_nil _

/-- **A serial run of all the hosts** announces each of them with its
position, in order. -/
theorem runHosts_serial {flags : RunFlags} (hs : flags.parallel = false)
    (work : ℕ → List Write) {hosts : List GoString}
    (hn : flags.pause = true → 1 ≤ hosts.length) (greeting : GoString)
    (parallelRun : ℤ → ℤ → Console → Option Console) (c : Console) :
    ∃ c' : Console,
      (∀ fuel, runHosts (consoleOps work hosts greeting parallelRun) flags
        hosts.length fuel c = some c')
      ∧ reportLines c'.errOutput = reportLines c.errOutput ++ announcements hosts := by
  have hrest : ∀ (off : ℤ) (fuel : ℕ),
      runRest (consoleOps work hosts greeting parallelRun) flags hosts.length fuel off
        = serialRun work hosts off hosts.length := by
    intro off fuel
    unfold runRest
    rw [hs]
    rfl
  unfold runHosts announcements
  by_cases hp : flags.pause = true
  · have h1 := hn hp
    obtain ⟨h, hhead⟩ : ∃ h, hosts.head? = some h := by
      cases hosts with
      | nil => exact absurd h1 (by decide)
      | cons h _ => exact ⟨h, rfl⟩
    obtain ⟨c₁, hrun₁, hlines₁⟩ := serialRun_announces work (Nat.zero_le 1) h1 c
    obtain ⟨c₂, hrun₂, hlines₂⟩ := serialRun_announces work h1 le_rfl
      ((c₁.notice (loginPrompt h)).notice checkedPrompt)
    refine ⟨c₂, fun fuel => ?_, ?_⟩
    · have hfirst : (consoleOps work hosts greeting parallelRun).serialRun 0 1 c
          = some c₁ := hrun₁
      have hcheck : (consoleOps work hosts greeting parallelRun).check c₁
          = some ((c₁.notice (loginPrompt h)).notice checkedPrompt) :=
        congrArg (Option.map _) hhead
      rw [if_pos hp, hrest, hfirst, Option.bind_some, hcheck, Option.bind_some]
      exact hrun₂
    · rw [hlines₂, reportLines_notice, reportLines_notice, hlines₁, List.append_assoc,
        ← List.map_append, hostsAt_append hosts (Nat.zero_le 1) h1 le_rfl,
        hostsAt_zero_length]
  · obtain ⟨c', hrun, hlines⟩ :=
      serialRun_announces work (Nat.zero_le _) (le_refl hosts.length) c
    refine ⟨c', fun fuel => ?_, ?_⟩
    · rw [if_neg hp, hrest]
      exact hrun
    · rw [hlines, hostsAt_zero_length]

/-- **Every host is run exactly once, in order**, whatever the degree, with
or without the check: the loop of `main` ends, and its calls are those of
`RunsEachOnce`. In serial mode the host at position `i` of `n` is announced
as number `i + 1` of `n`. -/
theorem every_host_run_once (flags : RunFlags) (n : ℕ)
    (hn : flags.pause = true → 1 ≤ n) :
    ∃ calls : List Call,
      (∃ enough : ℕ, ∀ fuel ≥ enough,
        runHosts traceOps flags n fuel [] = some calls)
      ∧ RunsEachOnce flags n calls
      ∧ (flags.parallel = false →
        ∀ (work : ℕ → List Write) (hosts : List GoString) (greeting : GoString)
          (parallelRun : ℤ → ℤ → Console → Option Console) (c : Console),
          hosts.length = n →
          ∃ c' : Console,
            (∀ fuel, runHosts (consoleOps work hosts greeting parallelRun) flags
              n fuel c = some c')
            ∧ reportLines c'.errOutput
              = reportLines c.errOutput ++ announcements hosts) := by
  have hoff := RunFlags.hostOffset_le hn
  have hdeg : 0 ≤ flags.degree n := effectiveDegree_nonneg _ hoff
  obtain ⟨rs, hb⟩ := exists_batches flags.parallelDegree hoff
  refine ⟨flags.calls n rs, ⟨rs.length + 1, fun fuel hf => ?_⟩,
    runsEachOnce_calls hb hoff, ?_⟩
  · rw [RunFlags.runHosts_eq_foldlM traceOps hb hdeg hf, foldlM_traceOps,
      List.nil_append]
  · rintro hs work hosts greeting parallelRun c rfl
    exact runHosts_serial hs work hn greeting parallelRun c

theorem every_host_run_once_four_checked :
    ∃ calls : List Call,
      (∃ enough : ℕ, ∀ fuel ≥ enough,
        runHosts traceOps ⟨true, 2, true⟩ 4 fuel [] = some calls)
      ∧ RunsEachOnce ⟨true, 2, true⟩ 4 calls := by
  obtain ⟨calls, hrun, honce, -⟩ := every_host_run_once ⟨true, 2, true⟩ 4 (by decide)
  exact ⟨calls, hrun, honce⟩

/-- Four hosts in twos, the first checked by hand: the last batch is cut. -/
example : runHosts traceOps ⟨true, 2, true⟩ 4 3 []
    = some [.serial 0 1, .check, .greet, .parallel 1 3, .parallel 3 4] := by
  decide
