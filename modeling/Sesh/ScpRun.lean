import Sesh.Machine
import Sesh.SerialRun
import Sesh.TaskList

/-!
# Sending a file to the hosts

`ScpRun` (`util.go`) runs one `rsync` for each host, through a shell: one
after the other, or all at once. Each says on the error output that it has
begun, and then whether it has succeeded; the wait group is waited for, and
the result is nil in any case.

Like a batch, it is a machine, and a schedule of it is one order in which
the transfers begin and end. In serial mode a transfer is started only when
all before it have ended.
-/

/-- `TaskArgs`, the part of it that is not an output. -/
structure TaskArgs where
  user : GoString
  password : GoString
  keyfile : GoString
  port : GoString
  cmd : GoString
  cmdArgs : GoString
  timeout : ℤ
  parallel : Bool
  source : GoString
  destdir : GoString
  deriving DecidableEq, Repr

namespace TaskArgs

variable (config : TaskArgs)

/-- The destination, with a slash at its end. -/
def dest : GoString :=
  if Strings.hasSuffix config.destdir ['/'] then config.destdir
  else config.destdir ++ ['/']

/-- The option of `rsync` for a port that is not the default one. -/
def remoteShell : GoString :=
  if config.port ≠ [] ∧ config.port ≠ "22".toList then
    " -e 'ssh -p ".toList ++ config.port ++ "' ".toList
  else []

/-- The command line `ScpRun` gives to the shell for a host. -/
def rsyncCommand (host : GoString) : GoString :=
  "rsync -azh ".toList ++ config.remoteShell ++ ' ' :: config.source
    ++ ' ' :: config.user ++ '@' :: host ++ ':' :: config.dest

end TaskArgs

/-- How an `rsync` ends: well, or with an error and some output. -/
inductive RsyncResult
  | ok
  | fail (err output : GoString)
  deriving DecidableEq, Repr

/-- The line that says that a transfer has begun. -/
def syncStartLine (host : GoString) : GoString :=
  "Start sync to  ".toList ++ host ++ "......\n".toList

/-- The line that says how it has ended. -/
def syncEndLine (config : TaskArgs) (host : GoString) : RsyncResult → GoString
  | .ok => "Sync ".toList ++ config.source ++ " to ".toList ++ host ++ ':' :: config.dest
      ++ " OK\n".toList
  | .fail err output => "Sync ".toList ++ config.source ++ " to ".toList ++ host
      ++ ':' :: config.dest ++ " fail:".toList ++ err ++ '\n' :: output ++ ['\n']

/-- What a run of `ScpRun` works on. -/
structure ScpArgs where
  /-- The configuration. -/
  config : TaskArgs
  /-- The hosts. -/
  hosts : List GoString
  /-- How the `rsync` of the `i`-th host ends. -/
  rsync : ℕ → RsyncResult

/-- Where the transfer of a host stands. -/
inductive ScpPhase
  | ready
  | syncing
  | done
  deriving DecidableEq, Repr

/-- The state of `ScpRun`. -/
structure ScpState where
  /-- The transfers that were started, in host order. -/
  tasks : List ScpPhase
  /-- The counter of the wait group. -/
  wg : ℤ
  /-- The lines on the error output. -/
  lines : List GoString
  /-- Whether `ScpRun` has returned. -/
  returned : Bool
  deriving DecidableEq, Repr

/-- The steps of `ScpRun` and of the transfers. -/
inductive ScpLabel
  | launch
  | start (i : ℕ)
  | finish (i : ℕ)
  | wait
  deriving DecidableEq, Repr

namespace ScpArgs

variable (b : ScpArgs)

/-- What a step does. -/
def step (s : ScpState) : ScpLabel → Option ScpState
  | .launch =>
    -- in serial mode the transfer runs in the loop itself
    if s.tasks.length < b.hosts.length
        ∧ (b.config.parallel = true ∨ ∀ t ∈ s.tasks, t = .done) then
      some { s with tasks := s.tasks ++ [.ready], wg := s.wg + 1 }
    else none
  | .start i =>
    match s.tasks[i]?, b.hosts[i]? with
    | some .ready, some h =>
      some { s with
        tasks := s.tasks.set i .syncing
        lines := s.lines ++ [syncStartLine h] }
    | _, _ => none
  | .finish i =>
    match s.tasks[i]?, b.hosts[i]? with
    | some .syncing, some h =>
      some { s with
        tasks := s.tasks.set i .done
        wg := s.wg - 1
        lines := s.lines ++ [syncEndLine b.config h (b.rsync i)] }
    | _, _ => none
  | .wait =>
    if s.returned = false ∧ s.tasks.length = b.hosts.length ∧ s.wg = 0 then
      some { s with returned := true }
    else none

/-- The state `ScpRun` begins in. -/
def start : ScpState := ⟨[], 0, [], false⟩

/-- **The machine of `ScpRun`.** -/
def machine : Machine ScpState ScpLabel := ⟨start, b.step⟩

/-- **What a step can do**, one constructor per label. -/
inductive Step (s : ScpState) : ScpLabel → ScpState → Prop
  | launch (hlt : s.tasks.length < b.hosts.length)
      (hp : b.config.parallel = true ∨ ∀ t ∈ s.tasks, t = .done) :
    Step s .launch { s with tasks := s.tasks ++ [.ready], wg := s.wg + 1 }
  | start {i h} (ht : s.tasks[i]? = some .ready) (hh : b.hosts[i]? = some h) :
    Step s (.start i)
      { s with tasks := s.tasks.set i .syncing, lines := s.lines ++ [syncStartLine h] }
  | finish {i h} (ht : s.tasks[i]? = some .syncing) (hh : b.hosts[i]? = some h) :
    Step s (.finish i)
      { s with
        tasks := s.tasks.set i .done
        wg := s.wg - 1
        lines := s.lines ++ [syncEndLine b.config h (b.rsync i)] }
  | wait (hr : s.returned = false) (hlen : s.tasks.length = b.hosts.length)
      (hwg : s.wg = 0) :
    Step s .wait { s with returned := true }

variable {b} {s s' : ScpState} {l : ScpLabel}

theorem machine_step (s : ScpState) (l : ScpLabel) : b.machine.step s l = b.step s l := rfl

/-- The step function takes no other steps. -/
theorem step_cases (h : b.machine.step s l = some s') : b.Step s l s' := by
  rw [machine_step] at h
  cases l with
  | launch =>
    simp only [step] at h
    split at h
    · rename_i hc
      obtain rfl := Option.some.inj h
      exact .launch hc.1 hc.2
    · cases h
  | start i =>
    simp only [step] at h
    split at h
    · obtain rfl := Option.some.inj h
      exact .start ‹_› ‹_›
    · cases h
  | finish i =>
    simp only [step] at h
    split at h
    · obtain rfl := Option.some.inj h
      exact .finish ‹_› ‹_›
    · cases h
  | wait =>
    simp only [step] at h
    split at h
    · rename_i hc
      obtain rfl := Option.some.inj h
      exact .wait hc.1 hc.2.1 hc.2.2
    · cases h

/-- The step function takes all of these steps. -/
theorem Step.step_eq (h : b.Step s l s') : b.machine.step s l = some s' := by
  cases h with
  | launch hlt hp => exact if_pos ⟨hlt, hp⟩
  | start ht hh => simp only [machine_step, ScpArgs.step, ht, hh]
  | finish ht hh => simp only [machine_step, ScpArgs.step, ht, hh]
  | wait hr hlen hwg => exact if_pos ⟨hr, hlen, hwg⟩

/-! ## The transfers and the wait group -/

variable (b) in
/-- **The invariant of the transfers.** -/
structure Shape (s : ScpState) : Prop where
  /-- No more transfers than hosts. -/
  length_le : s.tasks.length ≤ b.hosts.length
  /-- The wait group counts the transfers that have not ended. -/
  wg_eq : s.wg = (s.tasks.countP (fun t => t ≠ .done) : ℤ)
  /-- Once `ScpRun` has returned, the transfer of every host was started. -/
  length_eq : s.returned = true → s.tasks.length = b.hosts.length

theorem shape_start : b.Shape start := ⟨Nat.zero_le _, rfl, fun h => by cases h⟩

/-- **The invariant is kept by every step.** -/
theorem Shape.step (hs : b.Shape s) (h : b.machine.step s l = some s') : b.Shape s' := by
  have hwg := hs.wg_eq
  cases step_cases h with
  | launch hlt hp =>
    refine ⟨?_, ?_, fun hr => absurd (hs.length_eq hr) (Nat.ne_of_lt hlt)⟩
    · show (s.tasks ++ [ScpPhase.ready]).length ≤ _
      rw [List.length_append]
      exact hlt
    · show s.wg + 1 = ((s.tasks ++ [ScpPhase.ready]).countP _ : ℤ)
      rw [List.countP_append, hwg]
      rfl
  | @start i h ht hh =>
    refine ⟨?_, ?_, fun hr => ?_⟩
    · exact le_of_eq_of_le List.length_set hs.length_le
    · have hcount : (s.tasks.set i .syncing).countP (fun t => t ≠ .done)
          = s.tasks.countP (fun t => t ≠ .done) :=
        TaskList.countP_set_of_eq ht rfl
      show s.wg = ((s.tasks.set i .syncing).countP (fun t => t ≠ .done) : ℤ)
      rw [hcount, hwg]
    · exact List.length_set.trans (hs.length_eq hr)
  | @finish i h ht hh =>
    refine ⟨?_, ?_, fun hr => ?_⟩
    · exact le_of_eq_of_le List.length_set hs.length_le
    · have hcount : (s.tasks.set i .done).countP (fun t => t ≠ .done) + 1
          = s.tasks.countP (fun t => t ≠ .done) :=
        TaskList.countP_set_add_one ht rfl rfl
      show s.wg - 1 = ((s.tasks.set i .done).countP (fun t => t ≠ .done) : ℤ)
      omega
    · exact List.length_set.trans (hs.length_eq hr)
  | wait hr hlen hz => exact ⟨hs.length_le, hwg, fun _ => hlen⟩

theorem reachable_shape (h : b.machine.Reachable s) : b.Shape s :=
  Machine.reachable_rec shape_start (fun _ _ _ hs h => hs.step h) h

/-! ## Every schedule comes to an end -/

/-- The steps a transfer still has to make. -/
def phaseCost : ScpPhase → ℕ
  | .ready => 2
  | .syncing => 1
  | .done => 0

variable (b) in
/-- The steps that are left. -/
def measure (s : ScpState) : ℕ :=
  3 * (b.hosts.length - s.tasks.length) + (s.tasks.map phaseCost).sum
    + if s.returned then 0 else 1

/-- **Every step lowers the measure.** -/
theorem measure_step (h : b.machine.step s l = some s') : b.measure s' < b.measure s := by
  unfold measure
  cases step_cases h with
  | launch hlt hp =>
    simp only [List.length_append, List.length_singleton, List.map_append,
      List.map_singleton, List.sum_append, List.sum_singleton, phaseCost]
    omega
  | start ht hh =>
    have hcost := TaskList.sum_map_set phaseCost .syncing ht
    simp only [phaseCost] at hcost
    simp only [List.length_set]
    omega
  | finish ht hh =>
    have hcost := TaskList.sum_map_set phaseCost .done ht
    simp only [phaseCost] at hcost
    simp only [List.length_set]
    omega
  | wait hr hlen hz =>
    simp only [hr, Bool.false_eq_true, if_false, if_true]
    omega

/-- `ScpRun` has returned, or there is a step. -/
theorem exists_step (hs : b.Shape s) :
    s.returned = true ∨ ∃ l s', b.machine.step s l = some s' := by
  by_cases hall : ∀ t ∈ s.tasks, t = .done
  · rcases Nat.lt_or_ge s.tasks.length b.hosts.length with hlt | hge
    · exact Or.inr ⟨_, _, (Step.launch hlt (Or.inr hall)).step_eq⟩
    · cases hr : s.returned with
      | true => exact Or.inl rfl
      | false =>
        have hwg : s.wg = 0 := by
          rw [hs.wg_eq, List.countP_eq_zero.mpr fun t ht => by simp [hall t ht]]
          rfl
        exact Or.inr ⟨_, _,
          (Step.wait hr (Nat.le_antisymm hs.length_le hge) hwg).step_eq⟩
  · obtain ⟨t, ht, hne⟩ : ∃ t ∈ s.tasks, t ≠ .done := by
      by_contra hno
      exact hall fun t ht => by_contra fun hne => hno ⟨t, ht, hne⟩
    obtain ⟨i, hi⟩ := List.mem_iff_getElem?.mp ht
    obtain ⟨hlt, -⟩ := List.getElem?_eq_some_iff.mp hi
    have hh := List.getElem?_eq_getElem (Nat.lt_of_lt_of_le hlt hs.length_le)
    cases t with
    | ready => exact Or.inr ⟨_, _, (Step.start hi hh).step_eq⟩
    | syncing => exact Or.inr ⟨_, _, (Step.finish hi hh).step_eq⟩
    | done => exact absurd rfl hne

/-- Some schedule runs to the return of `ScpRun`. -/
theorem exists_run_returned (b : ScpArgs) :
    ∃ ls s, b.machine.run ls = some s ∧ s.returned = true :=
  Machine.exists_run_to b.measure (fun _ _ _ hs h => Shape.step hs h)
    (fun _ _ _ _ h => measure_step h) (fun _ hs => exists_step hs) shape_start

end ScpArgs

/-- `ScpRun`, with the error it returns, which is always nil: `none` where
its schedule is not one that runs to its end. -/
def scpRun (b : ScpArgs) (schedule : List ScpLabel) (c : Console) :
    Option (Option GoString × Console) :=
  (b.machine.run schedule).bind (fun s =>
    if s.returned then
      some (none, c.extend [] (s.lines.map ErrChunk.notice)
        (List.range s.tasks.length))
    else none)

/-- **What `ScpRun` comes to**: it starts the transfer of every host, and
returns no error, however the transfers end. -/
theorem scpRun_eq_some {b : ScpArgs} {schedule : List ScpLabel} {c c' : Console}
    {err : Option GoString} (h : scpRun b schedule c = some (err, c')) :
    err = none ∧ c'.started = c.started ++ List.range b.hosts.length := by
  obtain ⟨s, hrun, hs⟩ := Option.bind_eq_some_iff.mp h
  split at hs
  · rename_i hr
    obtain ⟨rfl, rfl⟩ := Prod.mk.inj (Option.some.inj hs)
    refine ⟨rfl, ?_⟩
    rw [← (ScpArgs.reachable_shape ⟨_, hrun⟩).length_eq hr]
    rfl
  · cases hs

/-- On some schedule it returns. -/
theorem exists_scpRun (b : ScpArgs) (c : Console) :
    ∃ schedule c', scpRun b schedule c = some (none, c') := by
  obtain ⟨schedule, s, hrun, hr⟩ := b.exists_run_returned
  refine ⟨schedule,
    c.extend [] (s.lines.map ErrChunk.notice) (List.range s.tasks.length), ?_⟩
  rw [scpRun, hrun, Option.bind_some, if_pos hr]
