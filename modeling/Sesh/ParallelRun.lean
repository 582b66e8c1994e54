import Sesh.ByteStore
import Sesh.Machine
import Sesh.SerialRun
import Sesh.TaskList

/-!
# One batch of a parallel run

`ParallelRun` (`util.go`) opens two files for each host, starts a task that
writes to them, waits until the wait group is at zero, and then copies the
files to the program's own output, host by host. The tasks run while later
files are still being opened, and each goes on at its own pace.

The batch is a machine. Its labels say who moves: the goroutine of
`ParallelRun` opening a file, starting a task, passing the wait, closing
the files or merging a host; or task `i` writing its next piece or
returning. What the tasks write is a parameter, and a schedule of the
machine is one interleaving of them.

This module has what holds whatever the hosts are. The wait group counts
the tasks that have not returned, so past the wait all of them have
(`BatchArgs.reachable_shape`); and no schedule goes on for ever or gets
stuck before the batch returns (`BatchArgs.length_le_measure`,
`BatchArgs.exists_step`).
-/

/-- **What a batch works on**: the directory made for it, its hosts, what
the task of each host writes, and which paths can be created. -/
structure BatchArgs where
  /-- The directory of the batch. -/
  dir : GoString
  /-- The hosts of the batch. -/
  hosts : List GoString
  /-- The writes of the task of the `i`-th host. -/
  work : ℕ → List Write
  /-- Whether `os.Create` succeeds on a path. -/
  creates : GoString → Bool

/-- A task that has been started: its two open files, the writes it has not
made yet, and whether it has returned. A file that could not be created is
a nil file, and writing to it does nothing. -/
structure TaskState where
  /-- The file of the task's output. -/
  output : Option Handle
  /-- The file of the task's errors. -/
  errOutput : Option Handle
  /-- The writes still to come. -/
  todo : List Write
  /-- Whether the task has returned. -/
  done : Bool
  deriving DecidableEq, Repr

/-- The file of a stream of a task. -/
def TaskState.file (t : TaskState) : TaskStream → Option Handle
  | .output => t.output
  | .errOutput => t.errOutput

/-- A task with the file of one stream replaced. -/
def TaskState.setFile (t : TaskState) (f : Option Handle) : TaskStream → TaskState
  | .output => { t with output := f }
  | .errOutput => { t with errOutput := f }

/-- Where the goroutine of `ParallelRun` stands: at the head of the loop
that starts the tasks (and, when all are started, at the wait); between the
two files of a host; before the task of that host; before the files are
closed; before the `k`-th host is merged; or returned. -/
inductive BatchPc
  | launch
  | createErr (file : Option Handle)
  | newTask (file errFile : Option Handle)
  | closeFiles
  | merge (k : ℕ)
  | returned
  deriving DecidableEq, Repr

/-- The state of a batch. -/
structure BatchState where
  /-- Where `ParallelRun` stands. -/
  pc : BatchPc
  /-- The files. -/
  store : ByteStore (List GoString)
  /-- The tasks started so far, in host order. -/
  tasks : List TaskState
  /-- The counter of the wait group. -/
  wg : ℤ
  /-- What has been copied to the program's output. -/
  output : Bytes
  /-- What the program's error output has received. -/
  errOutput : List ErrChunk

/-- The steps of a batch. -/
inductive BatchLabel
  | createOut
  | createErr
  | newTask
  | write (i : ℕ)
  | done (i : ℕ)
  | wait
  | closeFiles
  | merge
  deriving DecidableEq, Repr

/-- A write through a file that may be nil. -/
def writeFile (S : ByteStore (List GoString)) (file : Option Handle) (b : Bytes) :
    ByteStore (List GoString) × Option Handle :=
  match file with
  | some f => ((S.write f b).1, some (S.write f b).2)
  | none => (S, none)

/-- `io.Copy` from a path: what it reads, or nothing where it cannot be
opened. -/
def copyFrom (S : ByteStore (List GoString)) (p : GoString) : Bytes :=
  (S.read (locate p)).getD []

namespace BatchArgs

variable (b : BatchArgs)

/-- The path of a stream of a host. -/
def path (h : GoString) (st : TaskStream) : GoString := tmpPath b.dir h st

/-- The file a stream of a host is written to. -/
def loc (h : GoString) (st : TaskStream) : List GoString := locate (b.path h st)

/-- `os.Create`. -/
def osCreate (S : ByteStore (List GoString)) (p : GoString) :
    ByteStore (List GoString) × Option Handle :=
  if b.creates p then ((S.create (locate p)).1, some (S.create (locate p)).2)
  else (S, none)

/-- One turn of the merge loop: the report line, the error file, the output
file, and then both files are removed. -/
def mergeHost (s : BatchState) (h : GoString) : BatchState :=
  { s with
    errOutput := s.errOutput ++ [.report (report [] h true),
      .task (copyFrom s.store (b.path h .errOutput))]
    output := s.output ++ copyFrom s.store (b.path h .output)
    store := (s.store.remove (b.loc h .errOutput)).remove (b.loc h .output) }

/-- The next write of task `i`, which has `t` as its state and `w` as its
next write. -/
def writeNext (s : BatchState) (i : ℕ) (t : TaskState) (w : Write)
    (rest : List Write) : BatchState :=
  let r := writeFile s.store (t.file w.stream) w.bytes
  { s with
    store := r.1
    tasks := s.tasks.set i { t.setFile r.2 w.stream with todo := rest } }

/-- What a step does. -/
def step (s : BatchState) : BatchLabel → Option BatchState
  | .createOut =>
    match s.pc, b.hosts[s.tasks.length]? with
    | .launch, some h =>
      let r := b.osCreate s.store (b.path h .output)
      some { s with store := r.1, pc := .createErr r.2 }
    | _, _ => none
  | .createErr =>
    match s.pc, b.hosts[s.tasks.length]? with
    | .createErr file, some h =>
      let r := b.osCreate s.store (b.path h .errOutput)
      some { s with store := r.1, pc := .newTask file r.2 }
    | _, _ => none
  | .newTask =>
    match s.pc with
    | .newTask file errFile =>
      some { s with
        tasks := s.tasks ++ [⟨file, errFile, b.work s.tasks.length, false⟩]
        wg := s.wg + 1
        pc := .launch }
    | _ => none
  | .write i =>
    match s.tasks[i]? with
    | some t =>
      match t.todo with
      | w :: rest => some (writeNext s i t w rest)
      | [] => none
    | none => none
  | .done i =>
    match s.tasks[i]? with
    | some t =>
      if t.todo = [] ∧ t.done = false then
        some { s with tasks := s.tasks.set i { t with done := true }, wg := s.wg - 1 }
      else none
    | none => none
  | .wait =>
    if s.pc = .launch ∧ s.tasks.length = b.hosts.length ∧ s.wg = 0 then
      some { s with pc := .closeFiles }
    else none
  | .closeFiles =>
    if s.pc = .closeFiles then
      some { s with
        tasks := s.tasks.map (fun t => { t with output := none, errOutput := none })
        pc := .merge 0 }
    else none
  | .merge =>
    match s.pc with
    | .merge k =>
      match b.hosts[k]? with
      | some h => some { b.mergeHost s h with pc := .merge (k + 1) }
      | none => some { s with pc := .returned }
    | _ => none

/-- The state `ParallelRun` is in once its directory has been made. -/
def start : BatchState where
  pc := .launch
  store := ByteStore.empty
  tasks := []
  wg := 0
  output := []
  errOutput := []

/-- **The machine of a batch.** -/
def machine : Machine BatchState BatchLabel := ⟨start, b.step⟩

/-- **What a step can do**, one constructor per label. -/
inductive Step (s : BatchState) : BatchLabel → BatchState → Prop
  | createOut {h} (hpc : s.pc = .launch) (hh : b.hosts[s.tasks.length]? = some h) :
    Step s .createOut
      { s with
        store := (b.osCreate s.store (b.path h .output)).1
        pc := .createErr (b.osCreate s.store (b.path h .output)).2 }
  | createErr {h file} (hpc : s.pc = .createErr file)
      (hh : b.hosts[s.tasks.length]? = some h) :
    Step s .createErr
      { s with
        store := (b.osCreate s.store (b.path h .errOutput)).1
        pc := .newTask file (b.osCreate s.store (b.path h .errOutput)).2 }
  | newTask {file errFile} (hpc : s.pc = .newTask file errFile) :
    Step s .newTask
      { s with
        tasks := s.tasks ++ [⟨file, errFile, b.work s.tasks.length, false⟩]
        wg := s.wg + 1
        pc := .launch }
  | write {i t w rest} (ht : s.tasks[i]? = some t) (hw : t.todo = w :: rest) :
    Step s (.write i) (writeNext s i t w rest)
  | done {i t} (ht : s.tasks[i]? = some t) (htodo : t.todo = [])
      (hdone : t.done = false) :
    Step s (.done i)
      { s with tasks := s.tasks.set i { t with done := true }, wg := s.wg - 1 }
  | wait (hpc : s.pc = .launch) (hlen : s.tasks.length = b.hosts.length)
      (hwg : s.wg = 0) :
    Step s .wait { s with pc := .closeFiles }
  | closeFiles (hpc : s.pc = .closeFiles) :
    Step s .closeFiles
      { s with
        tasks := s.tasks.map (fun t => { t with output := none, errOutput := none })
        pc := .merge 0 }
  | mergeHost {k h} (hpc : s.pc = .merge k) (hh : b.hosts[k]? = some h) :
    Step s .merge { b.mergeHost s h with pc := .merge (k + 1) }
  | mergeEnd {k} (hpc : s.pc = .merge k) (hk : b.hosts[k]? = none) :
    Step s .merge { s with pc := .returned }

variable {b}

theorem machine_step (s : BatchState) (l : BatchLabel) :
    b.machine.step s l = b.step s l := rfl

/-- The step function takes no other steps. -/
theorem step_cases {s s' : BatchState} {l : BatchLabel}
    (h : b.machine.step s l = some s') : b.Step s l s' := by
  rw [machine_step] at h
  cases l with
  | createOut =>
    simp only [step] at h
    split at h
    · obtain rfl := Option.some.inj h
      exact .createOut ‹_› ‹_›
    · cases h
  | createErr =>
    simp only [step] at h
    split at h
    · obtain rfl := Option.some.inj h
      exact .createErr ‹_› ‹_›
    · cases h
  | newTask =>
    simp only [step] at h
    split at h
    · obtain rfl := Option.some.inj h
      exact .newTask ‹_›
    · cases h
  | write i =>
    simp only [step] at h
    split at h
    · split at h
      · obtain rfl := Option.some.inj h
        exact .write ‹_› ‹_›
      · cases h
    · cases h
  | done i =>
    simp only [step] at h
    split at h
    · split at h
      · rename_i hc
        obtain rfl := Option.some.inj h
        exact .done ‹_› hc.1 hc.2
      · cases h
    · cases h
  | wait =>
    simp only [step] at h
    split at h
    · rename_i hc
      obtain rfl := Option.some.inj h
      exact .wait hc.1 hc.2.1 hc.2.2
    · cases h
  | closeFiles =>
    simp only [step] at h
    split at h
    · obtain rfl := Option.some.inj h
      exact .closeFiles ‹_›
    · cases h
  | merge =>
    simp only [step] at h
    split at h
    · split at h
      · obtain rfl := Option.some.inj h
        exact .mergeHost ‹_› ‹_›
      · obtain rfl := Option.some.inj h
        exact .mergeEnd ‹_› ‹_›
    · cases h

/-- The step function takes all of these steps. -/
theorem Step.step_eq {s s' : BatchState} {l : BatchLabel} (h : b.Step s l s') :
    b.machine.step s l = some s' := by
  cases h with
  | createOut hpc hh => simp only [machine_step, BatchArgs.step, hpc, hh]
  | createErr hpc hh => simp only [machine_step, BatchArgs.step, hpc, hh]
  | newTask hpc => simp only [machine_step, BatchArgs.step, hpc]
  | write ht hw => simp only [machine_step, BatchArgs.step, ht, hw]
  | done ht htodo hdone =>
    simp only [machine_step, BatchArgs.step, ht]
    exact if_pos ⟨htodo, hdone⟩
  | wait hpc hlen hwg => exact if_pos ⟨hpc, hlen, hwg⟩
  | closeFiles hpc => exact if_pos hpc
  | mergeHost hpc hh => simp only [machine_step, BatchArgs.step, hpc, hh]
  | mergeEnd hpc hk => simp only [machine_step, BatchArgs.step, hpc, hk]

/-! ## The tasks and the wait group

These hold whatever the hosts are. -/

variable (b) in
/-- Every task has been started and has returned. -/
def AllDone (s : BatchState) : Prop :=
  s.tasks.length = b.hosts.length ∧ ∀ t ∈ s.tasks, t.done = true

variable (b) in
/-- What holds of the tasks where `ParallelRun` stands: a host is waiting for
its task while its files are opened, and past the wait every task has
returned. -/
def TasksAt (s : BatchState) : BatchPc → Prop
  | .launch => True
  | .createErr _ => s.tasks.length < b.hosts.length
  | .newTask _ _ => s.tasks.length < b.hosts.length
  | .closeFiles => b.AllDone s
  | .merge k => k ≤ b.hosts.length ∧ b.AllDone s
  | .returned => b.AllDone s

variable (b) in
/-- **The invariant of the tasks of a batch.** -/
structure Shape (s : BatchState) : Prop where
  /-- No more tasks than hosts. -/
  length_le : s.tasks.length ≤ b.hosts.length
  /-- The wait group counts the tasks that have not returned. -/
  wg_eq : s.wg = (s.tasks.countP (fun t => !t.done) : ℤ)
  /-- A task that has returned has made all its writes. -/
  todo_eq : ∀ t ∈ s.tasks, t.done = true → t.todo = []
  /-- What holds where `ParallelRun` stands. -/
  at_pc : b.TasksAt s s.pc

theorem shape_start : b.Shape start where
  length_le := Nat.zero_le _
  wg_eq := rfl
  todo_eq _ ht := absurd ht List.not_mem_nil
  at_pc := trivial

/-- A task that was started is the task of a host. -/
theorem Shape.exists_host {s : BatchState} (hs : b.Shape s) {i : ℕ}
    {t : TaskState} (ht : s.tasks[i]? = some t) : ∃ h, b.hosts[i]? = some h := by
  have hlt := (List.getElem?_eq_some_iff.mp ht).1
  exact ⟨_, List.getElem?_eq_getElem (lt_of_lt_of_le hlt hs.length_le)⟩

/-- Where `ParallelRun` stands while tasks may be running. -/
def BeforeWait : BatchPc → Prop
  | .launch => True
  | .createErr _ => True
  | .newTask _ _ => True
  | _ => False

/-- A task that has not returned keeps `ParallelRun` from passing the
wait. -/
theorem Shape.beforeWait {s : BatchState} (hs : b.Shape s) {t : TaskState}
    (ht : t ∈ s.tasks) (hd : t.done = false) : BeforeWait s.pc := by
  have hnot : ¬ b.AllDone s := fun ha =>
    absurd (hd.symm.trans (ha.2 t ht)) Bool.false_ne_true
  have hat := hs.at_pc
  cases hpc : s.pc with
  | launch => trivial
  | createErr f => trivial
  | newTask f e => trivial
  | closeFiles =>
    rw [hpc] at hat
    exact hnot hat
  | merge k =>
    rw [hpc] at hat
    exact hnot hat.2
  | returned =>
    rw [hpc] at hat
    exact hnot hat

/-- A task with a write to make has not returned. -/
theorem Shape.not_done {s : BatchState} (hs : b.Shape s) {t : TaskState}
    {w : Write} {rest : List Write} (ht : t ∈ s.tasks) (hw : t.todo = w :: rest) :
    t.done = false := by
  by_contra hd
  have htodo := hs.todo_eq t ht (by simpa using hd)
  rw [hw] at htodo
  cases htodo

/-- Before the wait, what is said of the tasks depends only on how many were
started. -/
theorem TasksAt.of_length_eq {s s' : BatchState} {pc : BatchPc}
    (h : b.TasksAt s pc) (hpc : BeforeWait pc)
    (hlen : s'.tasks.length = s.tasks.length) : b.TasksAt s' pc := by
  cases pc with
  | launch => trivial
  | createErr f => exact lt_of_eq_of_lt hlen h
  | newTask f e => exact lt_of_eq_of_lt hlen h
  | closeFiles => cases hpc
  | merge k => cases hpc
  | returned => cases hpc

theorem done_setFile (t : TaskState) (f : Option Handle) (st : TaskStream) :
    (t.setFile f st).done = t.done := by
  cases st <;> rfl

theorem Shape.write {s : BatchState} (hs : b.Shape s) {i : ℕ} {t : TaskState}
    {w : Write} {rest : List Write} (ht : s.tasks[i]? = some t)
    (hw : t.todo = w :: rest) : b.Shape (writeNext s i t w rest) := by
  have hmem := List.mem_of_getElem? ht
  have hdone := hs.not_done hmem hw
  have hdone' : ({ t.setFile (writeFile s.store (t.file w.stream) w.bytes).2 w.stream
      with todo := rest } : TaskState).done = t.done := done_setFile _ _ _
  refine ⟨?_, ?_, ?_, hs.at_pc.of_length_eq (hs.beforeWait hmem hdone) List.length_set⟩
  · exact le_of_eq_of_le List.length_set hs.length_le
  · exact hs.wg_eq.trans (congrArg Nat.cast
      (TaskList.countP_set_of_eq ht (congrArg not hdone')).symm)
  · intro t' ht' hd'
    rcases List.mem_or_eq_of_mem_set ht' with hm | rfl
    · exact hs.todo_eq t' hm hd'
    · rw [hdone', hdone] at hd'
      cases hd'

theorem Shape.done {s : BatchState} (hs : b.Shape s) {i : ℕ} {t : TaskState}
    (ht : s.tasks[i]? = some t) (htodo : t.todo = []) (hdone : t.done = false) :
    b.Shape { s with
      tasks := s.tasks.set i { t with done := true }, wg := s.wg - 1 } := by
  have hmem := List.mem_of_getElem? ht
  refine ⟨?_, ?_, ?_, hs.at_pc.of_length_eq (hs.beforeWait hmem hdone) List.length_set⟩
  · exact le_of_eq_of_le List.length_set hs.length_le
  · show s.wg - 1 = ((s.tasks.set i { t with done := true }).countP
      (fun t => !t.done) : ℤ)
    have hcount : (s.tasks.set i { t with done := true }).countP (fun t => !t.done) + 1
        = s.tasks.countP (fun t => !t.done) :=
      TaskList.countP_set_add_one ht (by rw [hdone]; rfl) rfl
    have hwg := hs.wg_eq
    omega
  · intro t' ht' hd'
    rcases List.mem_or_eq_of_mem_set ht' with hm | rfl
    · exact hs.todo_eq t' hm hd'
    · exact htodo

theorem Shape.newTask {s : BatchState} (hs : b.Shape s)
    {file errFile : Option Handle} (hpc : s.pc = .newTask file errFile) :
    b.Shape { s with
      tasks := s.tasks ++ [⟨file, errFile, b.work s.tasks.length, false⟩]
      wg := s.wg + 1
      pc := .launch } := by
  have hlt : s.tasks.length < b.hosts.length := by
    have hat := hs.at_pc
    rwa [hpc] at hat
  refine ⟨?_, ?_, ?_, trivial⟩
  · exact le_of_eq_of_le List.length_append hlt
  · show s.wg + 1 = ((s.tasks ++ [_]).countP _ : ℤ)
    rw [List.countP_append, hs.wg_eq]
    rfl
  · intro t ht hd
    rcases List.mem_append.mp ht with ht | ht
    · exact hs.todo_eq t ht hd
    · obtain rfl := List.mem_singleton.mp ht
      cases hd

/-- The wait is passed only when every task has returned. -/
theorem Shape.wait {s : BatchState} (hs : b.Shape s)
    (hlen : s.tasks.length = b.hosts.length) (hwg : s.wg = 0) :
    b.Shape { s with pc := .closeFiles } := by
  refine ⟨hs.length_le, hs.wg_eq, hs.todo_eq, hlen, fun t ht => ?_⟩
  have hcount : s.tasks.countP (fun t => !t.done) = 0 := by
    have := hs.wg_eq
    omega
  simpa using List.countP_eq_zero.mp hcount t ht

theorem Shape.closeFiles {s : BatchState} (hs : b.Shape s)
    (hpc : s.pc = .closeFiles) :
    b.Shape { s with
      tasks := s.tasks.map (fun t => { t with output := none, errOutput := none })
      pc := .merge 0 } := by
  have hall : b.AllDone s := by
    have hat := hs.at_pc
    rwa [hpc] at hat
  refine ⟨?_, ?_, ?_, Nat.zero_le _, ?_, ?_⟩
  · exact le_of_eq_of_le (List.length_map _) hs.length_le
  · show s.wg = ((s.tasks.map _).countP _ : ℤ)
    rw [List.countP_map, hs.wg_eq]
    rfl
  · intro t ht hd
    obtain ⟨t', ht', rfl⟩ := List.mem_map.mp ht
    exact hs.todo_eq t' ht' hd
  · exact (List.length_map _).trans hall.1
  · intro t ht
    obtain ⟨t', ht', rfl⟩ := List.mem_map.mp ht
    exact hall.2 t' ht'

/-- Every step keeps the shape of a batch. -/
theorem Shape.step {s s' : BatchState} {l : BatchLabel} (hs : b.Shape s)
    (h : b.machine.step s l = some s') : b.Shape s' := by
  have hat := hs.at_pc
  cases step_cases h with
  | createOut hpc hh =>
    exact ⟨hs.length_le, hs.wg_eq, hs.todo_eq, (List.getElem?_eq_some_iff.mp hh).1⟩
  | createErr hpc hh =>
    exact ⟨hs.length_le, hs.wg_eq, hs.todo_eq, (List.getElem?_eq_some_iff.mp hh).1⟩
  | newTask hpc => exact hs.newTask hpc
  | write ht hw => exact hs.write ht hw
  | done ht htodo hdone => exact hs.done ht htodo hdone
  | wait hpc hlen hwg => exact hs.wait hlen hwg
  | closeFiles hpc => exact hs.closeFiles hpc
  | mergeHost hpc hh =>
    rw [hpc] at hat
    exact ⟨hs.length_le, hs.wg_eq, hs.todo_eq,
      (List.getElem?_eq_some_iff.mp hh).1, hat.2⟩
  | mergeEnd hpc hk =>
    rw [hpc] at hat
    exact ⟨hs.length_le, hs.wg_eq, hs.todo_eq, hat.2⟩

theorem reachable_shape {s : BatchState} (h : b.machine.Reachable s) : b.Shape s :=
  Machine.reachable_rec shape_start (fun _ _ _ hs h => hs.step h) h

/-! ## Every schedule comes to an end -/

/-- The steps a task still has to make: its writes, and its return. -/
def taskCost (t : TaskState) : ℕ := t.todo.length + if t.done then 0 else 1

variable (b) in
/-- The steps the tasks still have to make, with those that were not started
yet. -/
def pending (s : BatchState) : ℕ :=
  (s.tasks.map taskCost).sum
    + ((List.range' s.tasks.length (b.hosts.length - s.tasks.length)).map
        (fun i => (b.work i).length + 1)).sum

variable (b) in
/-- The steps `ParallelRun` still has to make: three for each host without a
task, then the wait, the closing of the files, and the merge. -/
def ownCost (s : BatchState) : BatchPc → ℕ
  | .launch => 3 * (b.hosts.length - s.tasks.length) + b.hosts.length + 3
  | .createErr _ => 3 * (b.hosts.length - s.tasks.length) + b.hosts.length + 2
  | .newTask _ _ => 3 * (b.hosts.length - s.tasks.length) + b.hosts.length + 1
  | .closeFiles => b.hosts.length + 2
  | .merge k => b.hosts.length - k + 1
  | .returned => 0

variable (b) in
/-- All the steps still to be made. -/
def measure (s : BatchState) : ℕ := b.pending s + b.ownCost s s.pc

/-- Starting a task moves its steps from those of the hosts without one. -/
theorem pending_newTask {s : BatchState} (hlt : s.tasks.length < b.hosts.length)
    (file errFile : Option Handle) (wg : ℤ) (pc : BatchPc) :
    b.pending { s with
      tasks := s.tasks ++ [⟨file, errFile, b.work s.tasks.length, false⟩]
      wg := wg
      pc := pc } = b.pending s := by
  obtain ⟨m, hm⟩ : ∃ m, b.hosts.length - s.tasks.length = m + 1 :=
    ⟨b.hosts.length - s.tasks.length - 1, by omega⟩
  have hm' : b.hosts.length - (s.tasks.length + 1) = m := by omega
  unfold pending
  simp only [List.map_append, List.sum_append, List.length_append, List.map_cons,
    List.map_nil, List.sum_cons, List.sum_nil, List.length_cons, List.length_nil,
    Nat.zero_add, hm, hm', List.range'_succ, taskCost, Bool.false_eq_true, if_false]
  omega

/-- A step that only replaces a task by a cheaper one lowers the measure. -/
theorem measure_set_lt {s s' : BatchState} {i : ℕ} {t t' : TaskState}
    (ht : s.tasks[i]? = some t) (htasks : s'.tasks = s.tasks.set i t')
    (hpc : s'.pc = s.pc) (hlt : taskCost t' < taskCost t) :
    b.measure s' < b.measure s := by
  have hlen : s'.tasks.length = s.tasks.length := by rw [htasks, List.length_set]
  have hown : b.ownCost s' s.pc = b.ownCost s s.pc := by
    cases s.pc <;> simp only [ownCost, hlen]
  have hcost := TaskList.sum_map_set taskCost t' ht
  unfold measure pending
  rw [hpc, hown, hlen, htasks]
  omega

/-- **Every step lowers the measure.** -/
theorem measure_step {s s' : BatchState} {l : BatchLabel} (hs : b.Shape s)
    (h : b.machine.step s l = some s') : b.measure s' < b.measure s := by
  have hat := hs.at_pc
  cases step_cases h with
  | createOut hpc hh =>
    rw [measure, measure, hpc]
    exact Nat.add_lt_add_left (Nat.lt_succ_self _) _
  | createErr hpc hh =>
    rw [measure, measure, hpc]
    exact Nat.add_lt_add_left (Nat.lt_succ_self _) _
  | newTask hpc =>
    rw [hpc] at hat
    rw [measure, measure, hpc, pending_newTask hat]
    refine Nat.add_lt_add_left ?_ _
    show 3 * (b.hosts.length - (s.tasks ++ [_]).length) + _ + 3 < _
    simp only [TasksAt] at hat
    simp only [List.length_append, List.length_cons, List.length_nil, ownCost]
    omega
  | @write i t w rest ht hw =>
    have hdone := hs.not_done (List.mem_of_getElem? ht) hw
    refine measure_set_lt ht rfl rfl ?_
    simp only [taskCost, done_setFile, hdone, hw, List.length_cons]
    omega
  | done ht htodo hdone =>
    refine measure_set_lt ht rfl rfl ?_
    simp only [taskCost, hdone, htodo, List.length_nil, if_true]
    exact Nat.zero_lt_one
  | wait hpc hlen hwg =>
    rw [measure, measure, hpc]
    refine Nat.add_lt_add_left ?_ _
    simp only [ownCost]
    omega
  | closeFiles hpc =>
    have hpend : b.pending { s with
        tasks := s.tasks.map (fun t => { t with output := none, errOutput := none })
        pc := .merge 0 } = b.pending s := by
      simp only [pending, List.length_map, List.map_map]
      rfl
    rw [measure, measure, hpend, hpc]
    exact Nat.add_lt_add_left (Nat.lt_succ_self _) _
  | mergeHost hpc hh =>
    rw [measure, measure, hpc]
    refine Nat.add_lt_add_left ?_ _
    have hlt := (List.getElem?_eq_some_iff.mp hh).1
    simp only [ownCost]
    omega
  | mergeEnd hpc hk =>
    rw [measure, measure, hpc]
    exact Nat.add_lt_add_left (Nat.succ_pos _) _

/-- **No schedule of a batch is longer than its measure at the start.** -/
theorem length_le_measure {ls : List BatchLabel} {s : BatchState}
    (h : b.machine.run ls = some s) : ls.length ≤ b.measure start :=
  le_trans (Nat.le_add_right _ _)
    (Machine.length_add_le_measure b.measure (fun _ _ _ hs h => Shape.step hs h)
      (fun _ _ _ hs h => measure_step hs h) shape_start h)

/-- A task that has not returned has a step. -/
theorem exists_step_of_not_done {s : BatchState} {t : TaskState}
    (ht : t ∈ s.tasks) (hd : t.done = false) :
    ∃ l s', b.machine.step s l = some s' := by
  obtain ⟨i, hi⟩ := List.mem_iff_getElem?.mp ht
  cases hw : t.todo with
  | nil => exact ⟨_, _, (Step.done hi hw hd).step_eq⟩
  | cons w rest => exact ⟨_, _, (Step.write hi hw).step_eq⟩

/-- **A batch does not get stuck**: it has returned, or it has a step. -/
theorem exists_step {s : BatchState} (hs : b.Shape s) :
    s.pc = .returned ∨ ∃ l s', b.machine.step s l = some s' := by
  have hat := hs.at_pc
  cases hpc : s.pc with
  | launch =>
    right
    rcases Nat.lt_or_ge s.tasks.length b.hosts.length with hlt | hge
    · exact ⟨_, _, (Step.createOut hpc (List.getElem?_eq_getElem hlt)).step_eq⟩
    · by_cases hwg : s.wg = 0
      · have hlen := Nat.le_antisymm hs.length_le hge
        exact ⟨_, _, (Step.wait hpc hlen hwg).step_eq⟩
      · -- the counter is not at zero, so some task has not returned
        have hpos : 0 < s.tasks.countP (fun t => !t.done) := by
          have := hs.wg_eq
          omega
        obtain ⟨t, ht, hd⟩ := List.countP_pos_iff.mp hpos
        exact exists_step_of_not_done ht (by simpa using hd)
  | createErr f =>
    rw [hpc] at hat
    exact Or.inr ⟨_, _, (Step.createErr hpc (List.getElem?_eq_getElem hat)).step_eq⟩
  | newTask f e => exact Or.inr ⟨_, _, (Step.newTask hpc).step_eq⟩
  | closeFiles => exact Or.inr ⟨_, _, (Step.closeFiles hpc).step_eq⟩
  | merge k =>
    right
    cases hh : b.hosts[k]? with
    | some h => exact ⟨_, _, (Step.mergeHost hpc hh).step_eq⟩
    | none => exact ⟨_, _, (Step.mergeEnd hpc hh).step_eq⟩
  | returned => exact Or.inl rfl

/-- **A batch can always be carried on until it returns.** -/
theorem exists_runFrom_returned {s : BatchState} (hs : b.Shape s) :
    ∃ ls s', b.machine.runFrom s ls = some s' ∧ s'.pc = .returned :=
  Machine.exists_run_to b.measure (fun _ _ _ hs h => Shape.step hs h)
    (fun _ _ _ hs h => measure_step hs h) (fun _ hs => exists_step hs) hs

/-- Some schedule runs to the return of the batch. -/
theorem exists_run_returned (b : BatchArgs) :
    ∃ ls s, b.machine.run ls = some s ∧ s.pc = .returned :=
  exists_runFrom_returned shape_start

end BatchArgs
