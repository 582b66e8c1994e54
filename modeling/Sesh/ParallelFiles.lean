import Sesh.ParallelRun

/-!
# The files of a batch

What the files of a batch hold, at every point of every schedule, for hosts
whose files are separate: while the tasks run each file holds exactly what
its own task has written to it, and once the wait is passed every file not
yet merged holds all its task ever wrote (`BatchArgs.reachable_inv`). The
merge then copies each host's bytes once, in host order.

Separate files are what this rests on, and the host list does not promise
them. `batch_streams_separate_iff` says for which host texts a batch has
them.
-/

namespace BatchArgs

variable {b : BatchArgs}

/-! ## What the files hold -/

variable (b) in
/-- **The files of a batch are separate**: streams that are written to the
same file are the same stream of the same task. -/
def Separate : Prop :=
  ∀ {i j : ℕ} {h h' : GoString} {st st' : TaskStream},
    b.hosts[i]? = some h → b.hosts[j]? = some h' →
    b.loc h st = b.loc h' st' → i = j ∧ st = st'

/-- Separate hosts have separate files. -/
theorem separate_of_hostsSeparate (hs : HostsSeparate b.hosts) : b.Separate := by
  intro i j h h' st st' hi hj he
  have hh := List.mem_of_getElem? hi
  have hh' := List.mem_of_getElem? hj
  obtain ⟨n, hn⟩ := Option.ne_none_iff_exists'.mp (hs.1 h hh)
  obtain ⟨n', hn'⟩ := Option.ne_none_iff_exists'.mp (hs.1 h' hh')
  rw [loc, loc, path, path, locate_tmpPath hn, locate_tmpPath hn'] at he
  obtain ⟨rfl, rfl⟩ := hs.tmpName_inj hh hh' hn hn'
    (List.cons.inj (List.append_cancel_left he)).1
  refine ⟨?_, rfl⟩
  have hlen : i < (b.hosts.map hostFileName).length := by
    rw [List.length_map]
    exact (List.getElem?_eq_some_iff.mp hi).1
  refine (List.getElem?_inj hlen hs.2.1).mp ?_
  rw [List.getElem?_map, List.getElem?_map, hi, hj, Option.map_some,
    Option.map_some, hn, hn']

variable (b) in
/-- **The file opened for a stream of a host holds `c`**: it is the owner of
the stream's location, or it could not be created. -/
def Holds (S : ByteStore (List GoString)) (h : GoString) (st : TaskStream)
    (file : Option Handle) (c : Bytes) : Prop :=
  match file with
  | some f => S.Owns (b.loc h st) f c
  | none => b.creates (b.path h st) = false

/-- A file is opened empty. -/
theorem holds_osCreate (S : ByteStore (List GoString)) (h : GoString)
    (st : TaskStream) :
    b.Holds (b.osCreate S (b.path h st)).1 h st (b.osCreate S (b.path h st)).2 [] := by
  unfold osCreate
  by_cases hc : b.creates (b.path h st) = true
  · rw [if_pos hc]
    exact S.owns_create _
  · rw [if_neg hc]
    exact Bool.eq_false_iff.mpr hc

/-- Opening another file changes nothing. -/
theorem Holds.osCreate {S : ByteStore (List GoString)} {h h' : GoString}
    {st st' : TaskStream} {file : Option Handle} {c : Bytes}
    (hf : b.Holds S h st file c) (hne : b.loc h st ≠ b.loc h' st') :
    b.Holds (b.osCreate S (b.path h' st')).1 h st file c := by
  unfold BatchArgs.osCreate
  by_cases hc : b.creates (b.path h' st') = true
  · rw [if_pos hc]
    cases file with
    | some f => exact ByteStore.Owns.create_other hf hne
    | none => exact hf
  · rw [if_neg hc]
    exact hf

/-- A write is added to what the file holds. -/
theorem Holds.write_self {S : ByteStore (List GoString)} {h : GoString}
    {st : TaskStream} {file : Option Handle} {c : Bytes}
    (hf : b.Holds S h st file c) (bs : Bytes) :
    b.Holds (writeFile S file bs).1 h st (writeFile S file bs).2 (c ++ bs) := by
  cases file with
  | some f => exact ByteStore.Owns.write_self hf bs
  | none => exact hf

/-- A write to another file changes nothing. -/
theorem Holds.write_other {S : ByteStore (List GoString)} {h h' : GoString}
    {st st' : TaskStream} {file file' : Option Handle} {c c' : Bytes}
    (hf : b.Holds S h st file c) (hf' : b.Holds S h' st' file' c')
    (hne : b.loc h st ≠ b.loc h' st') (bs : Bytes) :
    b.Holds (writeFile S file' bs).1 h st file c := by
  cases file' with
  | none => exact hf
  | some f' =>
    cases file with
    | some f => exact ByteStore.Owns.write_other hf hf' hne bs
    | none => exact hf

/-- A file that could be created is read back as it was written. -/
theorem Holds.read_eq {S : ByteStore (List GoString)} {h : GoString}
    {st : TaskStream} {file : Option Handle} {c : Bytes}
    (hf : b.Holds S h st file c) (hc : b.creates (b.path h st) = true) :
    S.read (b.loc h st) = some c := by
  cases file with
  | some f => exact ByteStore.Owns.read_eq hf
  | none => exact absurd (hf.symm.trans hc) Bool.false_ne_true

/-! ## The files and the merge

These hold where the files of the hosts are separate. -/

variable (b) in
/-- **The task of the `i`-th host has written what its files hold**: the
content of each file, followed by what the task is still to write there, is
all the task writes there. -/
def TaskOk (S : ByteStore (List GoString)) (i : ℕ) (h : GoString)
    (t : TaskState) : Prop :=
  ∀ st, ∃ c, b.Holds S h st (t.file st) c
    ∧ c ++ bytesOn st t.todo = bytesOn st (b.work i)

variable (b) in
/-- While the tasks run: every task has written what its files hold, and
nothing has been merged. -/
structure Running (s : BatchState) : Prop where
  /-- The files of every task that was started. -/
  taskOk : ∀ {i : ℕ} {t : TaskState} {h : GoString}, s.tasks[i]? = some t →
    b.hosts[i]? = some h → b.TaskOk s.store i h t
  /-- Nothing has been copied to the output. -/
  output_eq : s.output = []
  /-- Nothing has been copied to the error output. -/
  errOutput_eq : s.errOutput = []

variable (b) in
/-- Every file of the batch can be created. -/
def CreatesAll : Prop := ∀ h ∈ b.hosts, ∀ st, b.creates (b.path h st) = true

variable (b) in
/-- **Once `k` hosts are merged**: every later file that could be created
still holds all its task wrote, and the output is what the first `k` tasks
wrote, where all files could be created. -/
structure Merged (s : BatchState) (k : ℕ) : Prop where
  /-- The files still to be merged are complete. -/
  read_eq : ∀ {i : ℕ} {h : GoString} (st : TaskStream), k ≤ i →
    b.hosts[i]? = some h → b.creates (b.path h st) = true →
    s.store.read (b.loc h st) = some (bytesOn st (b.work i))
  /-- The output so far. -/
  output_eq : b.CreatesAll → s.output = workBytes b.work .output 0 k
  /-- The error output so far, with the report lines left out. -/
  errOutput_eq : b.CreatesAll →
    taskBytes s.errOutput = workBytes b.work .errOutput 0 k

variable (b) in
/-- What holds of the files where `ParallelRun` stands. -/
def FilesAt (s : BatchState) : BatchPc → Prop
  | .launch => b.Running s
  | .createErr file => b.Running s ∧ ∃ h, b.hosts[s.tasks.length]? = some h
      ∧ b.Holds s.store h .output file []
  | .newTask file errFile => b.Running s ∧ ∃ h, b.hosts[s.tasks.length]? = some h
      ∧ b.Holds s.store h .output file [] ∧ b.Holds s.store h .errOutput errFile []
  | .closeFiles => b.Running s
  | .merge k => b.Merged s k
  | .returned => b.Merged s b.hosts.length

variable (b) in
/-- **The invariant of a batch**, for separate files. -/
structure Inv (s : BatchState) : Prop extends b.Shape s where
  /-- What holds of the files where `ParallelRun` stands. -/
  files : b.FilesAt s s.pc

theorem inv_start : b.Inv start where
  toShape := shape_start
  files := ⟨fun ht => by simp [start] at ht, rfl, rfl⟩

/-- Before the wait, nothing has been merged and the tasks have written what
their files hold. -/
theorem Inv.running {s : BatchState} (hi : b.Inv s) (hpc : BeforeWait s.pc) :
    b.Running s := by
  have hf := hi.files
  cases he : s.pc with
  | launch => rw [he] at hf; exact hf
  | createErr f => rw [he] at hf; exact hf.1
  | newTask f e => rw [he] at hf; exact hf.1
  | closeFiles => rw [he] at hpc; cases hpc
  | merge k => rw [he] at hpc; cases hpc
  | returned => rw [he] at hpc; cases hpc

/-- A step of a task, seen from where `ParallelRun` stands: if the tasks are
still as described and the files being opened are untouched, nothing
changes there. -/
theorem FilesAt.of_running {s s' : BatchState} {pc : BatchPc}
    (hf : b.FilesAt s pc) (hpc : BeforeWait pc)
    (hlen : s'.tasks.length = s.tasks.length) (hr : b.Running s')
    (hkeep : ∀ h st f, b.hosts[s.tasks.length]? = some h →
      b.Holds s.store h st f [] → b.Holds s'.store h st f []) :
    b.FilesAt s' pc := by
  cases pc with
  | launch => exact hr
  | createErr f =>
    obtain ⟨-, h, hh, hf⟩ := hf
    refine ⟨hr, h, ?_, hkeep h _ f hh hf⟩
    rw [hlen]
    exact hh
  | newTask f e =>
    obtain ⟨-, h, hh, hf, hf'⟩ := hf
    refine ⟨hr, h, ?_, hkeep h _ f hh hf, hkeep h _ e hh hf'⟩
    rw [hlen]
    exact hh
  | closeFiles => cases hpc
  | merge k => cases hpc
  | returned => cases hpc

/-- Opening the files of the next host does not touch the files of the tasks
that were started. -/
theorem Running.osCreate (hsep : b.Separate) {s : BatchState}
    (hr : b.Running s) {h : GoString} (hh : b.hosts[s.tasks.length]? = some h)
    (st : TaskStream) (pc : BatchPc) :
    b.Running { s with store := (b.osCreate s.store (b.path h st)).1, pc := pc } := by
  refine ⟨fun {i t h'} ht hh' st' => ?_, hr.output_eq, hr.errOutput_eq⟩
  obtain ⟨c, hc, hbytes⟩ := hr.taskOk ht hh' st'
  refine ⟨c, hc.osCreate fun he => ?_, hbytes⟩
  have hlt := (List.getElem?_eq_some_iff.mp ht).1
  exact absurd (hsep hh' hh he).1 (Nat.ne_of_lt hlt)

/-- The new task has written nothing yet. -/
theorem Running.newTask {s : BatchState} (hr : b.Running s) {h : GoString}
    {file errFile : Option Handle} (hh : b.hosts[s.tasks.length]? = some h)
    (hf : b.Holds s.store h .output file [])
    (he : b.Holds s.store h .errOutput errFile []) :
    b.Running { s with
      tasks := s.tasks ++ [⟨file, errFile, b.work s.tasks.length, false⟩]
      wg := s.wg + 1
      pc := .launch } := by
  refine ⟨fun {i t h'} ht hh' => ?_, hr.output_eq, hr.errOutput_eq⟩
  rcases Nat.lt_or_ge i s.tasks.length with hlt | hge
  · rw [List.getElem?_append_left hlt] at ht
    exact hr.taskOk ht hh'
  · have hilt := (List.getElem?_eq_some_iff.mp ht).1
    rw [List.length_append, List.length_singleton] at hilt
    obtain rfl : i = s.tasks.length := by omega
    rw [List.getElem?_concat_length] at ht
    obtain rfl := Option.some.inj ht
    obtain rfl : h = h' := Option.some.inj (hh.symm.trans hh')
    intro st
    refine ⟨[], ?_, rfl⟩
    cases st with
    | output => exact hf
    | errOutput => exact he

theorem file_setFile_self (t : TaskState) (f : Option Handle) (st : TaskStream) :
    (t.setFile f st).file st = f := by
  cases st <;> rfl

theorem file_setFile_of_ne (t : TaskState) (f : Option Handle)
    {st st' : TaskStream} (hne : st' ≠ st) : (t.setFile f st).file st' = t.file st' := by
  cases st <;> cases st' <;> first | rfl | exact absurd rfl hne

/-- The write of a task moves the bytes from what it is still to write to
what its own file holds. -/
theorem TaskOk.write {S : ByteStore (List GoString)} {i : ℕ} {h : GoString}
    {t : TaskState} {w : Write} {rest : List Write} (hok : b.TaskOk S i h t)
    (hw : t.todo = w :: rest)
    (hne : ∀ st, st ≠ w.stream → b.loc h st ≠ b.loc h w.stream) :
    b.TaskOk (writeFile S (t.file w.stream) w.bytes).1 i h
      { t.setFile (writeFile S (t.file w.stream) w.bytes).2 w.stream with
        todo := rest } := by
  obtain ⟨c, hc, hbytes⟩ := hok w.stream
  intro st
  by_cases hst : st = w.stream
  · subst hst
    refine ⟨c ++ w.bytes, ?_, ?_⟩
    · change b.Holds _ h w.stream (TaskState.file (TaskState.setFile _ _ _) _) _
      rw [file_setFile_self]
      exact hc.write_self w.bytes
    · show c ++ w.bytes ++ bytesOn w.stream rest = _
      rw [hw, bytesOn_cons, if_pos rfl] at hbytes
      rw [List.append_assoc, hbytes]
  · obtain ⟨c', hc', hbytes'⟩ := hok st
    refine ⟨c', ?_, ?_⟩
    · change b.Holds _ h st (TaskState.file (TaskState.setFile _ _ _) _) _
      rw [file_setFile_of_ne _ _ hst]
      exact hc'.write_other hc (hne st hst) w.bytes
    · show c' ++ bytesOn st rest = _
      rwa [hw, bytesOn_cons, if_neg (Ne.symm hst), List.nil_append] at hbytes'

/-- **A write of a task.** It goes to the file of the task's own stream, and
no other file holds anything else than before. -/
theorem Inv.write (hsep : b.Separate) {s : BatchState} (hi : b.Inv s) {i : ℕ}
    {t : TaskState} {w : Write} {rest : List Write}
    (ht : s.tasks[i]? = some t) (hw : t.todo = w :: rest) :
    b.FilesAt (writeNext s i t w rest) s.pc := by
  have hmem := List.mem_of_getElem? ht
  have hpc := hi.beforeWait hmem (hi.not_done hmem hw)
  have hr := hi.running hpc
  obtain ⟨h, hh⟩ := hi.exists_host ht
  obtain ⟨c, hc, -⟩ := hr.taskOk ht hh w.stream
  have hlt := (List.getElem?_eq_some_iff.mp ht).1
  -- a file of another host is another file
  have hframe : ∀ {j : ℕ} {h' : GoString} {st : TaskStream} {f : Option Handle}
      {c' : Bytes}, b.hosts[j]? = some h' → j ≠ i →
      b.Holds s.store h' st f c' →
      b.Holds (writeNext s i t w rest).store h' st f c' := by
    intro j h' st f c' hj hne hf
    exact hf.write_other hc (fun he => hne (hsep hj hh he).1) w.bytes
  refine hi.files.of_running hpc List.length_set
    ⟨fun {j t' h'} ht' hh' => ?_, hr.output_eq, hr.errOutput_eq⟩
    (fun h' st f hh' hf => hframe hh' (Nat.ne_of_gt hlt) hf)
  change (s.tasks.set i _)[j]? = some t' at ht'
  by_cases hji : j = i
  · subst hji
    obtain rfl : h = h' := Option.some.inj (hh.symm.trans hh')
    rw [List.getElem?_set_self hlt] at ht'
    obtain rfl := Option.some.inj ht'
    exact (hr.taskOk ht hh).write hw fun st hst he => hst (hsep hh hh he).2
  · rw [List.getElem?_set_ne (Ne.symm hji)] at ht'
    intro st
    obtain ⟨c', hc', hbytes'⟩ := hr.taskOk ht' hh' st
    exact ⟨c', hframe hh' hji hc', hbytes'⟩

/-- A task that returns leaves its files as they are. -/
theorem Inv.done {s : BatchState} (hi : b.Inv s) {i : ℕ} {t : TaskState}
    (ht : s.tasks[i]? = some t) (hdone : t.done = false) :
    b.FilesAt { s with
      tasks := s.tasks.set i { t with done := true }, wg := s.wg - 1 } s.pc := by
  have hpc := hi.beforeWait (List.mem_of_getElem? ht) hdone
  have hr := hi.running hpc
  refine hi.files.of_running hpc List.length_set
    ⟨fun {j t' h'} ht' hh' => ?_, hr.output_eq, hr.errOutput_eq⟩
    fun _ _ _ _ hf => hf
  change (s.tasks.set i _)[j]? = some t' at ht'
  by_cases hji : j = i
  · subst hji
    rw [List.getElem?_set_self (List.getElem?_eq_some_iff.mp ht).1] at ht'
    obtain rfl := Option.some.inj ht'
    intro st
    obtain ⟨c, hc, hbytes⟩ := hr.taskOk ht hh' st
    refine ⟨c, ?_, hbytes⟩
    cases st <;> exact hc
  · rw [List.getElem?_set_ne (Ne.symm hji)] at ht'
    exact hr.taskOk ht' hh'

/-- The files are closed, and hold all their tasks wrote. -/
theorem Inv.closeFiles {s : BatchState} (hi : b.Inv s)
    (hpc : s.pc = .closeFiles) :
    b.Merged { s with
      tasks := s.tasks.map (fun t => { t with output := none, errOutput := none })
      pc := .merge 0 } 0 := by
  have hr : b.Running s := by
    have hf := hi.files
    rwa [hpc] at hf
  have hall : b.AllDone s := by
    have hat := hi.at_pc
    rwa [hpc] at hat
  refine ⟨fun {i h} st _ hh hc => ?_, fun _ => hr.output_eq, fun _ => ?_⟩
  · have hlt := (List.getElem?_eq_some_iff.mp hh).1
    rw [← hall.1] at hlt
    have ht := List.getElem?_eq_getElem hlt
    obtain ⟨c, hf, hbytes⟩ := hr.taskOk ht hh st
    have hm := List.mem_of_getElem? ht
    rw [hi.todo_eq _ hm (hall.2 _ hm)] at hbytes
    rw [← hbytes]
    exact (hf.read_eq hc).trans (congrArg some (List.append_nil c).symm)
  · show taskBytes s.errOutput = _
    rw [hr.errOutput_eq]
    rfl

/-- **A host is merged**: its files are copied and removed, and those of the
hosts after it are left alone. -/
theorem Merged.mergeHost (hsep : b.Separate) {s : BatchState} {k : ℕ}
    {h : GoString} (hm : b.Merged s k) (hh : b.hosts[k]? = some h) :
    b.Merged { b.mergeHost s h with pc := .merge (k + 1) } (k + 1) := by
  have hcopy : b.CreatesAll → ∀ st,
      copyFrom s.store (b.path h st) = bytesOn st (b.work k) := by
    intro hc st
    show (s.store.read (b.loc h st)).getD [] = _
    rw [hm.read_eq st le_rfl hh (hc h (List.mem_of_getElem? hh) st)]
    rfl
  refine ⟨fun {i h'} st hki hh' hc => ?_, fun hc => ?_, fun hc => ?_⟩
  · have hne : ∀ st', b.loc h' st ≠ b.loc h st' := fun st' he =>
      absurd (hsep hh' hh he).1 (by omega)
    show ((s.store.remove _).remove _).read _ = _
    rw [ByteStore.read_remove_of_ne _ (hne .output),
      ByteStore.read_remove_of_ne _ (hne .errOutput)]
    exact hm.read_eq st (by omega) hh' hc
  · show s.output ++ copyFrom s.store (b.path h .output) = _
    rw [hm.output_eq hc, hcopy hc, workBytes_succ, Nat.zero_add]
  · show taskBytes (s.errOutput ++ [_, _]) = _
    rw [taskBytes_append, hm.errOutput_eq hc, workBytes_succ, Nat.zero_add,
      ← hcopy hc]
    show _ ++ ([] ++ (_ ++ [])) = _
    rw [List.nil_append, List.append_nil]

/-- **Every step keeps the invariant.** -/
theorem Inv.step (hsep : b.Separate) {s s' : BatchState} {l : BatchLabel}
    (hi : b.Inv s) (h : b.machine.step s l = some s') : b.Inv s' := by
  refine ⟨hi.toShape.step h, ?_⟩
  have hf := hi.files
  have hat := hi.at_pc
  cases step_cases h with
  | createOut hpc hh =>
    rw [hpc] at hf
    exact ⟨hf.osCreate hsep hh .output _, _, hh, holds_osCreate _ _ _⟩
  | createErr hpc hh =>
    rw [hpc] at hf
    obtain ⟨hr, h', hh', hout⟩ := hf
    obtain rfl := Option.some.inj (hh.symm.trans hh')
    refine ⟨hr.osCreate hsep hh .errOutput _, _, hh, hout.osCreate fun he => ?_,
      holds_osCreate _ _ _⟩
    exact absurd (hsep hh hh he).2 (by decide)
  | newTask hpc =>
    rw [hpc] at hf
    obtain ⟨hr, h, hh, hout, herr⟩ := hf
    exact hr.newTask hh hout herr
  | write ht hw => exact hi.write hsep ht hw
  | done ht htodo hdone => exact hi.done ht hdone
  | wait hpc hlen hwg =>
    rw [hpc] at hf
    exact ⟨hf.taskOk, hf.output_eq, hf.errOutput_eq⟩
  | closeFiles hpc => exact hi.closeFiles hpc
  | mergeHost hpc hh =>
    rw [hpc] at hf
    exact Merged.mergeHost hsep hf hh
  | mergeEnd hpc hk =>
    rw [hpc] at hf hat
    obtain rfl := Nat.le_antisymm hat.1 (List.getElem?_eq_none_iff.mp hk)
    exact ⟨hf.read_eq, hf.output_eq, hf.errOutput_eq⟩

/-- **The invariant of every schedule.** -/
theorem reachable_inv (hsep : b.Separate) {s : BatchState}
    (hs : b.machine.Reachable s) : b.Inv s :=
  Machine.reachable_rec inv_start (fun _ _ _ hi h => hi.step hsep h) hs

/-! ## Streams that are kept apart -/

variable (b) in
/-- **No task stream meets another's file**: open files of different streams
are different files; each still is the file of its own path, with exactly
what its own task has written so far; and a host's files are complete when
the merge comes to it. -/
structure StreamsApart (s : BatchState) : Prop where
  /-- Different streams have different files open. -/
  inode_ne : ∀ {i j : ℕ} {t t' : TaskState} {st st' : TaskStream}
    {f f' : Handle}, s.tasks[i]? = some t → s.tasks[j]? = some t' →
    t.file st = some f → t'.file st' = some f' → (i, st) ≠ (j, st') →
    f.inode ≠ f'.inode
  /-- An open file holds what its own task has written. -/
  owns : ∀ {i : ℕ} {t : TaskState} {h : GoString} {st : TaskStream} {f : Handle},
    s.tasks[i]? = some t → b.hosts[i]? = some h → t.file st = some f →
    ∃ c, s.store.Owns (b.loc h st) f c
      ∧ c ++ bytesOn st t.todo = bytesOn st (b.work i)
  /-- A file that is still to be merged holds all its task wrote. -/
  kept : ∀ {k i : ℕ} {h : GoString} {st : TaskStream}, s.pc = .merge k →
    k ≤ i → b.hosts[i]? = some h → b.creates (b.path h st) = true →
    s.store.read (b.loc h st) = some (bytesOn st (b.work i))

/-- Past the closing of the files, no task has a file open. -/
def FilesClosed : BatchPc → Prop
  | .merge _ => True
  | .returned => True
  | _ => False

theorem not_filesClosed_of_beforeWait {pc : BatchPc} (h : BeforeWait pc) :
    ¬ FilesClosed pc := by
  cases pc with
  | launch => exact id
  | createErr f => exact id
  | newTask f e => exact id
  | closeFiles => cases h
  | merge k => cases h
  | returned => cases h

/-- The tasks of a batch have files open only before they are closed. -/
theorem reachable_filesClosed {s : BatchState} (hs : b.machine.Reachable s) :
    FilesClosed s.pc → ∀ t ∈ s.tasks, ∀ st, t.file st = none := by
  refine (Machine.reachable_rec (P := fun s => b.Shape s ∧ (FilesClosed s.pc →
    ∀ t ∈ s.tasks, ∀ st, t.file st = none))
    ⟨shape_start, fun h => absurd h id⟩ (fun s l s' hp h => ?_) hs).2
  obtain ⟨hshape, hclosed⟩ := hp
  refine ⟨hshape.step h, ?_⟩
  cases step_cases h with
  | createOut hpc hh => exact fun hc => absurd hc id
  | createErr hpc hh => exact fun hc => absurd hc id
  | newTask hpc => exact fun hc => absurd hc id
  | write ht hw =>
    -- a task with a write to make is running, so nothing is closed yet
    have hmem := List.mem_of_getElem? ht
    have hbw := hshape.beforeWait hmem (hshape.not_done hmem hw)
    exact fun hc => absurd hc (not_filesClosed_of_beforeWait hbw)
  | done ht htodo hdone =>
    have hbw := hshape.beforeWait (List.mem_of_getElem? ht) hdone
    exact fun hc => absurd hc (not_filesClosed_of_beforeWait hbw)
  | wait hpc hlen hwg => exact fun hc => absurd hc id
  | closeFiles hpc =>
    intro _ t ht st
    obtain ⟨t', -, rfl⟩ := List.mem_map.mp ht
    cases st <;> rfl
  | mergeHost hpc hh =>
    exact fun _ => hclosed (by rw [hpc]; trivial)
  | mergeEnd hpc hk =>
    exact fun _ => hclosed (by rw [hpc]; trivial)

/-- **Separate files keep the streams apart** in every schedule. -/
theorem streamsApart (hsep : b.Separate) {s : BatchState}
    (hs : b.machine.Reachable s) : b.StreamsApart s := by
  have hi := reachable_inv hsep hs
  have hown : ∀ {i : ℕ} {t : TaskState} {h : GoString} {st : TaskStream}
      {f : Handle}, s.tasks[i]? = some t → b.hosts[i]? = some h →
      t.file st = some f → ∃ c, s.store.Owns (b.loc h st) f c
        ∧ c ++ bytesOn st t.todo = bytesOn st (b.work i) := by
    intro i t h st f ht hh hf
    have hr : b.Running s := by
      have hfiles := hi.files
      have hopen : ¬ FilesClosed s.pc := fun hc => by
        rw [reachable_filesClosed hs hc t (List.mem_of_getElem? ht) st] at hf
        cases hf
      cases hpc : s.pc with
      | launch => rw [hpc] at hfiles; exact hfiles
      | createErr f => rw [hpc] at hfiles; exact hfiles.1
      | newTask f e => rw [hpc] at hfiles; exact hfiles.1
      | closeFiles => rw [hpc] at hfiles; exact hfiles
      | merge k => rw [hpc] at hopen; exact absurd trivial hopen
      | returned => rw [hpc] at hopen; exact absurd trivial hopen
    obtain ⟨c, hc, hbytes⟩ := hr.taskOk ht hh st
    rw [hf] at hc
    exact ⟨c, hc, hbytes⟩
  refine ⟨fun {i j t t' st st' f f'} ht ht' hf hf' hne => ?_, hown,
    fun {k i h st} hpc hki hh hc => ?_⟩
  · obtain ⟨h, hh⟩ := hi.exists_host ht
    obtain ⟨h', hh'⟩ := hi.exists_host ht'
    obtain ⟨c, hc, -⟩ := hown ht hh hf
    obtain ⟨c', hc', -⟩ := hown ht' hh' hf'
    refine hc.inode_ne hc' fun he => hne ?_
    obtain ⟨rfl, rfl⟩ := hsep hh hh' he
    rfl
  · have hfiles := hi.files
    rw [hpc] at hfiles
    exact hfiles.read_eq st hki hh hc

end BatchArgs

/-- **When the task streams of a batch are kept apart.** For the hosts of
any text and any batch of them, the paths are different files directly
inside the directory, and no stream ever meets another's file, exactly when
each host of the batch is a file name, no two are the same name, and none
is another's name with `.err` added. -/
theorem batch_streams_separate_iff (text dir : GoString) (start stop : ℕ) :
    (TmpPathsSeparate dir (((parseHostsFromString text).take stop).drop start)
      ∧ ∀ (work : ℕ → List Write) (creates : GoString → Bool) (s : BatchState),
        (BatchArgs.mk dir (((parseHostsFromString text).take stop).drop start)
          work creates).machine.Reachable s →
        (BatchArgs.mk dir (((parseHostsFromString text).take stop).drop start)
          work creates).StreamsApart s)
      ↔ HostsSeparate (((parseHostsFromString text).take stop).drop start) := by
  rw [tmpPathsSeparate_iff]
  refine ⟨fun h => h.1, fun h => ⟨h, fun work creates s hs => ?_⟩⟩
  exact BatchArgs.streamsApart (BatchArgs.separate_of_hostsSeparate h) hs

/-- A host given twice has one file for both its tasks. -/
theorem not_tmpPathsSeparate_repeated_host :
    ¬ TmpPathsSeparate "./.task.7".toList
      (((parseHostsFromString "a,a".toList).take 2).drop 0) := by
  intro h
  exact absurd ((tmpPathsSeparate_iff _ _).mp h) (by decide)
