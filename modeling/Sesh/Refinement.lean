import Mathlib.Data.List.Flatten
import Sesh.Batching
import Sesh.ParallelFiles

/-!
# Parallel mode refines serial mode

What `ParallelRun` leaves on the console is put together here from the
machine of a batch: its directory is made, the machine runs over some
schedule, and what the merge copied is added to the console. The schedules
are part of the environment, one for each batch, so a statement for every
environment is one for every interleaving.

`parallel_refines_serial` compares the batching loop of `main` over
`ParallelRun` with one `SerialRun` over the same hosts: with separate files
the output is the same, byte for byte, and so is what the tasks put on the
error output.
-/

/-- **Which files can be created.** A path that does not end in a file name
is a directory, and `os.Create` fails on it. -/
structure Disk where
  /-- Whether `os.Create` succeeds on a path. -/
  creates : GoString → Bool
  /-- Only on a path that ends in a file name. -/
  isFileName : ∀ p, creates p = true → IsFileName (lastSegment p)

/-- **What a parallel run is given by its environment**: the clock, what the
disk does, and the order in which the goroutines of a batch move. A batch
is known by its range. -/
structure ParallelEnv where
  /-- `--tmp-directory`. -/
  tmpdir : GoString
  /-- The clock when a batch is started. -/
  nanosecond : ℤ → ℕ
  /-- Whether the directory of a batch can be made. -/
  mkdir : ℤ → Bool
  /-- The files that can be created. -/
  disk : Disk
  /-- The schedule of a batch. -/
  schedule : ℤ → ℤ → List BatchLabel

/-- The error `ParallelRun` returns: its directory could not be made. -/
structure MkdirError where
  /-- The directory. -/
  dir : GoString
  deriving DecidableEq, Repr

namespace ParallelEnv

variable (env : ParallelEnv) (work : ℕ → List Write) (hosts : List GoString)

/-- The directory of a batch. -/
def dir (start : ℤ) : GoString := taskDir env.tmpdir (env.nanosecond start)

/-- The batch of a range. -/
def batch (start stop : ℤ) : BatchArgs where
  dir := env.dir start
  hosts := (hosts.take stop.toNat).drop start.toNat
  work i := work (start.toNat + i)
  creates := env.disk.creates

/-- The schedule of a batch goes on until the batch has returned. -/
def Returns (start stop : ℤ) : Prop :=
  ∃ s, (env.batch work hosts start stop).machine.run (env.schedule start stop) = some s
    ∧ s.pc = .returned

end ParallelEnv

/-- `ParallelRun`, with the error it returns: `none` where it panics or its
schedule is not one that runs to its end. -/
def parallelRun (env : ParallelEnv) (work : ℕ → List Write)
    (hosts : List GoString) (start stop : ℤ) (c : Console) :
    Option (Option MkdirError × Console) :=
  (goSlice hosts start stop).bind (fun _ =>
    if env.mkdir start then
      ((env.batch work hosts start stop).machine.run (env.schedule start stop)).bind
        (fun s =>
          if s.pc = .returned then
            some (none, c.extend s.output s.errOutput
              (List.range' start.toNat s.tasks.length))
          else none)
    else some (some ⟨env.dir start⟩, c))

/-- What `main` does with `ParallelRun`: the error is dropped. -/
def runParallel (env : ParallelEnv) (work : ℕ → List Write)
    (hosts : List GoString) (start stop : ℤ) (c : Console) : Option Console :=
  (parallelRun env work hosts start stop c).map Prod.snd

/-! ## One batch -/

theorem workBytes_shift (work : ℕ → List Write) (st : TaskStream) (a k : ℕ) :
    workBytes (fun i => work (a + i)) st 0 k = workBytes work st a k := by
  unfold workBytes
  rw [List.range'_eq_map_range, List.range'_eq_map_range, List.flatMap_map,
    List.flatMap_map]
  simp only [Nat.zero_add]

namespace ParallelEnv

variable {env : ParallelEnv} {work : ℕ → List Write} {hosts : List GoString}

theorem length_batch_hosts {a b : ℕ} (hb : b ≤ hosts.length) :
    (env.batch work hosts a b).hosts.length = b - a := by
  simp only [batch, Int.toNat_natCast, List.length_drop, List.length_take]
  omega

/-- **A parallel run of a range whose directory is made** adds what its
batch copied, and starts the task of every host of the range. -/
theorem parallelRun_of_returns {a b : ℕ} (hab : a ≤ b) (hb : b ≤ hosts.length)
    (hmk : env.mkdir a = true) {s : BatchState}
    (hrun : (env.batch work hosts a b).machine.run (env.schedule a b) = some s)
    (hpc : s.pc = .returned) (c : Console) :
    parallelRun env work hosts a b c
      = some (none, c.extend s.output s.errOutput (List.range' a (b - a))) := by
  have hlen : s.tasks.length = b - a := by
    have hat := (BatchArgs.reachable_shape ⟨_, hrun⟩).at_pc
    rw [hpc] at hat
    rw [hat.1, length_batch_hosts hb]
  rw [parallelRun, goSlice_natCast hab hb, Option.bind_some, if_pos hmk, hrun,
    Option.bind_some, if_pos hpc, hlen]
  rfl

/-- **A parallel run whose directory cannot be made** does nothing, and
returns the error. -/
theorem parallelRun_of_mkdir_fails {a b : ℕ} (hab : a ≤ b) (hb : b ≤ hosts.length)
    (hmk : env.mkdir a = false) (c : Console) :
    parallelRun env work hosts a b c = some (some ⟨env.dir a⟩, c) := by
  rw [parallelRun, goSlice_natCast hab hb, Option.bind_some, hmk]
  rfl

end ParallelEnv

/-- The tasks a parallel run starts: none, where its directory cannot be
made. -/
theorem runParallel_started {env : ParallelEnv} {work : ℕ → List Write}
    {hosts : List GoString} {start stop : ℤ} {c c' : Console}
    (h : runParallel env work hosts start stop c = some c') :
    c'.started
      = c.started ++ if env.mkdir start then positions (start, stop) else [] := by
  obtain ⟨⟨err, c₁⟩, hrun, rfl⟩ := Option.map_eq_some_iff.mp h
  obtain ⟨arr, hslice, hrest⟩ := Option.bind_eq_some_iff.mp hrun
  obtain ⟨a, b, rfl, rfl, hab, hb⟩ := exists_of_goSlice hslice
  rw [positions_natCast]
  cases hmk : env.mkdir a with
  | false =>
    rw [ParallelEnv.parallelRun_of_mkdir_fails hab hb hmk c] at hrun
    obtain ⟨rfl, rfl⟩ := Prod.mk.inj (Option.some.inj hrun)
    exact (List.append_nil _).symm
  | true =>
    rw [if_pos hmk] at hrest
    obtain ⟨s, hs, hret⟩ := Option.bind_eq_some_iff.mp hrest
    have hpc : s.pc = .returned := by
      by_contra hne
      rw [if_neg hne] at hret
      cases hret
    rw [ParallelEnv.parallelRun_of_returns hab hb hmk hs hpc c] at hrun
    obtain ⟨rfl, rfl⟩ := Prod.mk.inj (Option.some.inj hrun)
    rfl

namespace ParallelEnv

variable {env : ParallelEnv} {work : ℕ → List Write} {hosts : List GoString}

/-- **What a parallel run of a range leaves on the console**: the output is
that of the tasks in host order, and so are their bytes on the error
output. -/
theorem runParallel_console {a b : ℕ} (hab : a ≤ b) (hb : b ≤ hosts.length)
    (hmk : env.mkdir a = true) (hret : env.Returns work hosts a b)
    (hsep : (env.batch work hosts a b).Separate)
    (hcreates : (env.batch work hosts a b).CreatesAll) (c : Console) :
    ∃ c', runParallel env work hosts a b c = some c'
      ∧ c'.output = c.output ++ workBytes work .output a (b - a)
      ∧ taskBytes c'.errOutput
        = taskBytes c.errOutput ++ workBytes work .errOutput a (b - a) := by
  obtain ⟨s, hrun, hpc⟩ := hret
  have hfiles := (BatchArgs.reachable_inv hsep ⟨_, hrun⟩).files
  rw [hpc] at hfiles
  have hbytes : ∀ st, workBytes (env.batch work hosts a b).work st 0
      (env.batch work hosts a b).hosts.length = workBytes work st a (b - a) := by
    intro st
    rw [length_batch_hosts hb]
    exact workBytes_shift work st a (b - a)
  refine ⟨c.extend s.output s.errOutput (List.range' a (b - a)), ?_, ?_, ?_⟩
  · rw [runParallel, parallelRun_of_returns hab hb hmk hrun hpc]
    rfl
  · show c.output ++ s.output = _
    rw [hfiles.output_eq hcreates, hbytes]
  · show taskBytes (c.errOutput ++ s.errOutput) = _
    rw [taskBytes_append, hfiles.errOutput_eq hcreates, hbytes]

/-! ## All the batches -/

variable (env hosts) in
/-- **Nothing fails on the disk**: every directory is made, and every file
of every host can be created in it. -/
def DiskWorks : Prop :=
  ∀ start, env.mkdir start = true
    ∧ ∀ h ∈ hosts, ∀ st, env.disk.creates (tmpPath (env.dir start) h st) = true

theorem mem_hosts_of_mem_batch {start stop : ℤ} {h : GoString}
    (hh : h ∈ (env.batch work hosts start stop).hosts) : h ∈ hosts :=
  List.mem_of_mem_take (List.mem_of_mem_drop hh)

theorem createsAll (hdisk : env.DiskWorks hosts) (start stop : ℤ) :
    (env.batch work hosts start stop).CreatesAll :=
  fun h hh => (hdisk start).2 h (mem_hosts_of_mem_batch hh)

/-- Hosts that can be created as files, with different names for all their
files, have separate files in every batch. -/
theorem separate (hdisk : env.DiskWorks hosts) (hslash : ∀ h ∈ hosts, '/' ∉ h)
    (hnames : (tmpNames hosts).Nodup) (start stop : ℤ) :
    (env.batch work hosts start stop).Separate := by
  refine BatchArgs.separate_of_hostsSeparate (hostsSeparate_of_tmpNames
    (fun h hh => hslash h (mem_hosts_of_mem_batch hh)) (fun h hh => ?_) ?_)
  · have hmem := mem_hosts_of_mem_batch hh
    have hfile := env.disk.isFileName _ ((hdisk start).2 h hmem .output)
    rwa [tmpPath, lastSegment_append_slash, tmpName,
      lastSegment_of_notMem (hslash h hmem)] at hfile
  · have hsub : List.Sublist (env.batch work hosts start stop).hosts hosts :=
      (List.drop_sublist _ _).trans (List.take_sublist _ _)
    exact hnames.sublist (hsub.flatMap _)

/-- **The batches together leave what the tasks write, in host order.** -/
theorem foldlM_runParallel (hdisk : env.DiskWorks hosts)
    (hslash : ∀ h ∈ hosts, '/' ∉ h) (hnames : (tmpNames hosts).Nodup)
    (hret : ∀ start stop, env.Returns work hosts start stop) {degree : ℤ}
    {off : ℤ} {rs : List (ℤ × ℤ)} (hb : Batches degree hosts.length off rs)
    (hoff : 0 ≤ off) (c : Console) :
    ∃ c', rs.foldlM (fun c r => runParallel env work hosts r.1 r.2 c) c = some c'
      ∧ c'.output = c.output
          ++ workBytes work .output off.toNat (hosts.length - off.toNat)
      ∧ taskBytes c'.errOutput = taskBytes c.errOutput
          ++ workBytes work .errOutput off.toNat (hosts.length - off.toNat) := by
  induction hb generalizing c with
  | @nil off h =>
    have hk : hosts.length - off.toNat = 0 := by omega
    refine ⟨c, rfl, ?_, ?_⟩ <;>
    · rw [hk]
      exact (List.append_nil _).symm
  | @cons off rs hd h hr ih =>
    obtain ⟨a, rfl⟩ := Int.eq_ofNat_of_zero_le hoff
    obtain ⟨m, hm⟩ := Int.eq_ofNat_of_zero_le
      (show 0 ≤ min ((a : ℤ) + degree) hosts.length by omega)
    obtain ⟨c₁, hrun, hout, herr⟩ := runParallel_console (by omega) (by omega)
      (hdisk a).1 (hret a m) (separate hdisk hslash hnames a m)
      (createsAll hdisk a m) c
    obtain ⟨c₂, hrest, hout', herr'⟩ := ih (by omega) c₁
    -- the rest starts where this batch stops, or there is none
    have hbytes : ∀ st, workBytes work st a (hosts.length - a)
        = workBytes work st a (m - a)
          ++ workBytes work st ((a : ℤ) + degree).toNat
            (hosts.length - ((a : ℤ) + degree).toNat) := by
      intro st
      rw [show hosts.length - a = (m - a) + (hosts.length - m) by omega, workBytes_add]
      by_cases hcut : (a : ℤ) + degree ≤ hosts.length
      · rw [show ((a : ℤ) + degree).toNat = m by omega,
          show a + (m - a) = m by omega]
      · rw [show hosts.length - m = 0 by omega,
          show hosts.length - ((a : ℤ) + degree).toNat = 0 by omega]
        rfl
    refine ⟨c₂, ?_, ?_, ?_⟩
    · rw [List.foldlM_cons, hm, hrun]
      exact hrest
    · rw [hout', hout, Int.toNat_natCast, hbytes, List.append_assoc]
    · rw [herr', herr, Int.toNat_natCast, hbytes, List.append_assoc]

/-- Schedules on which every batch returns. -/
theorem exists_returns (env : ParallelEnv) (work : ℕ → List Write)
    (hosts : List GoString) :
    ∃ schedule, ∀ start stop,
      { env with schedule := schedule }.Returns work hosts start stop := by
  choose schedule hsched using fun start stop : ℤ =>
    (env.batch work hosts start stop).exists_run_returned
  exact ⟨schedule, hsched⟩

end ParallelEnv

/-- **Parallel mode refines serial mode.** For hosts without a slash, with
different names for all their files, on a disk that works, and whatever the
tasks write:

* a batch is merged only once each of its tasks has been started and has
  returned, and the wait group is at zero;
* a schedule of a batch is bounded, and can always be carried on until the
  batch returns;
* whatever schedules the batches return on, the batching loop ends, the
  output is what one serial run over the same hosts leaves there – the
  bytes of each task, in host order – and the tasks' bytes on the error
  output are the same too. -/
theorem parallel_refines_serial (env : ParallelEnv) (work : ℕ → List Write)
    (hosts : List GoString) (hslash : ∀ h ∈ hosts, '/' ∉ h)
    (hnames : (tmpNames hosts).Nodup) (hdisk : env.DiskWorks hosts)
    {degree : ℤ} (hdeg : 1 ≤ degree) {off : ℕ} (hoff : off ≤ hosts.length) :
    (∀ (start stop : ℤ) (s : BatchState),
      (env.batch work hosts start stop).machine.Reachable s →
      ∀ k, s.pc = .merge k →
        (env.batch work hosts start stop).AllDone s ∧ s.wg = 0)
    ∧ (∀ (start stop : ℤ) (ls : List BatchLabel) (s : BatchState),
      (env.batch work hosts start stop).machine.run ls = some s →
      ls.length ≤ (env.batch work hosts start stop).measure BatchArgs.start
        ∧ ∃ ls' s', (env.batch work hosts start stop).machine.run (ls ++ ls')
          = some s' ∧ s'.pc = .returned)
    ∧ ∀ schedule : ℤ → ℤ → List BatchLabel,
      (∀ start stop,
        { env with schedule := schedule }.Returns work hosts start stop) →
      ∀ c : Console, ∃ par ser : Console,
        (∀ fuel > hosts.length,
          batchLoop (runParallel { env with schedule := schedule } work hosts)
            degree hosts.length fuel off c = some par)
        ∧ serialRun work hosts off hosts.length c = some ser
        ∧ par.output = ser.output
        ∧ par.output = c.output
          ++ (List.range' off (hosts.length - off)).flatMap
            (fun i => bytesOn .output (work i))
        ∧ taskBytes par.errOutput = taskBytes ser.errOutput := by
  refine ⟨fun start stop s hs k hpc => ?_, fun start stop ls s hrun => ?_,
    fun schedule hret c => ?_⟩
  · have hshape := BatchArgs.reachable_shape hs
    have hat := hshape.at_pc
    rw [hpc] at hat
    refine ⟨hat.2, ?_⟩
    rw [hshape.wg_eq, List.countP_eq_zero.mpr]
    · rfl
    · intro t ht
      simp [hat.2.2 t ht]
  · refine ⟨BatchArgs.length_le_measure hrun, ?_⟩
    obtain ⟨ls', s', hrun', hpc⟩ :=
      BatchArgs.exists_runFrom_returned (BatchArgs.reachable_shape ⟨ls, hrun⟩)
    exact ⟨ls', s', Machine.runFrom_trans hrun hrun', hpc⟩
  · obtain ⟨rs, hb⟩ := Batches.exists_of_pos hdeg hosts.length off
    have hdisk' : ParallelEnv.DiskWorks { env with schedule := schedule } hosts := hdisk
    obtain ⟨par, hpar, hout, herr⟩ := ParallelEnv.foldlM_runParallel hdisk' hslash
      hnames hret hb (Int.natCast_nonneg off) c
    have hser := serialRun_console work hoff le_rfl c
    refine ⟨par, _, fun fuel hfuel => ?_, hser, hout, hout, ?_⟩
    · have hlen := hb.length_le
      rw [hb.batchLoop_eq_foldlM (by omega) _ (by omega) c, hpar]
    · rw [herr, Console.extend, taskBytes_append, taskBytes_hostsAt work _ hoff le_rfl]
      rfl

/-- Two hosts in one batch, each task writing one byte. -/
theorem parallel_refines_serial_two_hosts :
    ∃ schedule par,
      batchLoop (runParallel
          ⟨".".toList, fun _ => 7, fun _ => true,
            ⟨fun p => decide (IsFileName (lastSegment p)), fun _ => of_decide_eq_true⟩,
            schedule⟩
          (fun i => [⟨.output, [65 + i.toUInt8]⟩]) ["a".toList, "b".toList])
        2 2 3 0 Console.empty = some par
      ∧ par.output = [65, 66] := by
  obtain ⟨schedule, hret⟩ := ParallelEnv.exists_returns
    ⟨".".toList, fun _ => 7, fun _ => true,
      ⟨fun p => decide (IsFileName (lastSegment p)), fun _ => of_decide_eq_true⟩,
      fun _ _ => []⟩
    (fun i => [⟨.output, [65 + i.toUInt8]⟩]) ["a".toList, "b".toList]
  have hcreates : ∀ h ∈ ["a".toList, "b".toList], ∀ st, decide (IsFileName
      (lastSegment (tmpPath (taskDir ".".toList 7) h st))) = true := by
    intro h hh st
    revert h
    cases st <;> decide
  obtain ⟨par, ser, hpar, -, -, hout, -⟩ :=
    (parallel_refines_serial _ _ _ (by decide) (by decide)
      (fun _ => ⟨rfl, hcreates⟩) (by decide : (1 : ℤ) ≤ 2) (Nat.zero_le 2)).2.2 schedule hret
      Console.empty
  exact ⟨schedule, par, hpar 3 (by decide), hout⟩
