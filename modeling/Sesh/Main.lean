import Sesh.Command
import Sesh.Cowsay
import Sesh.Hosts
import Sesh.Refinement
import Sesh.ScpRun

/-!
# The program

`main` (`main.go`) settles what to do from the flags and from what it finds
in its environment – the hosts, the user, the key file, the command – and
stops with a message where something is missing (`plan`). Then it sends a
file, or runs the command, and prints a green line at the end.

The flags come parsed. What the world answers is an environment: the files,
the variables, whether directories can be made, how each transfer ends, and
what each task writes. A schedule says in which order the goroutines move.

The green line follows every run that comes to its end. `main` drops the
error of `ParallelRun`, and `ScpRun` returns none whatever happens to its
transfers, so the line says what it should only where nothing fails
(`finished_sound_iff`).
-/

/-- `SeshFlags`: the flags. -/
structure SeshFlags where
  hostfile : GoString
  hostlist : GoString
  user : GoString
  password : GoString
  port : GoString
  keyfile : GoString
  cmdfile : GoString
  tmpdir : GoString
  data : List GoString
  arguments : GoString
  parallel : Bool
  parallelDegree : ℤ
  timeout : ℤ
  pause : Bool
  debug : Bool
  cmd : List GoString
  /-- The source of the verb `send`. -/
  src : GoString
  /-- The destination of the verb `send`. -/
  destdir : GoString
  deriving DecidableEq, Repr

/-- The flags `main` begins with. -/
def SeshFlags.default : SeshFlags where
  hostfile := []
  hostlist := []
  user := []
  password := []
  port := []
  keyfile := []
  cmdfile := []
  tmpdir := ['.']
  data := []
  arguments := []
  parallel := false
  parallelDegree := 0
  timeout := 0
  pause := false
  debug := false
  cmd := []
  src := []
  destdir := []

/-- **What the program finds in the world.** -/
structure MainEnv where
  /-- The files. -/
  readFile : ReadFile
  /-- Whether `os.Stat` says that a path does not exist. -/
  notExist : GoString → Bool
  /-- The variables of the environment. -/
  getenv : GoString → GoString
  /-- The text on standard input. -/
  stdin : GoString
  /-- Whether standard input is a terminal. -/
  stdinTerminal : Bool
  /-- The template engine. -/
  render : Render
  /-- What the task of each host writes. -/
  work : TaskArgs → ℕ → List Write
  /-- The clock when a batch is started. -/
  nanosecond : ℤ → ℕ
  /-- Whether the directory of a batch can be made. -/
  mkdir : ℤ → Bool
  /-- The files that can be created. -/
  disk : Disk
  /-- How the transfer to each host ends. -/
  rsync : ℕ → RsyncResult

/-- The order in which the goroutines move. -/
structure MainSchedule where
  /-- The schedule of each batch of a parallel run. -/
  batch : ℤ → ℤ → List BatchLabel
  /-- The schedule of the transfers. -/
  scp : List ScpLabel

/-! ## What there is to do -/

/-- Why `main` stops before it does anything. -/
inductive Abort
  | hostfile
  | keyfile (file : GoString)
  | noCommand
  | cmdfile (file : GoString)
  | parseFile (err : GoString)
  | parse (err : GoString)
  | tmpdir (dir : GoString)
  deriving DecidableEq, Repr

/-- A text in red. -/
def red (text : GoString) : GoString :=
  "\x1b[31m".toList ++ text ++ "\x1b[0m\n".toList

/-- The line `main` stops with. -/
def Abort.line : Abort → GoString
  | .hostfile => red "Failed to read host from file!".toList
  | .keyfile file => red ("Key file ".toList ++ file ++ " not found!".toList)
  | .noCommand => red "Plese specify command you want execute.".toList
  | .cmdfile file => red ("Command file ".toList ++ file ++ " not found!".toList)
  | .parseFile err => red "Parse command file failed!".toList ++ err ++ ['\n']
  | .parse err => red "Parse command failed!".toList ++ err ++ ['\n']
  | .tmpdir dir => red ("Temporary directory ".toList ++ dir ++ " is not exist!".toList)

/-- The line a run ends with. -/
def finishedLine : GoString := "\x1b[32mFinished!\x1b[0m\n".toList

/-- The prompt for the hosts. -/
def hostsPrompt : GoString :=
  ("\x1b[33mPlease input hosts, seperated by LINE SEPERATOR, press Ctrl+D to "
    ++ "finish input:\x1b[0m\n").toList

namespace SeshFlags

variable (options : SeshFlags) (env : MainEnv)

/-- Whether the hosts are asked for. -/
def asksHosts : Bool :=
  options.hostfile.isEmpty && options.hostlist.isEmpty && env.stdinTerminal

/-- The hosts: from the host file, the command line or standard input. -/
def getHosts : Except Abort (List GoString) :=
  if options.hostfile ≠ [] then
    match env.readFile options.hostfile with
    | .error _ => .error .hostfile
    | .ok buf => .ok (parseHostsFromString buf)
  else if options.hostlist ≠ [] then .ok (parseHostsFromString options.hostlist)
  else .ok (parseHostsFromString env.stdin)

/-- The user. -/
def getUser : GoString :=
  if options.user = [] then env.getenv "USER".toList else options.user

/-- The key file: where none is given, the one in the home directory, or
none if there is a password. -/
def getKeyfile : Except Abort GoString :=
  if options.keyfile = [] then
    let keyfile := env.getenv "HOME".toList ++ "/.ssh/id_rsa".toList
    if env.notExist keyfile then
      if options.password = [] then .error (.keyfile keyfile) else .ok []
    else .ok keyfile
  else .ok options.keyfile

/-- The verb `send` was given, with its two flags. -/
def Sends : Prop := options.src ≠ [] ∧ options.destdir ≠ []

instance : Decidable options.Sends := inferInstanceAs (Decidable (_ ∧ _))

/-- The command and the command file, once the built-in command is looked
up. -/
def expandAuth : List GoString × GoString :=
  if options.cmdfile = authCmdFile then
    let pubkeyFile :=
      if options.keyfile ≠ [] then options.keyfile ++ ".pub".toList
      else env.getenv "HOME".toList ++ "/.ssh/id_rsa.pub".toList
    match BuildinCmd.get env.readFile pubkeyFile with
    | .ok c => ([c], [])
    | .error _ => (options.cmd, options.cmdfile)
  else (options.cmd, options.cmdfile)

/-- The command, from a file or from the words of the command line, with
the values of the template filled in. -/
def getCommand : Except Abort GoString :=
  if options.cmd = [] ∧ options.cmdfile = [] then .error .noCommand
  else
    let (words, cmdfile) := options.expandAuth env
    if cmdfile ≠ [] then
      if env.notExist cmdfile then .error (.cmdfile cmdfile)
      else
        match parseFromFiles env.readFile env.render cmdfile (parseData options.data) with
        | .error err => .error (.parseFile err)
        | .ok o => .ok o
    else
      match parseFromString env.render (words.flatMap (· ++ [' ']))
        (parseData options.data) with
      | .error err => .error (.parse err)
      | .ok o => .ok o

/-- The configuration of a transfer. -/
def scpArgs : TaskArgs where
  user := options.user
  password := options.password
  keyfile := options.keyfile
  port := options.port
  cmd := []
  cmdArgs := []
  timeout := options.timeout
  parallel := options.parallel
  source := options.src
  destdir := options.destdir

/-- The configuration of the tasks. -/
def taskArgs (cmd : GoString) : TaskArgs where
  user := options.user
  password := options.password
  keyfile := options.keyfile
  port := options.port
  cmd := cmd
  cmdArgs := options.arguments
  timeout := options.timeout
  parallel := false
  source := []
  destdir := []

/-- The flags that decide how the hosts are run. -/
def runFlags : RunFlags := ⟨options.parallel, options.parallelDegree, options.pause⟩

end SeshFlags

/-- The verb `%v` on a boolean. -/
def showBool (b : Bool) : GoString := if b then "true".toList else "false".toList

/-- The verb `%v` on a list of strings. -/
def showStrings (ss : List GoString) : GoString :=
  '[' :: [' '].intercalate ss ++ [']']

/-- A label in green. -/
def greenLabel (label : GoString) : GoString :=
  "\x1b[32m".toList ++ label ++ ":\x1b[0m".toList

/-- `printDebugInfo`: the text it prints. -/
def printDebugInfo (options : SeshFlags) (hosts : List GoString) (cmd : GoString) :
    GoString :=
  "\x1b[33mConfigurations:\x1b[0m\n".toList
    ++ greenLabel "User".toList ++ ' ' :: options.user ++ '\n'
    :: greenLabel "Keyfile".toList ++ ' ' :: options.keyfile ++ '\n'
    :: greenLabel "Password".toList ++ ' ' :: options.password ++ '\n'
    :: greenLabel "Hosts".toList ++ ' ' :: showStrings hosts ++ '\n'
    :: greenLabel "Comands".toList ++ '\n' :: cmd ++ '\n'
    :: (if options.parallel then
        greenLabel "Parallel".toList ++ showBool options.parallel
          ++ ", degree: ".toList ++ showInt options.parallelDegree ++ '\n'
          :: greenLabel "tmp direcotry".toList ++ ' ' :: options.tmpdir ++ ['\n']
      else [])
    ++ greenLabel "Pause for check".toList ++ ' ' :: showBool options.pause ++ ['\n']

/-- What `main` has settled on. -/
inductive Plan
  | send (config : TaskArgs)
  | debug (text : GoString)
  | run (config : TaskArgs)
  deriving DecidableEq, Repr

/-- What there is to do once the flags are complete. -/
def SeshFlags.planRun (options : SeshFlags) (env : MainEnv) (hosts : List GoString) :
    Except Abort Plan :=
  if options.Sends then .ok (.send options.scpArgs)
  else do
    let cmd ← options.getCommand env
    if env.notExist options.tmpdir ∧ options.parallel then .error (.tmpdir options.tmpdir)
    else if options.debug then .ok (.debug (printDebugInfo options hosts cmd))
    else .ok (.run (options.taskArgs cmd))

/-- **What `main` settles before it does anything**: the hosts, and what to
do with them. -/
def SeshFlags.plan (options : SeshFlags) (env : MainEnv) :
    Except Abort (List GoString × Plan) := do
  let timeout := if options.timeout < 1 then 5 else options.timeout
  let hosts ← options.getHosts env
  let user := options.getUser env
  let keyfile ← options.getKeyfile env
  let p ← planRun { options with timeout, user, keyfile } env hosts
  return (hosts, p)

/-! ## Doing it -/

/-- The bytes of a text. -/
def utf8 (s : GoString) : Bytes := s.flatMap String.utf8EncodeChar

/-- The greeting of a parallel run. -/
def greeting : GoString := girlSay "  Please wait me for a moment, Baby!  ".toList

/-- The environment of the parallel runs. -/
def MainEnv.parallelEnv (env : MainEnv) (tmpdir : GoString) (sched : MainSchedule) :
    ParallelEnv :=
  ⟨tmpdir, env.nanosecond, env.mkdir, env.disk, sched.batch⟩

/-- What `main` does to the console while it runs the hosts. -/
def MainEnv.ops (env : MainEnv) (tmpdir : GoString) (sched : MainSchedule)
    (config : TaskArgs) (hosts : List GoString) : RunOps Console :=
  consoleOps (env.work config) hosts greeting
    (runParallel (env.parallelEnv tmpdir sched) (env.work config) hosts)

/-- What `main` says after `ScpRun`. -/
def reportSend (err : Option GoString) (c : Console) : Console :=
  match err with
  | some err => c.notice (red ("Copy faild! ".toList ++ err))
  | none => c.notice finishedLine

/-- What `main` does with its plan. -/
def runPlan (options : SeshFlags) (env : MainEnv) (sched : MainSchedule) (fuel : ℕ)
    (hosts : List GoString) (c : Console) : Plan → Option Console
  | .send config =>
    (scpRun ⟨config, hosts, env.rsync⟩ sched.scp c).map (fun r => reportSend r.1 r.2)
  | .debug text => some (c.extend (utf8 text) [] [])
  | .run config =>
    (runHosts (env.ops options.tmpdir sched config hosts) options.runFlags
      hosts.length fuel c).map (fun c => c.notice finishedLine)

/-- What is on the console before `main` carries out its plan. -/
def SeshFlags.prompted (options : SeshFlags) (env : MainEnv) : Console :=
  if options.asksHosts env then Console.empty.notice hostsPrompt else Console.empty

/-- **`main`**: what is on the console when it returns, `none` where it
panics, where the fuel of its loop does not suffice, or where the schedule
is not one that runs to the end. -/
def Sesh.main (options : SeshFlags) (env : MainEnv) (sched : MainSchedule) (fuel : ℕ) :
    Option Console :=
  match options.plan env with
  | .error abort => some ((options.prompted env).notice abort.line)
  | .ok (hosts, p) => runPlan options env sched fuel hosts (options.prompted env) p

/-! ## The tasks a run starts -/

/-- The tasks a call starts, `mkdir` being the directories that can be
made. -/
def Call.started (mkdir : ℤ → Bool) : Call → List ℕ
  | .serial start stop => positions (start, stop)
  | .check => []
  | .greet => []
  | .parallel start stop => if mkdir start then positions (start, stop) else []

namespace MainEnv

variable {env : MainEnv} {tmpdir : GoString} {sched : MainSchedule} {config : TaskArgs}
  {hosts : List GoString}

theorem call_started {k : Call} {c c' : Console}
    (h : (env.ops tmpdir sched config hosts).call c k = some c') :
    c'.started = c.started ++ k.started env.mkdir := by
  cases k with
  | serial start stop => exact serialRun_started h
  | check =>
    obtain ⟨host, -, rfl⟩ := Option.map_eq_some_iff.mp h
    exact (List.append_nil _).symm
  | greet =>
    rw [← Option.some.inj h]
    exact (List.append_nil _).symm
  | parallel start stop => exact runParallel_started h

/-- **The tasks started are those of the calls**, one after the other. -/
theorem foldlM_call_started {ks : List Call} {c c' : Console}
    (h : ks.foldlM (env.ops tmpdir sched config hosts).call c = some c') :
    c'.started = c.started ++ ks.flatMap (Call.started env.mkdir) := by
  induction ks generalizing c with
  | nil =>
    rw [← Option.some.inj h]
    exact (List.append_nil _).symm
  | cons k ks ih =>
    rw [List.foldlM_cons] at h
    obtain ⟨c₁, hk, hks⟩ := Option.bind_eq_some_iff.mp h
    rw [ih hks, call_started hk, List.append_assoc, List.flatMap_cons]

/-- A call within the list comes back, if its schedule goes on until it
does. -/
theorem exists_call
    (hret : ∀ start stop, (env.parallelEnv tmpdir sched).Returns (env.work config)
      hosts start stop)
    {k : Call} (hne : k = .check → hosts ≠ [])
    (hk : ∀ r ∈ k.range, 0 ≤ r.1 ∧ r.1 ≤ r.2 ∧ r.2 ≤ hosts.length) (c : Console) :
    ∃ c', (env.ops tmpdir sched config hosts).call c k = some c' := by
  cases k with
  | serial start stop =>
    obtain ⟨h0, h1, h2⟩ := hk (start, stop) rfl
    obtain ⟨a, rfl⟩ := Int.eq_ofNat_of_zero_le h0
    obtain ⟨b, rfl⟩ := Int.eq_ofNat_of_zero_le (h0.trans h1)
    exact ⟨_, serialRun_console (env.work config) (by simpa using h1) (by simpa using h2) c⟩
  | check =>
    obtain ⟨host, hhead⟩ := Option.ne_none_iff_exists'.mp
      (fun h => hne rfl (List.head?_eq_none_iff.mp h))
    exact ⟨_, congrArg (Option.map _) hhead⟩
  | greet => exact ⟨_, rfl⟩
  | parallel start stop =>
    obtain ⟨h0, h1, h2⟩ := hk (start, stop) rfl
    obtain ⟨a, rfl⟩ := Int.eq_ofNat_of_zero_le h0
    obtain ⟨b, rfl⟩ := Int.eq_ofNat_of_zero_le (h0.trans h1)
    have hab : a ≤ b := by simpa using h1
    have hb : b ≤ hosts.length := by simpa using h2
    cases hmk : env.mkdir a with
    | false =>
      exact ⟨c, congrArg (Option.map Prod.snd)
        (ParallelEnv.parallelRun_of_mkdir_fails hab hb hmk c)⟩
    | true =>
      obtain ⟨s, hs, hpc⟩ := hret a b
      exact ⟨_, congrArg (Option.map Prod.snd)
        (ParallelEnv.parallelRun_of_returns hab hb hmk hs hpc c)⟩

end MainEnv

namespace RunFlags

variable {flags : RunFlags} {n : ℕ} {rs : List (ℤ × ℤ)}

/-- The tasks the calls start. -/
theorem flatMap_started_calls (flags : RunFlags) (n : ℕ) (rs : List (ℤ × ℤ))
    (mkdir : ℤ → Bool) :
    (flags.calls n rs).flatMap (Call.started mkdir)
      = positions (0, flags.hostOffset)
        ++ if flags.parallel then
            rs.flatMap (fun r => if mkdir r.1 then positions r else [])
          else positions (flags.hostOffset, n) := by
  have hpar : (rs.map (fun r => Call.parallel r.1 r.2)).flatMap (Call.started mkdir)
      = rs.flatMap (fun r => if mkdir r.1 then positions r else []) := by
    rw [List.flatMap_map]
    rfl
  unfold calls restCalls
  rw [List.flatMap_append]
  congr 1
  · unfold hostOffset
    split <;> rfl
  · split
    · rw [List.flatMap_cons, hpar]
      rfl
    · exact List.append_nil _

/-- **The calls start a task for every host** exactly when, in parallel
mode, the directory of every batch can be made. -/
theorem forall_mem_started_iff (hb : Batches (flags.degree n) n flags.hostOffset rs)
    (hoff : flags.hostOffset ≤ n) (mkdir : ℤ → Bool) :
    (∀ i < n, i ∈ (flags.calls n rs).flatMap (Call.started mkdir))
      ↔ (flags.parallel = true → ∀ r ∈ rs, mkdir r.1 = true) := by
  have hnonneg := flags.hostOffset_nonneg
  have hall : ∀ i : ℕ, i < n ↔ i ∈ positions (0, flags.hostOffset)
      ∨ i ∈ positions (flags.hostOffset, n) := by
    intro i
    rw [mem_positions, mem_positions]
    dsimp only
    omega
  rw [flatMap_started_calls]
  simp only [List.mem_append]
  by_cases hp : flags.parallel = true
  · rw [if_pos hp, ← hb.forall_mem_flatMap_iff hnonneg]
    refine ⟨fun h _ i hi => ?_, fun h i hi => ?_⟩
    · refine (h i ((hall i).mpr (Or.inr hi))).resolve_left fun hcheck => ?_
      have h1 := mem_positions.mp hcheck
      have h2 := mem_positions.mp hi
      dsimp only at h1 h2
      omega
    · exact ((hall i).mp hi).imp_right (h hp i)
  · rw [if_neg hp]
    exact iff_of_true (fun i hi => (hall i).mp hi) (fun h => absurd h hp)

end RunFlags

/-! ## The green line -/

/-- **Where a batch starts**: at the offset, or a multiple of the degree past
it. -/
def RunFlags.BatchStart (flags : RunFlags) (n start : ℤ) : Prop :=
  flags.hostOffset ≤ start ∧ start < n ∧ flags.degree n ∣ start - flags.hostOffset

/-- **A run starts a task for every host**, on whatever schedule, exactly
when in parallel mode the directory of every batch can be made. -/
theorem MainEnv.forall_mem_started_iff (env : MainEnv) (tmpdir : GoString)
    (config : TaskArgs) (hosts : List GoString) (flags : RunFlags) {c : Console}
    (hc : c.started = []) :
    (∀ (sched : MainSchedule) (fuel : ℕ) (c' : Console),
      runHosts (env.ops tmpdir sched config hosts) flags hosts.length fuel c = some c' →
        ∀ i < hosts.length, i ∈ c'.started)
      ↔ (flags.parallel = true →
        ∀ start, flags.BatchStart hosts.length start → env.mkdir start = true) := by
  by_cases hne : hosts = []
  · refine iff_of_true (fun sched fuel c' hrun i hi => ?_) (fun hp start hstart => ?_)
    · rw [hne] at hi
      exact absurd hi (Nat.not_lt_zero i)
    · have hnonneg := flags.hostOffset_nonneg
      obtain ⟨hle, hlt, -⟩ := hstart
      rw [hne, List.length_nil] at hlt
      omega
  have hoff : flags.hostOffset ≤ hosts.length :=
    RunFlags.hostOffset_le fun _ => List.length_pos_iff.mpr hne
  have hdeg : 0 ≤ flags.degree hosts.length := effectiveDegree_nonneg _ hoff
  obtain ⟨rs, hb⟩ := exists_batches flags.parallelDegree hoff
  have hstarts : (∀ r ∈ rs, env.mkdir r.1 = true)
      ↔ ∀ start, flags.BatchStart hosts.length start → env.mkdir start = true := by
    rw [hb.forall_start_iff (fun start => env.mkdir start = true)]
    exact forall_congr' fun start => by
      unfold RunFlags.BatchStart
      rw [and_imp, and_imp]
      rfl
  rw [← hstarts, ← RunFlags.forall_mem_started_iff hb hoff]
  constructor
  · intro hall
    obtain ⟨schedule, hret⟩ := ParallelEnv.exists_returns
      (env.parallelEnv tmpdir ⟨fun _ _ => [], []⟩) (env.work config) hosts
    obtain ⟨c', hrun⟩ : ∃ c', (flags.calls hosts.length rs).foldlM
        (env.ops tmpdir ⟨schedule, []⟩ config hosts).call c = some c' := RunOps.exists_foldlM_call
      (fun k hk c => exists_call hret (fun _ => hne) (RunFlags.range_mem_calls hb hoff hk) c) c
    have hstarted := foldlM_call_started hrun
    rw [hc, List.nil_append] at hstarted
    rw [← hstarted]
    exact hall _ (rs.length + 1) c'
      ((RunFlags.runHosts_eq_foldlM _ hb hdeg (Nat.lt_succ_self _) c).trans hrun)
  · intro hall sched fuel c' hrun
    have hstarted := foldlM_call_started (RunFlags.foldlM_of_runHosts hb hdeg hrun)
    rw [hc, List.nil_append] at hstarted
    rwa [hstarted]

theorem Abort.line_ne_finishedLine (abort : Abort) : abort.line ≠ finishedLine := by
  -- the two differ in the code of their colour
  have hred : abort.line[3]? = some '1' := by cases abort <;> rfl
  have hgreen : finishedLine[3]? = some '2' := rfl
  intro h
  rw [h, hgreen] at hred
  exact absurd hred (by decide)

/-- What comes out of two steps came through the first. -/
theorem exists_of_bind_eq_ok {ε α β : Type} {x : Except ε α} {f : α → Except ε β}
    {b : β} (h : x >>= f = .ok b) : ∃ a, x = .ok a ∧ f a = .ok b := by
  cases x with
  | error e => cases h
  | ok a => exact ⟨a, rfl, h⟩

namespace SeshFlags

variable {options : SeshFlags} {env : MainEnv} {hosts : List GoString} {p : Plan}

/-- A file is sent exactly if that was asked for. -/
theorem sends_iff_of_planRun (h : options.planRun env hosts = .ok p) :
    options.Sends ↔ ∃ config, p = .send config := by
  unfold planRun at h
  split at h
  · rename_i hs
    exact iff_of_true hs ⟨_, (Except.ok.inj h).symm⟩
  · rename_i hs
    refine iff_of_false hs ?_
    rintro ⟨config, rfl⟩
    obtain ⟨cmd, -, h⟩ := exists_of_bind_eq_ok h
    split at h
    · cases h
    · split at h <;> cases h

/-- What can be told from a plan: the hosts are those that were found, and a
file is sent exactly if that was asked for. -/
theorem plan_eq_ok (h : options.plan env = .ok (hosts, p)) :
    options.getHosts env = .ok hosts ∧ (options.Sends ↔ ∃ config, p = .send config) := by
  obtain ⟨hosts', hhosts, h⟩ := exists_of_bind_eq_ok h
  obtain ⟨keyfile, -, h⟩ := exists_of_bind_eq_ok h
  obtain ⟨p', hp, h⟩ := exists_of_bind_eq_ok h
  obtain ⟨rfl, rfl⟩ := Prod.mk.inj (Except.ok.inj h)
  have hsends := sends_iff_of_planRun hp
  exact ⟨hhosts, hsends⟩

end SeshFlags

/-- **Nothing fails that the plan needs**: to send, the transfer to every
host; to run in parallel, the directory of every batch. -/
def NothingFails (options : SeshFlags) (env : MainEnv) (hosts : List GoString) :
    Plan → Prop
  | .send _ => ∀ i < hosts.length, env.rsync i = .ok
  | .debug _ => True
  | .run _ => options.parallel = true →
    ∀ start, options.runFlags.BatchStart hosts.length start → env.mkdir start = true

/-- The green line is on a console. -/
def Console.Green (c : Console) : Prop := .notice finishedLine ∈ c.errOutput

theorem Console.green_notice (c : Console) : (c.notice finishedLine).Green :=
  List.mem_append_right _ (List.mem_singleton_self _)

namespace SeshFlags

variable (options : SeshFlags) (env : MainEnv) (hosts : List GoString) (config : TaskArgs)

theorem started_prompted : (options.prompted env).started = [] := by
  unfold prompted
  split <;> rfl

theorem not_green_prompted : ¬ (options.prompted env).Green := by
  unfold prompted Console.Green
  split <;> decide

/-- Sending: the line is always printed, so it is right exactly when every
transfer ends well. -/
theorem send_sound_iff :
    (∀ sched fuel c,
      runPlan options env sched fuel hosts (options.prompted env) (.send config) = some c →
      c.Green → (∀ i < hosts.length, i ∈ c.started)
        ∧ ∀ i < hosts.length, env.rsync i = .ok)
      ↔ NothingFails options env hosts (.send config) := by
  constructor
  · intro hall
    obtain ⟨schedule, c', hrun⟩ :=
      exists_scpRun ⟨config, hosts, env.rsync⟩ (options.prompted env)
    have hplan : runPlan options env ⟨fun _ _ => [], schedule⟩ 0 hosts
        (options.prompted env) (.send config) = some (c'.notice finishedLine) :=
      congrArg (Option.map _) hrun
    exact (hall _ 0 _ hplan c'.green_notice).2
  · intro hok sched fuel c hplan _
    obtain ⟨⟨err, c'⟩, hrun, rfl⟩ := Option.map_eq_some_iff.mp hplan
    obtain ⟨rfl, hstarted⟩ := scpRun_eq_some hrun
    rw [started_prompted, List.nil_append] at hstarted
    refine ⟨fun i hi => ?_, hok⟩
    show i ∈ c'.started
    rw [hstarted]
    exact List.mem_range.mpr hi

/-- Running: the line is printed at every end, so it is right exactly when
no batch is left out. -/
theorem run_sound_iff :
    (∀ sched fuel c,
      runPlan options env sched fuel hosts (options.prompted env) (.run config) = some c →
      c.Green → ∀ i < hosts.length, i ∈ c.started)
      ↔ NothingFails options env hosts (.run config) := by
  refine Iff.trans ?_ (MainEnv.forall_mem_started_iff env options.tmpdir config hosts
    options.runFlags (options.started_prompted env))
  constructor
  · intro hall sched fuel c' hrun
    exact hall sched fuel (c'.notice finishedLine) (congrArg (Option.map _) hrun)
      c'.green_notice
  · intro hall sched fuel c hplan _
    obtain ⟨c', hrun, rfl⟩ := Option.map_eq_some_iff.mp hplan
    exact hall sched fuel c' hrun

end SeshFlags

/-- **The green line can be trusted exactly where nothing fails.** Whatever
the flags, the environment and the schedule: if `main` prints the line, a
task was started for every host, and every transfer of `send` has ended
well – for each schedule if and only if every transfer the plan makes ends
well and every directory it needs for a batch can be made. -/
theorem finished_sound_iff (options : SeshFlags) (env : MainEnv) :
    (∀ (sched : MainSchedule) (fuel : ℕ) (c : Console),
      Sesh.main options env sched fuel = some c → c.Green →
      ∀ hosts, options.getHosts env = .ok hosts →
        (∀ i < hosts.length, i ∈ c.started)
        ∧ (options.Sends → ∀ i < hosts.length, env.rsync i = .ok))
      ↔ ∀ hosts p, options.plan env = .ok (hosts, p) →
        NothingFails options env hosts p := by
  unfold Sesh.main
  cases hplan : options.plan env with
  | error abort =>
    refine iff_of_true (fun sched fuel c hmain hgreen => ?_) (fun hosts p h => by cases h)
    rw [← Option.some.inj hmain] at hgreen
    rcases List.mem_append.mp hgreen with hmem | hmem
    · exact absurd hmem (options.not_green_prompted env)
    · exact absurd (ErrChunk.notice.inj (List.mem_singleton.mp hmem)).symm
        abort.line_ne_finishedLine
  | ok r =>
    obtain ⟨hosts, p⟩ := r
    obtain ⟨hhosts, hsends⟩ := SeshFlags.plan_eq_ok hplan
    have hright : (∀ hosts' p', Except.ok (hosts, p) = (.ok (hosts', p') : Except Abort _) →
        NothingFails options env hosts' p') ↔ NothingFails options env hosts p :=
      ⟨fun h => h hosts p rfl, fun h hosts' p' heq => by cases heq; exact h⟩
    rw [hright]
    simp only [hhosts, Except.ok.injEq, forall_eq', hsends]
    cases p with
    | send config =>
      have hsend : ∃ config', Plan.send config = .send config' := ⟨config, rfl⟩
      simp only [hsend, true_imp_iff]
      exact options.send_sound_iff env hosts config
    | debug text =>
      refine iff_of_true (fun sched fuel c hmain hgreen => ?_) trivial
      have hc : (options.prompted env).extend (utf8 text) [] [] = c := Option.some.inj hmain
      rw [← hc, Console.Green, Console.extend, List.append_nil] at hgreen
      exact absurd hgreen (options.not_green_prompted env)
    | run config =>
      have hno : ¬ ∃ config', Plan.run config = .send config' := by
        rintro ⟨config', h⟩
        cases h
      simp only [hno, false_imp_iff, and_true]
      exact options.run_sound_iff env hosts config

/-- An environment in which no directory can be made, and no transfer ends
well. -/
def failingEnv : MainEnv where
  readFile _ := .error []
  notExist _ := false
  getenv _ := []
  stdin := []
  stdinTerminal := false
  render cmd _ := cmd
  work _ _ := []
  nanosecond _ := 7
  mkdir _ := false
  disk := ⟨fun p => decide (IsFileName (lastSegment p)), fun _ => of_decide_eq_true⟩
  rsync _ := .fail "exit status 255".toList []

/-- The line is printed after a parallel run that started no task, and after
a transfer that failed. -/
theorem finished_after_failures :
    (∃ c, Sesh.main
        { SeshFlags.default with hostlist := "a".toList, parallel := true, cmd := ["ls".toList] }
        failingEnv ⟨fun _ _ => [], []⟩ 2 = some c
      ∧ c.Green ∧ 0 ∉ c.started)
    ∧ ∃ c, Sesh.main
        { SeshFlags.default with
          hostlist := "a".toList, src := "f".toList, destdir := "/tmp".toList }
        failingEnv ⟨fun _ _ => [], [.launch, .start 0, .finish 0, .wait]⟩ 0 = some c
      ∧ c.Green ∧ failingEnv.rsync 0 ≠ .ok := by
  refine ⟨⟨_, rfl, Console.green_notice _, List.not_mem_nil⟩, ⟨_, rfl, Console.green_notice _, ?_⟩⟩
  decide
