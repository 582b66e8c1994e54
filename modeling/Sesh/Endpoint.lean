import Sesh.ScpRun
import Sesh.ShellWords

/-!
# The endpoint of a host

Three functions reach a host on their own: `Task.Work` dials it, the login
of `--check` runs `ssh` (`Task.SysLogin`), and `ScpRun` runs `rsync` through
a shell. Each puts together the user, the host, the port and the key file in
its own way – an address, a text that is split at white space, a command
line of the shell – and this module reads what each of them says.

What `ssh` and `rsync` take from their arguments is not this program's to
say. They are parameters (`Programs`), and of their manuals only what the
results need is assumed (`Programs.Documented`): what a destination
`user@host` means to `ssh` and `user@host:path` to `rsync`, for names that are
portable in the sense of POSIX, and that `rsync` names no key file by itself.

The three agree only with the default port and without a key file, and with
portable names that is all it takes (`endpoints_agree_iff`): `SysLogin` leaves
out the port and `ScpRun` the key file. Neither protects what it puts in its
text; what becomes of other names is up to the programs, but with white space
in them the login goes wrong in any case (`Batch.Task.sysLoginArgs_eq_iff`).
-/

/-- **Who is reached, and how.** -/
structure Endpoint where
  user : GoString
  host : GoString
  port : GoString
  /-- The key files that are named. -/
  identities : List GoString
  deriving DecidableEq, Repr

/-! ## The task -/

/-- `Task`, the part of it that is not an output. -/
structure Batch.Task where
  user : GoString
  password : GoString
  port : GoString
  keyfile : GoString
  cmd : GoString
  host : GoString
  timeout : ℤ
  deriving DecidableEq, Repr

/-- `NewTask`. -/
def Batch.newTask (host user password keyfile cmd port : GoString) : Batch.Task where
  user := user
  password := password
  port := if port = [] then "22".toList else port
  keyfile := keyfile
  cmd := cmd
  host := host
  timeout := 5

/-- The task of a host. -/
def TaskArgs.task (config : TaskArgs) (host : GoString) : Batch.Task :=
  Batch.newTask host config.user config.password config.keyfile config.cmd config.port

/-! ## Dialling -/

/-- `net.SplitHostPort`: the host and the port of an address. -/
def splitHostPort (hostport : GoString) : Option (GoString × GoString) :=
  match Strings.lastCut ':' hostport with
  | none => none
  | some (host, port) =>
    if '[' ∈ port ∨ ']' ∈ port then none
    else if host.head? = some '[' then
      match Strings.cut ']' host.tail with
      | some (inner, []) => if '[' ∈ inner then none else some (inner, port)
      | _ => none
    else if ':' ∈ host ∨ '[' ∈ host ∨ ']' ∈ host then none
    else some (host, port)

namespace Batch.Task

variable (task : Batch.Task)

/-- The key files of a task: none, if the text is empty. -/
def identities : List GoString := if task.keyfile = [] then [] else [task.keyfile]

/-- **The endpoint `Work` dials.** -/
def workEndpoint : Option Endpoint :=
  (splitHostPort (task.host ++ ':' :: task.port)).map (fun hp =>
    ⟨task.user, hp.1, hp.2, task.identities⟩)

/-! ## Logging in -/

/-- The destination of a login. -/
def destination : GoString := task.user ++ '@' :: task.host

/-- The text `SysLogin` splits. -/
def sysLoginLine : GoString :=
  "ssh ".toList ++ task.destination
    ++ if task.keyfile = [] then [] else " -i ".toList ++ task.keyfile

/-- The arguments `SysLogin` passes to `ssh`. -/
def sysLoginArgs : List GoString := (Strings.fields task.sysLoginLine).tail

/-- The arguments a login should have: the destination, and an option for
each of a port that is not the default one and a key file. -/
def loginArgs : List GoString :=
  task.destination
    :: (if task.port = "22".toList then [] else ["-p".toList, task.port])
    ++ if task.keyfile = [] then [] else ["-i".toList, task.keyfile]

end Batch.Task

/-! ## Other programs -/

/-- The characters of portable names. -/
def portableChars : List Char :=
  "abcdefghijklmnopqrstuvwxyzABCDEFGHIJKLMNOPQRSTUVWXYZ0123456789._-".toList

/-- **A portable name**: letters, digits, dots, underscores and dashes, and no
dash in front. -/
structure PortableName (name : GoString) : Prop where
  ne_nil : name ≠ []
  chars : name ⊆ portableChars
  head_ne : name.head? ≠ some '-'

/-- A path of portable names. -/
def PortablePath (path : GoString) : Prop := path ⊆ '/' :: portableChars

instance (path : GoString) : Decidable (PortablePath path) :=
  inferInstanceAs (Decidable (path ⊆ '/' :: portableChars))

/-- **A file to send**: a portable path that is not an option. -/
structure SourceFile (source : GoString) : Prop where
  ne_nil : source ≠ []
  chars : PortablePath source
  head_ne : source.head? ≠ some '-'

/-- **The programs that are run**: the endpoint each reaches, by its arguments,
if it reaches one. -/
structure Programs where
  ssh : List GoString → Option Endpoint
  rsync : List GoString → Option Endpoint

/-- **What their manuals say**, as far as it is needed. -/
structure Programs.Documented (P : Programs) : Prop where
  /-- `ssh user@host`. -/
  ssh_destination : ∀ {user host}, PortableName user → PortableName host →
    P.ssh [user ++ '@' :: host] = some ⟨user, host, "22".toList, []⟩
  /-- `rsync -azh source user@host:path`, over the remote shell `ssh`. -/
  rsync_remote : ∀ {source user host path}, SourceFile source → PortableName user →
    PortableName host → PortablePath path →
    P.rsync ["-azh".toList, source, user ++ '@' :: host ++ ':' :: path]
      = some ⟨user, host, "22".toList, []⟩
  /-- A source alone is listed. -/
  rsync_source : ∀ {source}, SourceFile source → P.rsync ["-azh".toList, source] = none
  /-- A key file is named by the remote shell only. -/
  rsync_identities : ∀ {source dest e}, SourceFile source →
    P.rsync ["-azh".toList, source, dest] = some e → e.identities = []

/-- **The endpoint a command line denotes**, if it is one of `rsync`. -/
def Programs.lineEndpoint (P : Programs) (line : GoString) : Option Endpoint :=
  match Shell.words line with
  | some (prog :: args) => if prog = "rsync".toList then P.rsync args else none
  | _ => none

/-- **The three ways of reaching a host agree**, and a login has the
arguments it should have. -/
def EndpointsAgree (P : Programs) (config : TaskArgs) (host : GoString) : Prop :=
  (∃ e, (config.task host).workEndpoint = some e
    ∧ P.ssh (config.task host).sysLoginArgs = some e
    ∧ P.lineEndpoint (config.rsyncCommand host) = some e)
  ∧ (config.task host).sysLoginArgs = (config.task host).loginArgs

/-! ## The arguments of a login -/

namespace Batch.Task

variable {task : Batch.Task}

/-- The arguments of `SysLogin` are the fields of the destination, and of
the key file after its option. -/
theorem sysLoginArgs_eq :
    task.sysLoginArgs = Strings.fields task.destination
      ++ if task.keyfile = [] then [] else "-i".toList :: Strings.fields task.keyfile := by
  have hspace : Unicode.isSpace ' ' = true := by decide
  have hssh : Strings.fields "ssh".toList = ["ssh".toList] := by decide
  have hopt : Strings.fields "-i".toList = ["-i".toList] := by decide
  unfold sysLoginArgs sysLoginLine
  split
  · have hline : "ssh ".toList ++ task.destination ++ []
        = "ssh".toList ++ ' ' :: task.destination := List.append_nil _
    rw [hline, Strings.fields_append_cons _ _ hspace, hssh, List.append_nil]
    rfl
  · have hline : "ssh ".toList ++ task.destination ++ (" -i ".toList ++ task.keyfile)
        = "ssh".toList ++ ' ' :: (task.destination
          ++ ' ' :: ("-i".toList ++ ' ' :: task.keyfile)) := rfl
    rw [hline, Strings.fields_append_cons _ _ hspace, Strings.fields_append_cons _ _ hspace,
      Strings.fields_append_cons _ _ hspace, hssh, hopt]
    rfl

theorem destination_ne_nil : task.destination ≠ [] := by
  unfold destination
  exact List.append_ne_nil_of_right_ne_nil _ (List.cons_ne_nil _ _)

theorem noSpace_destination :
    NoSpace task.destination ↔ NoSpace task.user ∧ NoSpace task.host := by
  rw [destination, noSpace_append, noSpace_cons]
  exact and_congr_right fun _ => and_iff_right (by decide)

/-- With the default port and no key file, a login has its destination
only. -/
theorem loginArgs_eq_singleton (hport : task.port = "22".toList) (hkey : task.keyfile = []) :
    task.loginArgs = [task.destination] := by
  rw [loginArgs, if_pos hport, if_pos hkey]
  rfl

/-- **When a login has the arguments it should have**: the port is the
default one, and there is no white space in the user, the host or the key
file. -/
theorem sysLoginArgs_eq_iff :
    task.sysLoginArgs = task.loginArgs
      ↔ task.port = "22".toList
        ∧ NoSpace task.user ∧ NoSpace task.host ∧ NoSpace task.keyfile := by
  have hfields : NoSpace task.destination → NoSpace task.keyfile →
      task.sysLoginArgs = task.destination
        :: if task.keyfile = [] then [] else ["-i".toList, task.keyfile] := by
    intro hdest hkey
    rw [sysLoginArgs_eq, Strings.fields_of_noSpace destination_ne_nil hdest]
    split
    · rfl
    · rw [Strings.fields_of_noSpace ‹_› hkey]
      rfl
  constructor
  · intro h
    have hmem : ∀ a ∈ task.loginArgs, NoSpace a := by
      rw [← h]
      exact fun a ha => Strings.noSpace_of_mem_fields (List.mem_of_mem_tail ha)
    have hdest : NoSpace task.destination := hmem _ List.mem_cons_self
    have hkey : NoSpace task.keyfile := by
      by_cases hnil : task.keyfile = []
      · rw [hnil]
        exact noSpace_nil
      · refine hmem _ ?_
        unfold loginArgs
        rw [if_neg hnil]
        exact List.mem_append_right _ (by simp)
    obtain ⟨huser, hhost⟩ := noSpace_destination.mp hdest
    refine ⟨?_, huser, hhost, hkey⟩
    rw [hfields hdest hkey, loginArgs, List.cons_append] at h
    -- the two differ by the option of the port
    have hport := List.append_cancel_right
      ((List.nil_append _).trans (List.cons.inj h).2)
    by_contra hne
    rw [if_neg hne] at hport
    cases hport
  · rintro ⟨hport, huser, hhost, hkey⟩
    rw [hfields (noSpace_destination.mpr ⟨huser, hhost⟩) hkey, loginArgs, if_pos hport]
    rfl

end Batch.Task

/-! ## What an address denotes -/

theorem splitHostPort_of_notMem {host port : GoString}
    (hhost : ':' ∉ host ∧ '[' ∉ host ∧ ']' ∉ host)
    (hport : ':' ∉ port ∧ '[' ∉ port ∧ ']' ∉ port) :
    splitHostPort (host ++ ':' :: port) = some (host, port) := by
  have hhead : host.head? ≠ some '[' := fun h => hhost.2.1 (List.mem_of_mem_head? h)
  rw [splitHostPort, Strings.lastCut_eq_some_iff.mpr ⟨rfl, hport.1⟩]
  simp only [hport.2.1, hport.2.2, hhead, hhost.1, hhost.2.1, hhost.2.2, or_self, if_false]

/-! ## Portable names -/

theorem PortableName.notMem {name : GoString} (hname : PortableName name) {c : Char}
    (hc : c ∉ portableChars) : c ∉ name :=
  fun hmem => hc (hname.chars hmem)

theorem PortableName.noSpace {name : GoString} (hname : PortableName name) : NoSpace name := by
  have hchars : portableChars.all (fun c => decide (Unicode.isSpace c = false)) = true := by decide
  intro c hc
  exact of_decide_eq_true (List.all_eq_true.mp hchars c (hname.chars hc))

/-- A portable path stands for itself in a shell. -/
theorem PortablePath.allPlain {path : GoString} (hpath : PortablePath path) :
    Shell.AllPlain path := by
  have hchars : ('/' :: portableChars).all (fun c => decide (Shell.Plain c)) = true := by decide
  intro c hc
  exact of_decide_eq_true (List.all_eq_true.mp hchars c (hpath hc))

theorem PortableName.path {name : GoString} (hname : PortableName name) : PortablePath name :=
  fun _ hc => List.mem_cons_of_mem _ (hname.chars hc)

/-- A text of which a portable path is the first part is no comment, and no
home directory. -/
theorem PortablePath.head_ne {path : GoString} (hpath : PortablePath path) (hne : path ≠ [])
    (rest : GoString) :
    (path ++ rest).head? ≠ some '#' ∧ (path ++ rest).head? ≠ some '~' := by
  have hnot : ∀ c, c ∉ '/' :: portableChars → path.head? ≠ some c :=
    fun c hc hhead => hc (hpath (List.mem_of_mem_head? hhead))
  rw [List.head?_append_of_ne_nil _ hne]
  exact ⟨hnot '#' (by decide), hnot '~' (by decide)⟩

theorem SourceFile.isWord {source : GoString} (hsrc : SourceFile source) :
    Shell.IsWord source := by
  have hhead := hsrc.chars.head_ne hsrc.ne_nil []
  rw [List.append_nil] at hhead
  exact ⟨hsrc.ne_nil, hsrc.chars.allPlain, hhead.1, hhead.2⟩

/-! ## The command line of a transfer -/

namespace TaskArgs

variable {config : TaskArgs} {host : GoString}

variable (config host) in
/-- The destination of a transfer, the last word of its command line. -/
def target : GoString := config.user ++ '@' :: host ++ ':' :: config.dest

theorem portablePath_dest (hdest : PortablePath config.destdir) : PortablePath config.dest := by
  unfold dest
  split
  · exact hdest
  · intro c hc
    rcases List.mem_append.mp hc with hc | hc
    · exact hdest hc
    · rw [List.mem_singleton.mp hc]
      exact List.mem_cons_self

/-- With the default port, the words of a transfer are those of its
destination, after the source. -/
theorem words_rsyncCommand (hport : config.remoteShell = [])
    (hsrc : SourceFile config.source) :
    Shell.words (config.rsyncCommand host)
      = (Shell.words (config.target host)).map
        (fun ws => "rsync".toList :: "-azh".toList :: config.source :: ws) := by
  have hblank : Shell.blank ' ' = true := rfl
  have hrsync : Shell.IsWord "rsync".toList := by decide
  have hopts : Shell.IsWord "-azh".toList := by decide
  have hline : config.rsyncCommand host
      = "rsync".toList ++ ' ' :: ("-azh".toList ++ ' ' :: ' '
        :: (config.source ++ ' ' :: config.target host)) := by
    unfold rsyncCommand target
    rw [hport]
    simp only [List.append_nil, List.append_assoc, List.cons_append]
    rfl
  rw [hline, Shell.words_word_blank hrsync hblank, Shell.words_word_blank hopts hblank,
    Shell.words_blank hblank, Shell.words_word_blank hsrc.isWord hblank, Option.map_map,
    Option.map_map]
  rfl

/-- **The endpoint of a transfer with the default port.** -/
theorem lineEndpoint_rsyncCommand (P : Programs) (hport : config.remoteShell = [])
    (hsrc : SourceFile config.source) :
    P.lineEndpoint (config.rsyncCommand host)
      = (Shell.words (config.target host)).bind
        (fun ws => P.rsync ("-azh".toList :: config.source :: ws)) := by
  rw [Programs.lineEndpoint, words_rsyncCommand hport hsrc]
  cases Shell.words (config.target host) <;> rfl

theorem task_port_eq_iff :
    (config.task host).port = "22".toList ↔ config.port = [] ∨ config.port = "22".toList := by
  unfold task Batch.newTask
  dsimp only
  split
  · exact iff_of_true rfl (Or.inl ‹_›)
  · exact (or_iff_right ‹_›).symm

theorem remoteShell_eq_nil (h : config.port = [] ∨ config.port = "22".toList) :
    config.remoteShell = [] :=
  if_neg fun hne => h.elim hne.1 hne.2

theorem forall_mem_target {P : Char → Prop} (hat : P '@') (hcolon : P ':') :
    (∀ c ∈ config.target host, P c)
      ↔ (∀ c ∈ config.user, P c) ∧ (∀ c ∈ host, P c) ∧ ∀ c ∈ config.dest, P c := by
  simp only [target, List.forall_mem_append, List.forall_mem_cons, hat, hcolon, true_and, and_assoc]

/-- Portable names are part of one word. -/
theorem isWord_target (hu : PortableName config.user) (hh : PortableName host)
    (hdest : PortablePath config.destdir) : Shell.IsWord (config.target host) := by
  have hhead := hu.path.head_ne hu.ne_nil ('@' :: host ++ ':' :: config.dest)
  rw [← List.append_assoc] at hhead
  refine ⟨?_, ?_, hhead.1, hhead.2⟩
  · unfold target
    exact List.append_ne_nil_of_right_ne_nil _ (List.cons_ne_nil _ _)
  · exact (forall_mem_target (by decide) (by decide)).mpr
      ⟨hu.path.allPlain, hh.path.allPlain, (portablePath_dest hdest).allPlain⟩

end TaskArgs

/-! ## Agreement -/

theorem blank_of_noSpace {s : GoString} (hs : NoSpace s) : ∀ c ∈ s, Shell.blank c = false := by
  intro c hc
  have hspace := hs c hc
  by_contra hblank
  rw [Bool.not_eq_false, Shell.blank, Bool.or_eq_true, decide_eq_true_eq,
    decide_eq_true_eq] at hblank
  rcases hblank with rfl | rfl <;> exact absurd hspace (by decide)

namespace TaskArgs

variable {P : Programs} (hP : P.Documented) {config : TaskArgs} {host : GoString}
include hP

/-- **A transfer with the default port names no key file**, if no white space
is in the user and the host. -/
theorem identities_of_transfer (hsrc : SourceFile config.source)
    (hdest : PortablePath config.destdir) (hport : config.remoteShell = [])
    (huser : NoSpace config.user) (hhost : NoSpace host) {e : Endpoint}
    (h : P.lineEndpoint (config.rsyncCommand host) = some e) : e.identities = [] := by
  have hblank : ∀ c ∈ config.target host, Shell.blank c = false :=
    (forall_mem_target (by decide) (by decide)).mpr
      ⟨blank_of_noSpace huser, blank_of_noSpace hhost,
        fun c hc => ((portablePath_dest hdest).allPlain c hc).1⟩
  rw [lineEndpoint_rsyncCommand P hport hsrc] at h
  obtain ⟨ws, hwords, h⟩ := Option.bind_eq_some_iff.mp h
  rcases Shell.words_of_no_blank hblank hwords with rfl | ⟨w, rfl, -⟩
  · rw [hP.rsync_source hsrc] at h
    cases h
  · exact hP.rsync_identities hsrc h

/-- Where the three agree, the port is the default one, and there is no key
file. -/
theorem of_agree (hsrc : SourceFile config.source) (hdest : PortablePath config.destdir)
    (h : EndpointsAgree P config host) :
    (config.port = [] ∨ config.port = "22".toList) ∧ config.keyfile = []
      ∧ NoSpace config.user ∧ NoSpace host := by
  obtain ⟨⟨e, hwork, -, hsend⟩, hargs⟩ := h
  obtain ⟨hport, huser, hhost, -⟩ := Batch.Task.sysLoginArgs_eq_iff.mp hargs
  have hport' := task_port_eq_iff.mp hport
  have hids := identities_of_transfer hP hsrc hdest (remoteShell_eq_nil hport') huser hhost hsend
  obtain ⟨⟨h, p⟩, -, rfl⟩ := Option.map_eq_some_iff.mp hwork
  refine ⟨hport', ?_, huser, hhost⟩
  by_contra hne
  rw [show (config.task host).identities = [config.keyfile] from if_neg hne] at hids
  cases hids

/-- Portable names are reached alike. -/
theorem agree_of_portable (hsrc : SourceFile config.source) (hdest : PortablePath config.destdir)
    (hu : PortableName config.user) (hh : PortableName host)
    (hport : config.port = [] ∨ config.port = "22".toList) (hkey : config.keyfile = []) :
    EndpointsAgree P config host := by
  have hport' : (config.task host).port = "22".toList := task_port_eq_iff.mpr hport
  have hids : (config.task host).identities = [] := if_pos hkey
  have hnil : NoSpace config.keyfile := by
    rw [hkey]
    exact noSpace_nil
  have hargs : (config.task host).sysLoginArgs = (config.task host).loginArgs :=
    Batch.Task.sysLoginArgs_eq_iff.mpr ⟨hport', hu.noSpace, hh.noSpace, hnil⟩
  have hlogin := Batch.Task.loginArgs_eq_singleton hport' hkey
  refine ⟨⟨⟨config.user, host, "22".toList, []⟩, ?_, ?_, ?_⟩, hargs⟩
  · rw [Batch.Task.workEndpoint, hport', hids]
    exact congrArg (Option.map _) (splitHostPort_of_notMem
      ⟨hh.notMem (by decide), hh.notMem (by decide), hh.notMem (by decide)⟩ (by decide))
  · rw [hargs, hlogin]
    exact hP.ssh_destination hu hh
  · rw [lineEndpoint_rsyncCommand P (remoteShell_eq_nil hport) hsrc,
      Shell.words_word (isWord_target hu hh hdest), Option.bind_some]
    exact hP.rsync_remote hsrc hu hh (portablePath_dest hdest)

end TaskArgs

/-- Programs that know one form of a destination each. -/
def plainPrograms : Programs where
  ssh args :=
    match args with
    | [dest] => (Strings.lastCut '@' dest).map (fun uh => ⟨uh.1, uh.2, "22".toList, []⟩)
    | _ => none
  rsync args :=
    match args with
    | [_, _, dest] => (Strings.cut ':' dest).bind (fun mp =>
        (Strings.lastCut '@' mp.1).map (fun uh => ⟨uh.1, uh.2, "22".toList, []⟩))
    | _ => none

theorem plainPrograms_documented : plainPrograms.Documented where
  ssh_destination {user host} _ hh := by
    have hcut : Strings.lastCut '@' (user ++ '@' :: host) = some (user, host) :=
      Strings.lastCut_eq_some_iff.mpr ⟨rfl, hh.notMem (by decide)⟩
    exact congrArg (Option.map _) hcut
  rsync_remote {source user host path} _ hu hh _ := by
    have hcolon : ':' ∉ user ++ '@' :: host := by
      rw [List.mem_append, List.mem_cons, not_or, not_or]
      exact ⟨hu.notMem (by decide), by decide, hh.notMem (by decide)⟩
    have hcut : Strings.lastCut '@' (user ++ '@' :: host) = some (user, host) :=
      Strings.lastCut_eq_some_iff.mpr ⟨rfl, hh.notMem (by decide)⟩
    show (Strings.cut ':' (user ++ '@' :: host ++ ':' :: path)).bind _ = _
    rw [Strings.cut_append_cons hcolon, Option.bind_some, hcut]
    rfl
  rsync_source _ := rfl
  rsync_identities {source dest e} _ h := by
    obtain ⟨mp, -, h⟩ := Option.bind_eq_some_iff.mp h
    obtain ⟨uh, -, rfl⟩ := Option.map_eq_some_iff.mp h
    rfl

/-- A configuration that sends a file to `/tmp`. -/
def sendArgs (user keyfile port : GoString) : TaskArgs :=
  ⟨user, [], keyfile, port, [], [], 5, false, "f".toList, "/tmp".toList⟩
