import Sesh.AuthKeys

/-!
# The known hosts

Before it copies files, the program asks for the keys of the hosts it does
not know yet (`BuildKnownHosts`): a script runs `ssh-keyscan` on them, and
adds what it prints to the file of the known hosts. A host counts as known if
its name is anywhere in the text of that file, be it a part of another name,
of a key or of a comment.

The script is read and run by the shell of `Sesh.ShellScript`, on files that
are their text. A host is put into it as it is, so what is said is about hosts
that a shell reads as one word and `ssh-keyscan` not as an option
(`Scannable`): of `#b` or `a;b` only a part would be scanned.

A line of the file is meant for the hosts its first field names, with commas
between them (`knownNames`). Three things have to hold for the call to leave
an entry for each host, and they are all there is (`known_hosts_scanned_iff`):
a host in the text is a name of it, a host can be written as a name, and what
is added does not spoil the last line. The last is only a question where that
line has no newline at its end (`appendable_of_ended`), since the first
entry is then added to it.
-/

/-! ## The call -/

/-- The hosts whose names are not in the text. -/
def unknownHosts (content : GoString) (hosts : List GoString) : List GoString :=
  hosts.filter (fun host => !Strings.contains content host)

namespace KnownHosts

/-- The file of the known hosts. -/
def filename (home : GoString) : GoString := home ++ "/.ssh/known_hosts".toList

/-- The directory of the file. -/
def dirname (home : GoString) : GoString := home ++ "/.ssh".toList

/-- A line of the script that makes what is not there: the words of the
command, and the mode that is set. -/
def makeLine (p : GoString) (make : List GoString) (mode : GoString) : GoString :=
  "[ ! -e ".toList ++ p ++ " ] && ".toList ++ [' '].intercalate make ++ ' ' :: p
    ++ " && chmod ".toList ++ mode ++ ' ' :: p ++ ['\n']

/-- The line of the script that scans hosts. -/
def scanLine (file : GoString) (hosts : List GoString) : GoString :=
  "ssh-keyscan ".toList ++ [' '].intercalate hosts ++ " >> ".toList ++ file ++ ['\n']

/-- The script. -/
def script (home : GoString) (hosts : List GoString) : GoString :=
  '\n' :: (makeLine (dirname home) ["mkdir".toList, "-p".toList] "700".toList
    ++ (makeLine (filename home) ["touch".toList] "644".toList
    ++ scanLine (filename home) hosts))

end KnownHosts

/-- `BuildKnownHosts`: the script it runs, if any. A file that cannot be read
is taken for an empty one. -/
def buildKnownHosts (readFile : ReadFile) (home : GoString) (hosts : List GoString) :
    Option GoString :=
  let content :=
    match readFile (KnownHosts.filename home) with
    | .ok content => content
    | .error _ => []
  let notExists := unknownHosts content hosts
  if notExists = [] then none else some (KnownHosts.script home notExists)

/-! ## The script -/

namespace KnownHosts

open Shell

/-- A command that makes a file. -/
def makeFile (make : List GoString) (p : GoString) : Simple :=
  ⟨(make ++ [p]).map plainWord, none⟩

/-- The command that scans hosts. -/
def keyscan (file : GoString) (hosts : List GoString) : Simple :=
  ⟨("ssh-keyscan".toList :: hosts).map plainWord, some ⟨true, plainWord file⟩⟩

/-- The tokens of a line that makes what is not there. -/
def makeTokens (p : GoString) (make : List GoString) (mode : GoString) : List Token :=
  commandTokens (testMissing (plainWord p))
    ++ .andIf :: (commandTokens (makeFile make p)
    ++ .andIf :: commandTokens (chmodTo mode (plainWord p)))

/-- The tokens of the line that scans hosts. -/
def scanTokens (file : GoString) (hosts : List GoString) : List Token :=
  commandTokens (keyscan file hosts) ++ [.append, .word (plainWord file)]

theorem lexFrom_makeLine {p : GoString} (hp : IsWord p) {make : List GoString}
    (hmake : ∀ w ∈ make, IsWord w) (hne : make ≠ []) {mode : GoString} (hmode : IsWord mode)
    (rest : GoString) :
    Lexer.clean.lexFrom (makeLine p make mode ++ rest)
      = (Lexer.clean.lexFrom rest).map (fun u =>
        (makeTokens p make mode ++ .newline :: u.1, u.2)) := by
  have htext : makeLine p make mode ++ rest
      = "[ ! -e ".toList ++ (p ++ ' ' :: ("] && ".toList ++ ([' '].intercalate make ++ ' '
        :: (p ++ ' ' :: ("&& chmod ".toList ++ (mode ++ ' ' :: (p ++ '\n' :: rest))))))) := by
    unfold makeLine
    rw [List.append_assoc, List.append_assoc, List.append_assoc, List.append_assoc,
      List.append_assoc, List.append_assoc, List.append_assoc, List.append_assoc]
    rfl
  have hguard : Lexer.clean.lexFrom "[ ! -e ".toList
      = some (["[".toList, "!".toList, "-e".toList].map (fun w => .word (plainWord w)),
        .clean) := by
    decide +kernel
  have hclose : Lexer.clean.lexFrom "] && ".toList
      = some ([.word (plainWord "]".toList), .andIf], .clean) := by
    decide +kernel
  have hmodes : Lexer.clean.lexFrom "&& chmod ".toList
      = some ([.andIf, .word (plainWord "chmod".toList)], .clean) := by
    decide +kernel
  rw [htext, Lexer.lexFrom_piece hguard, Lexer.lexFrom_word_blank hp, Lexer.lexFrom_piece hclose,
    Lexer.lexFrom_words_blank hmake hne, Lexer.lexFrom_word_blank hp, Lexer.lexFrom_piece hmodes,
    Lexer.lexFrom_word_blank hmode, Lexer.lexFrom_word_newline hp]
  simp only [Option.map_map]
  refine congrArg (fun f => Option.map f _) (funext fun u => ?_)
  simp [makeTokens, commandTokens, testMissing, makeFile, chmodTo, plainWord]

theorem lexFrom_scanLine {file : GoString} (hfile : IsWord file) {hosts : List GoString}
    (hhosts : ∀ h ∈ hosts, IsWord h) (hne : hosts ≠ []) :
    Lexer.clean.lexFrom (scanLine file hosts)
      = some (scanTokens file hosts ++ [.newline], .clean) := by
  have htext : scanLine file hosts = "ssh-keyscan ".toList
      ++ ([' '].intercalate hosts ++ ' ' :: (">> ".toList ++ (file ++ ['\n']))) := by
    unfold scanLine
    rw [List.append_assoc, List.append_assoc, List.append_assoc]
    rfl
  have hscan : Lexer.clean.lexFrom "ssh-keyscan ".toList
      = some ([.word (plainWord "ssh-keyscan".toList)], .clean) := by
    decide +kernel
  have hinto : Lexer.clean.lexFrom ">> ".toList = some ([.append], .clean) := by
    decide +kernel
  rw [htext, Lexer.lexFrom_piece hscan, Lexer.lexFrom_words_blank hhosts hne,
    Lexer.lexFrom_piece hinto, Lexer.lexFrom_word_newline hfile]
  simp [scanTokens, commandTokens, keyscan, plainWord, Lexer.lexFrom]

theorem parseLine_makeTokens (p : GoString) (make : List GoString) (mode : GoString) :
    parseLine .andIf [] none (makeTokens p make mode)
      = some (makeMissing (plainWord p) (makeFile make p) mode) := by
  have hne : (makeFile make p).words ≠ [] := by
    simp [makeFile]
  have hmake : parseLine .andIf [] none (commandTokens (makeFile make p)
      ++ .andIf :: commandTokens (chmodTo mode (plainWord p)))
        = some [(.andIf, makeFile make p), (.andIf, chmodTo mode (plainWord p))] := by
    rw [commandTokens, parseLine_words, List.nil_append, parseLine, if_neg hne]
    rfl
  show (parseLine .andIf [] none (commandTokens (makeFile make p)
    ++ .andIf :: commandTokens (chmodTo mode (plainWord p)))).map
      (fun cs => (.andIf, testMissing (plainWord p)) :: cs) = _
  rw [hmake]
  rfl

theorem parseLine_scanTokens (file : GoString) (hosts : List GoString) :
    parseLine .andIf [] none (scanTokens file hosts) = some [(.andIf, keyscan file hosts)] := by
  rw [scanTokens, commandTokens, parseLine_words]
  rfl

/-- The lines a shell reads. -/
def lines (home : GoString) (hosts : List GoString) : List Line :=
  [makeMissing (plainWord (dirname home)) (mkdirAt (plainWord (dirname home))) "700".toList,
    makeMissing (plainWord (filename home)) (touchAt (plainWord (filename home))) "644".toList,
    [(.andIf, keyscan (filename home) hosts)]]

section

variable {home : GoString} (hhome : IsWord home) {hosts : List GoString}
  (hhosts : ∀ h ∈ hosts, IsWord h) (hne : hosts ≠ [])

include hhome hhosts hne

/-- The tokens of the script. -/
theorem tokens_script :
    tokens (script home hosts) = some
      (.newline :: (makeTokens (dirname home) ["mkdir".toList, "-p".toList] "700".toList
        ++ .newline :: (makeTokens (filename home) ["touch".toList] "644".toList
        ++ .newline :: (scanTokens (filename home) hosts ++ [.newline])))) := by
  have hdir : IsWord (dirname home) := hhome.append (by decide)
  have hfile : IsWord (filename home) := hhome.append (by decide)
  have hnewline : ∀ s, Lexer.clean.lexFrom ('\n' :: s)
      = (Lexer.clean.lexFrom s).map (fun u => (.newline :: u.1, u.2)) := fun s => rfl
  rw [tokens, script, hnewline, lexFrom_makeLine hdir (by decide) (by decide) (by decide),
    lexFrom_makeLine hfile (by decide) (by decide) (by decide), lexFrom_scanLine hfile hhosts hne]
  show some (_ ++ []) = _
  rw [List.append_nil]

/-- **What a shell reads**: the directory and the file are made where they
are not there, and the hosts are scanned, the output going to the end of the
file. -/
theorem parse_script : parse (script home hosts) = some (lines home hosts) := by
  have hmake : ∀ p make mode, Token.newline ∉ makeTokens p make mode := by
    intro p make mode
    simp [makeTokens, commandTokens]
  have hscan : ∀ file, Token.newline ∉ scanTokens file hosts := by
    intro file
    simp [scanTokens, commandTokens]
  have hsplit : ∀ dir file : List Token, Token.newline ∉ dir → Token.newline ∉ file →
      (.newline :: (dir ++ .newline :: (file ++ .newline
        :: (scanTokens (filename home) hosts ++ [.newline]))) : List Token).splitOn .newline
        = [[], dir, file, scanTokens (filename home) hosts, []] := by
    intro dir file hdir hfile
    show ([] ++ Token.newline :: _).splitOn _ = _
    rw [List.splitOn_append_cons_self, List.splitOn_append_cons_self,
      List.splitOn_append_cons_self, List.splitOn_append_cons_self,
      List.splitOn_eq_singleton hdir, List.splitOn_eq_singleton hfile,
      List.splitOn_eq_singleton (hscan _), List.splitOn_nil]
    rfl
  rw [parse, tokens_script hhome hhosts hne, Option.bind_eq_bind, Option.bind_some,
    hsplit _ _ (hmake _ _ _) (hmake _ _ _)]
  show ([makeTokens (dirname home) _ _, makeTokens (filename home) _ _,
    scanTokens (filename home) hosts].mapM (parseLine .andIf [] none)) = _
  rw [List.mapM_cons, List.mapM_cons, List.mapM_cons, parseLine_makeTokens, parseLine_makeTokens,
    parseLine_scanTokens]
  rfl

end

example : buildKnownHosts (fun _ => .ok "a ssh-rsa K\n".toList) "/root".toList
    ["a".toList, "b".toList, "c".toList]
      = some ("\n[ ! -e /root/.ssh ] && mkdir -p /root/.ssh && chmod 700 /root/.ssh\n".toList
        ++ "[ ! -e /root/.ssh/known_hosts ] && touch /root/.ssh/known_hosts".toList
        ++ " && chmod 644 /root/.ssh/known_hosts\n".toList
        ++ "ssh-keyscan b c >> /root/.ssh/known_hosts\n".toList) := by
  decide +kernel

end KnownHosts

/-! ## Names -/

/-- The names of a line: those of its first field, with commas between
them. -/
def lineNames (line : GoString) : List GoString :=
  match Runs.tokens Shell.blank line with
  | [] => []
  | field :: _ => field.splitOn ','

/-- **The hosts a text has lines for.** -/
def knownNames (content : GoString) : List GoString :=
  (content.splitOn '\n').flatMap lineNames

example : knownNames "a,b ssh-rsa K\n\n c ssh-rsa K".toList
    = ["a".toList, "b".toList, "c".toList] := by decide +kernel

/-- A text that can be a name. -/
def Listable (h : GoString) : Prop :=
  ∀ c ∈ h, Shell.blank c = false ∧ c ≠ ',' ∧ c ≠ '\n'

instance : DecidablePred Listable :=
  fun _ => List.decidableBAll (fun c => Shell.blank c = false ∧ c ≠ ',' ∧ c ≠ '\n') _

/-- A name stands in the first field of a line. -/
theorem mem_lineNames {line h : GoString} (hh : h ∈ lineNames line) :
    ∃ field ∈ Runs.tokens Shell.blank line, h ∈ field.splitOn ',' := by
  unfold lineNames at hh
  split at hh
  · exact absurd hh List.not_mem_nil
  · rename_i field fields htokens
    exact ⟨field, htokens ▸ List.mem_cons_self, hh⟩

/-- A name stands in the text. -/
theorem infix_of_mem_knownNames {content h : GoString} (hh : h ∈ knownNames content) :
    h <:+: content := by
  obtain ⟨line, hline, hmem⟩ := List.mem_flatMap.mp hh
  obtain ⟨field, hfield, hname⟩ := mem_lineNames hmem
  exact (Runs.infix_of_mem_splitOn hname).trans
    ((Runs.infix_of_mem_tokens hfield).trans (Runs.infix_of_mem_splitOn hline))

/-- What is a name can be one. -/
theorem listable_of_mem_knownNames {content h : GoString} (hh : h ∈ knownNames content) :
    Listable h := by
  obtain ⟨line, hline, hmem⟩ := List.mem_flatMap.mp hh
  obtain ⟨field, hfield, hname⟩ := mem_lineNames hmem
  intro c hc
  have hcf : c ∈ field := (Runs.infix_of_mem_splitOn hname).subset hc
  refine ⟨Runs.free_of_mem_tokens hfield c hcf, ?_, ?_⟩
  · rintro rfl
    exact Runs.notMem_of_mem_splitOn hname hc
  · rintro rfl
    exact Runs.notMem_of_mem_splitOn hline (Runs.mem_of_mem_tokens hfield hcf)

theorem knownNames_of_notMem {l : GoString} (hl : '\n' ∉ l) : knownNames l = lineNames l := by
  rw [knownNames, List.splitOn_eq_singleton hl, List.flatMap_singleton]

theorem knownNames_nil : knownNames [] = [] := by
  decide

theorem knownNames_append_newline (p q : GoString) :
    knownNames (p ++ '\n' :: q) = knownNames p ++ knownNames q := by
  unfold knownNames
  rw [List.splitOn_append_cons_self, List.flatMap_append]

/-- What follows a blank after the first field is no name. -/
theorem lineNames_append_blank {line : GoString} (h : Runs.tokens Shell.blank line ≠ [])
    (rest : GoString) : lineNames (line ++ ' ' :: rest) = lineNames line := by
  obtain ⟨field, fields, htokens⟩ := List.exists_cons_of_ne_nil h
  unfold lineNames
  rw [Runs.tokens_append_cons line rest (by decide), htokens]
  rfl

/-- A name that is added to a text, and what follows it in its line. -/
theorem knownNames_append_blank (content : GoString) {u key : GoString} (hu : Listable u)
    (hne : u ≠ []) (hkey : '\n' ∉ key) :
    knownNames (content ++ u ++ ' ' :: key) = knownNames (content ++ u) := by
  have hu' : '\n' ∉ u := fun hmem => (hu _ hmem).2.2 rfl
  have hline : ∀ l : GoString, '\n' ∉ l →
      knownNames (l ++ u ++ ' ' :: key) = knownNames (l ++ u) := by
    intro l hl
    have hlu : '\n' ∉ l ++ u := fun hmem => (List.mem_append.mp hmem).elim hl hu'
    have hlong : '\n' ∉ l ++ u ++ ' ' :: key := by
      simpa [hl, hu'] using hkey
    obtain ⟨c, hc⟩ := List.exists_mem_of_ne_nil u hne
    obtain ⟨w, hw, -⟩ := Runs.exists_mem_tokens (List.mem_append_right l hc) (hu c hc).1
    rw [knownNames_of_notMem hlong, knownNames_of_notMem hlu,
      lineNames_append_blank (List.ne_nil_of_mem hw)]
  by_cases hmem : '\n' ∈ content
  · -- only the last line goes on
    obtain ⟨p, r, hcut⟩ := Strings.exists_lastCut hmem
    obtain ⟨rfl, hr⟩ := Strings.lastCut_eq_some_iff.mp hcut
    rw [List.append_assoc, List.append_assoc, List.append_assoc, List.cons_append,
      List.cons_append, knownNames_append_newline, knownNames_append_newline,
      ← List.append_assoc, hline r hr]
  · exact hline content hmem

/-- A line of one name. -/
theorem knownNames_of_listable {u : GoString} (hu : Listable u) (hne : u ≠ []) :
    knownNames u = [u] := by
  have hnewline : '\n' ∉ u := fun hmem => (hu _ hmem).2.2 rfl
  have hcomma : ',' ∉ u := fun hmem => (hu _ hmem).2.1 rfl
  rw [knownNames_of_notMem hnewline, lineNames,
    Runs.tokens_of_free hne fun c hc => (hu c hc).1]
  exact List.splitOn_eq_singleton hcomma

/-! ## Running the script -/

/-- `ioutil.ReadFile`. -/
def readFileOf (fs : Shell.Files Char) : ReadFile := fun p =>
  match fs p with
  | some (.file text) => .ok text
  | some .dir => .error ("read ".toList ++ p ++ ": is a directory".toList)
  | none => .error ("open ".toList ++ p ++ ": no such file or directory".toList)

/-- The text of a file, empty where there is none. -/
def textAt (fs : Shell.Files Char) (p : GoString) : GoString :=
  match fs p with
  | some (.file text) => text
  | _ => []

/-- **`ssh-keyscan`**: what it prints for a host, after its name. -/
structure Keyscan where
  key : GoString → GoString
  newline_notMem : ∀ h, '\n' ∉ key h

namespace Keyscan

variable (scan : Keyscan)

/-- The line that is printed for a host. -/
def entry (h : GoString) : GoString := h ++ ' ' :: scan.key h ++ ['\n']

/-- The commands of a system that has `ssh-keyscan`. Options are not
understood. -/
def command (fs : Shell.Files Char) (cmd : GoString) (args : List GoString) :
    Option (Shell.Result Char) :=
  if cmd = "ssh-keyscan".toList then
    if ∀ a ∈ args, a.head? ≠ some '-' then some ⟨true, args.flatMap scan.entry, fs⟩ else none
  else Shell.fileCommand fs cmd args

/-- The system the script is run on. -/
def system (home : GoString) : Shell.System Char where
  home := home
  command := scan.command
  fileCommand_eq {fs cmd args r} hr := by
    have hscan : cmd ≠ "ssh-keyscan".toList := by
      rintro rfl
      cases hr
    rw [command, if_neg hscan, hr]

/-- **The call**: the files after it, `none` where the script is not
understood. -/
def call (home : GoString) (hosts : List GoString) (fs : Shell.Files Char) :
    Option (Shell.Files Char) :=
  match buildKnownHosts (readFileOf fs) home hosts with
  | none => some fs
  | some script => (scan.system home).run script fs

/-- The arguments of a command, if it is `ssh-keyscan`. -/
def argsOf (home : GoString) (c : Shell.Simple) : List GoString :=
  match c.words.map (scan.system home).expand with
  | [] => []
  | cmd :: args => if cmd = "ssh-keyscan".toList then args else []

/-- **The hosts on the command line of `ssh-keyscan`**, as a shell reads the
script. -/
def commandLine (home : GoString) (hosts : List GoString) (fs : Shell.Files Char) :
    Option (List GoString) :=
  match buildKnownHosts (readFileOf fs) home hosts with
  | none => some []
  | some script => (Shell.parse script).map (fun ls =>
      ls.flatten.flatMap (fun oc => scan.argsOf home oc.2))

end Keyscan

/-- **The hosts that are not known are scanned, and no others**, and all have
a line then. -/
structure ScansUnknown (scan : Keyscan) (home : GoString) (hosts : List GoString)
    (fs : Shell.Files Char) : Prop where
  /-- What is scanned. -/
  scanned : ∃ args, scan.commandLine home hosts fs = some args
    ∧ ∀ h ∈ hosts, h ∈ args ↔ h ∉ knownNames (textAt fs (KnownHosts.filename home))
  /-- Each host has a line, and what was there is kept. -/
  listed : ∃ fs', scan.call home hosts fs = some fs'
    ∧ (∀ h ∈ hosts, h ∈ knownNames (textAt fs' (KnownHosts.filename home)))
    ∧ textAt fs (KnownHosts.filename home) <+: textAt fs' (KnownHosts.filename home)

/-- **A host that is scanned as it stands**: a shell reads it as one word, and
`ssh-keyscan` not as an option. -/
def Scannable (h : GoString) : Prop := Shell.IsWord h ∧ h.head? ≠ some '-'

instance : DecidablePred Scannable := fun _ => inferInstanceAs (Decidable (_ ∧ _))

/-- The file of the known hosts is there, or can be made. -/
def HasKnownHosts (home : GoString) (fs : Shell.Files Char) : Prop :=
  (fs (KnownHosts.dirname home) = some .dir ∧ fs (KnownHosts.filename home) ≠ some .dir)
    ∨ (fs (KnownHosts.dirname home) = none ∧ fs (KnownHosts.filename home) = none)

/-- **Nothing is lost where the text goes on**: with the first host that is not
in it right after it, each host is a name of the text or comes later and is not
in it either. -/
def Appendable (content : GoString) (hosts : List GoString) : Prop :=
  ∀ pre u post, hosts = pre ++ u :: post → (∀ h ∈ pre, h <:+: content) → ¬ u <:+: content →
    ∀ h ∈ hosts, h ∈ knownNames (content ++ u) ∨ (h ∈ post ∧ ¬ h <:+: content)

/-! ## What is scanned -/

theorem mem_unknownHosts {content : GoString} {hosts : List GoString} {h : GoString} :
    h ∈ unknownHosts content hosts ↔ h ∈ hosts ∧ ¬ h <:+: content := by
  rw [unknownHosts, List.mem_filter, ← Strings.contains_iff, Bool.not_eq_true',
    Bool.not_eq_true]

theorem ne_nil_of_mem_unknownHosts {content : GoString} {hosts : List GoString} {h : GoString}
    (hh : h ∈ unknownHosts content hosts) : h ≠ [] := by
  rintro rfl
  exact (mem_unknownHosts.mp hh).2 List.nil_infix

/-- The first host that is scanned, and those after it. -/
theorem unknownHosts_eq_cons_iff {content : GoString} {hosts us : List GoString} {u : GoString} :
    unknownHosts content hosts = u :: us
      ↔ ∃ pre post, hosts = pre ++ u :: post ∧ (∀ h ∈ pre, h <:+: content) ∧ ¬ u <:+: content
        ∧ unknownHosts content post = us := by
  rw [unknownHosts, List.filter_eq_cons_iff]
  simp only [Bool.not_eq_true', ← Bool.not_eq_true, Strings.contains_iff, not_not]
  rfl

/-- That nothing is lost, by the hosts that are scanned. -/
theorem appendable_iff {content : GoString} {hosts : List GoString} :
    Appendable content hosts ↔ ∀ u us, unknownHosts content hosts = u :: us →
      ∀ h ∈ hosts, h ∈ knownNames (content ++ u) ∨ h ∈ us := by
  constructor
  · intro happend u us hunknown h hh
    obtain ⟨pre, post, hhosts, hpre, hu, rfl⟩ := unknownHosts_eq_cons_iff.mp hunknown
    exact (happend pre u post hhosts hpre hu h hh).imp_right mem_unknownHosts.mpr
  · intro happend pre u post hhosts hpre hu h hh
    have hunknown := unknownHosts_eq_cons_iff.mpr ⟨pre, post, hhosts, hpre, hu, rfl⟩
    exact (happend u _ hunknown h hh).imp_right mem_unknownHosts.mp

namespace KnownHosts

open Shell

variable {scan : Keyscan} {home : GoString} {hosts : List GoString} {fs : Files Char}

theorem buildKnownHosts_readFileOf :
    buildKnownHosts (readFileOf fs) home hosts
      = if unknownHosts (textAt fs (filename home)) hosts = [] then none
        else some (script home (unknownHosts (textAt fs (filename home)) hosts)) := by
  have hcontent : (match readFileOf fs (filename home) with
      | .ok content => content
      | .error _ => []) = textAt fs (filename home) := by
    rw [readFileOf, textAt]
    rcases fs (filename home) with _ | (_ | _) <;> rfl
  unfold buildKnownHosts
  rw [hcontent]

theorem expand_plainWord (w : GoString) : (scan.system home).expand (plainWord w) = w := rfl

theorem map_expand_plainWord (ws : List GoString) :
    (ws.map plainWord).map (scan.system home).expand = ws := by
  rw [List.map_map]
  exact List.map_id ws

/-- **The hosts that are not in the text are put on the command line.** -/
theorem commandLine_eq (scan : Keyscan) (hhome : IsWord home)
    (hhosts : ∀ h ∈ unknownHosts (textAt fs (filename home)) hosts, IsWord h) :
    scan.commandLine home hosts fs = some (unknownHosts (textAt fs (filename home)) hosts) := by
  unfold Keyscan.commandLine
  rw [buildKnownHosts_readFileOf]
  generalize unknownHosts (textAt fs (filename home)) hosts = us at hhosts
  by_cases hne : us = []
  · rw [if_pos hne, hne]
  · have hargs : scan.argsOf home (keyscan (filename home) us) = us := by
      rw [Keyscan.argsOf, keyscan, map_expand_plainWord]
      rfl
    rw [if_neg hne]
    dsimp only
    rw [parse_script hhome hhosts hne, Option.map_some]
    refine congrArg some ?_
    show scan.argsOf home (keyscan (filename home) us) ++ [] = us
    rw [List.append_nil, hargs]

theorem filename_ne_devNull : filename home ≠ devNull := by
  intro heq
  have hlast := congrArg List.getLast? heq
  rw [show filename home = home ++ "/.ssh/known_host".toList ++ ['s'] from
    (List.append_assoc home _ _).symm ▸ rfl, List.getLast?_concat] at hlast
  exact absurd hlast (by decide)

theorem filename_ne_dirname : filename home ≠ dirname home :=
  fun heq => absurd (List.append_cancel_left heq) (by decide)

theorem dirname_filename : Shell.dirname (filename home) = dirname home := by
  have hsplit : filename home = dirname home ++ '/' :: "known_hosts".toList :=
    (List.append_assoc home "/.ssh".toList _).symm
  rw [hsplit, dirname_append_cons _ (by decide)]

/-- The files after the script. -/
def scannedFiles (scan : Keyscan) (home : GoString) (hosts : List GoString) (fs : Files Char) :
    Files Char :=
  (fs.put (dirname home) .dir).put (filename home)
    (.file (textAt fs (filename home) ++ hosts.flatMap scan.entry))

/-- **The script is run**: what is printed for the hosts goes to the end of the
file. -/
theorem run_script (hhome : IsWord home) (hfs : HasKnownHosts home fs)
    (hhosts : ∀ h ∈ hosts, Scannable h) (hne : hosts ≠ []) :
    (scan.system home).run (script home hosts) fs = some (scannedFiles scan home hosts fs) := by
  have hdir : fs (dirname home) = none ∨ fs (dirname home) = some .dir :=
    hfs.elim (fun h => .inr h.1) fun h => .inl h.1
  obtain ⟨ok₁, h₁⟩ := System.line_mkdirAt (S := scan.system home) (plainWord (dirname home))
    "700".toList hdir
  have hfile : ((fs.put (dirname home) .dir) (filename home) = none
        ∧ textAt fs (filename home) = [])
      ∨ (fs.put (dirname home) .dir) (filename home)
        = some (.file (textAt fs (filename home))) := by
    rw [Files.put_of_ne filename_ne_dirname, textAt]
    cases hf : fs (filename home) with
    | none => exact .inl ⟨rfl, rfl⟩
    | some n =>
      cases n with
      | file text => exact .inr rfl
      | dir => exact absurd hf (hfs.elim And.right fun h => by rw [h.2]; nofun)
  have hdir : (fs.put (dirname home) .dir)
      (Shell.dirname ((scan.system home).expand (plainWord (filename home)))) = some .dir := by
    rw [expand_plainWord, dirname_filename, Files.put_self]
  obtain ⟨ok₂, h₂⟩ := System.line_touchAt (plainWord (filename home)) "644".toList hdir hfile
  have hthere : ((fs.put (dirname home) .dir).put (filename home)
      (.file (textAt fs (filename home)))) (filename home)
        = some (.file (textAt fs (filename home))) := Files.put_self _ _ _
  have h₃ : (scan.system home).simple ((fs.put (dirname home) .dir).put (filename home)
      (.file (textAt fs (filename home)))) (keyscan (filename home) hosts)
        = some (true, scannedFiles scan home hosts fs) := by
    have hcommand : ∀ fs', scan.command fs' "ssh-keyscan".toList hosts
        = some ⟨true, hosts.flatMap scan.entry, fs'⟩ := by
      intro fs'
      rw [Keyscan.command, if_pos rfl, if_pos fun h hh => (hhosts h hh).2]
    rw [keyscan, List.map_cons, System.simple_of_openFile (r := ⟨true, plainWord (filename home)⟩)
      (Files.openFile_of_file filename_ne_devNull hthere), map_expand_plainWord]
    show (scan.command _ "ssh-keyscan".toList hosts).map _ = _
    rw [hcommand]
    show some (true, Files.write _ (filename home) _) = _
    rw [Files.write_of_file filename_ne_devNull hthere, Files.put_put]
    rfl
  have h₃' : (scan.system home).line true [(.andIf, keyscan (filename home) hosts)]
      ((fs.put (dirname home) .dir).put (filename home) (.file (textAt fs (filename home))))
        = some (true, scannedFiles scan home hosts fs) := System.line_andIf h₃
  rw [expand_plainWord] at h₁ h₂
  simp only [System.run, parse_script hhome (fun h hh => (hhosts h hh).1) hne, lines,
    List.foldlM_cons, List.foldlM_nil, h₁, h₂, h₃', Option.map_some, Option.bind_eq_bind,
    Option.bind_some]
  rfl

/-- **The text after the call**: an entry is added for each host that was not in
it. -/
theorem call_eq (scan : Keyscan) (hhome : IsWord home) (hfs : HasKnownHosts home fs)
    (hhosts : ∀ h ∈ unknownHosts (textAt fs (filename home)) hosts, Scannable h) :
    ∃ fs', scan.call home hosts fs = some fs'
      ∧ textAt fs' (filename home) = textAt fs (filename home)
        ++ (unknownHosts (textAt fs (filename home)) hosts).flatMap scan.entry := by
  unfold Keyscan.call
  rw [buildKnownHosts_readFileOf]
  by_cases hne : unknownHosts (textAt fs (filename home)) hosts = []
  · rw [if_pos hne, hne]
    exact ⟨fs, rfl, (List.append_nil _).symm⟩
  · rw [if_neg hne]
    refine ⟨_, run_script hhome hfs hhosts hne, ?_⟩
    rw [textAt, scannedFiles, Files.put_self]

end KnownHosts

namespace Keyscan

variable {scan : Keyscan}

/-- A line that is added goes on with what was there. -/
theorem knownNames_append_entry (content : GoString) {u : GoString} (hu : Listable u)
    (hne : u ≠ []) (rest : GoString) :
    knownNames (content ++ (scan.entry u ++ rest))
      = knownNames (content ++ u) ++ knownNames rest := by
  have hassoc : content ++ (scan.entry u ++ rest)
      = (content ++ u ++ ' ' :: scan.key u) ++ '\n' :: rest := by
    rw [entry]
    simp only [List.append_assoc, List.cons_append, List.nil_append]
  rw [hassoc, knownNames_append_newline,
    knownNames_append_blank content hu hne (scan.newline_notMem u)]

/-- The lines that are added name the hosts they are for. -/
theorem knownNames_entries {us : List GoString} (hus : ∀ u ∈ us, Listable u ∧ u ≠ []) :
    knownNames (us.flatMap scan.entry) = us := by
  induction us with
  | nil => exact knownNames_nil
  | cons u us ih =>
    obtain ⟨⟨hu, hne⟩, hus⟩ := List.forall_mem_cons.mp hus
    rw [List.flatMap_cons, ← List.nil_append (scan.entry u ++ _),
      knownNames_append_entry [] hu hne, List.nil_append, knownNames_of_listable hu hne, ih hus]
    rfl

/-- **The names after the call**: those of the text with the first host right
after it, and the hosts that are scanned later. -/
theorem knownNames_after {content : GoString} {hosts us : List GoString} {u : GoString}
    (hlist : ∀ h ∈ hosts, Listable h) (h : unknownHosts content hosts = u :: us) :
    knownNames (content ++ (u :: us).flatMap scan.entry) = knownNames (content ++ u) ++ us := by
  have hunknown : ∀ v ∈ u :: us, Listable v ∧ v ≠ [] := by
    intro v hv
    rw [← h] at hv
    exact ⟨hlist v (mem_unknownHosts.mp hv).1, ne_nil_of_mem_unknownHosts hv⟩
  obtain ⟨⟨hu, hne⟩, hus⟩ := List.forall_mem_cons.mp hunknown
  rw [List.flatMap_cons, knownNames_append_entry content hu hne, knownNames_entries hus]

end Keyscan

/-- **A text whose last line is ended loses nothing.** -/
theorem appendable_of_ended {content : GoString} {hosts : List GoString}
    (hended : ∀ c ∈ content.getLast?, c = '\n') (hlist : ∀ h ∈ hosts, Listable h)
    (hnames : ∀ h ∈ hosts, h <:+: content → h ∈ knownNames content) :
    Appendable content hosts := by
  rw [appendable_iff]
  intro u us hunknown h hh
  have hu : u ∈ unknownHosts content hosts := hunknown ▸ List.mem_cons_self
  have happend : knownNames (content ++ u) = knownNames content ++ [u] := by
    have hone := knownNames_of_listable (hlist u (mem_unknownHosts.mp hu).1)
      (ne_nil_of_mem_unknownHosts hu)
    rcases List.eq_nil_or_concat' content with rfl | ⟨p, c, rfl⟩
    · exact hone
    · rw [hended c List.getLast?_concat, List.append_assoc, List.singleton_append,
        knownNames_append_newline, knownNames_append_newline, hone, knownNames_nil,
        List.append_nil]
  by_cases hin : h <:+: content
  · refine Or.inl ?_
    rw [happend]
    exact List.mem_append_left _ (hnames h hh hin)
  · have hmem : h ∈ u :: us := hunknown ▸ mem_unknownHosts.mpr ⟨hh, hin⟩
    rcases List.mem_cons.mp hmem with rfl | hmem
    · refine Or.inl ?_
      rw [happend]
      exact List.mem_append_right _ List.mem_cons_self
    · exact Or.inr hmem

/-- **The unknown hosts are scanned exactly if** a host in the text is a name
of it, every host can be a name, and nothing is lost where the text goes on;
for hosts that are scanned as they stand, and a home directory whose path a
shell reads as it stands. -/
theorem known_hosts_scanned_iff (scan : Keyscan) {home : GoString} (hhome : Shell.IsWord home)
    {fs : Shell.Files Char} (hfs : HasKnownHosts home fs) {content : GoString}
    (hcontent : textAt fs (KnownHosts.filename home) = content) (hosts : List GoString)
    (hplain : ∀ h ∈ hosts, ¬ h <:+: content → Scannable h) :
    ScansUnknown scan home hosts fs
      ↔ (∀ h ∈ hosts, h <:+: content → h ∈ knownNames content)
        ∧ (∀ h ∈ hosts, Listable h) ∧ Appendable content hosts := by
  have hscannable : ∀ h ∈ unknownHosts (textAt fs (KnownHosts.filename home)) hosts,
      Scannable h := by
    rw [hcontent]
    exact fun h hh => hplain h (mem_unknownHosts.mp hh).1 (mem_unknownHosts.mp hh).2
  have hline := KnownHosts.commandLine_eq scan hhome fun h hh => (hscannable h hh).1
  obtain ⟨fs', hcall, hafter⟩ := KnownHosts.call_eq scan hhome hfs hscannable
  rw [hcontent] at hline hafter
  constructor
  · rintro ⟨⟨args, hargs, hscanned⟩, fs₁, hcall₁, hlisted, -⟩
    obtain rfl := Option.some.inj (hline.symm.trans hargs)
    obtain rfl := Option.some.inj (hcall.symm.trans hcall₁)
    have hlist : ∀ h ∈ hosts, Listable h := fun h hh =>
      listable_of_mem_knownNames (hlisted h hh)
    refine ⟨fun h hh hin => ?_, hlist, appendable_iff.mpr fun u us hunknown h hh => ?_⟩
    · rw [hcontent] at hscanned
      by_contra hnot
      exact (mem_unknownHosts.mp ((hscanned h hh).mpr hnot)).2 hin
    · have hname := hlisted h hh
      rw [hafter, hunknown, Keyscan.knownNames_after hlist hunknown] at hname
      exact List.mem_append.mp hname
  · rintro ⟨hnames, hlist, happend⟩
    refine ⟨⟨_, hline, fun h hh => ?_⟩, fs', hcall, fun h hh => ?_, ?_⟩
    · rw [mem_unknownHosts, hcontent]
      exact ⟨fun hun hknown => hun.2 (infix_of_mem_knownNames hknown),
        fun hnot => ⟨hh, fun hin => hnot (hnames h hh hin)⟩⟩
    · rw [hafter]
      cases hunknown : unknownHosts content hosts with
      | nil =>
        -- every host is in the text, which stays as it was
        have hin : h <:+: content := by
          by_contra hnot
          have hmem := mem_unknownHosts.mpr ⟨hh, hnot⟩
          rw [hunknown] at hmem
          exact absurd hmem List.not_mem_nil
        rw [List.flatMap_nil, List.append_nil]
        exact hnames h hh hin
      | cons u us =>
        rw [Keyscan.knownNames_after hlist hunknown]
        exact List.mem_append.mpr (appendable_iff.mp happend u us hunknown h hh)
    · rw [hafter, hcontent]
      exact List.prefix_append _ _

/-- The files of a user who knows one host. -/
def oneKnownHost : Shell.Files Char := fun p =>
  if p = KnownHosts.dirname "/root".toList then some .dir
  else if p = KnownHosts.filename "/root".toList then some (.file "a ssh-rsa K\n".toList)
  else none

theorem known_hosts_scanned_second :
    ScansUnknown ⟨fun _ => "ssh-rsa L".toList, fun _ => by decide⟩ "/root".toList
      ["a".toList, "b".toList] oneKnownHost := by
  have hcontent : textAt oneKnownHost (KnownHosts.filename "/root".toList)
      = "a ssh-rsa K\n".toList := by decide +kernel
  have hnames : ∀ h ∈ ["a".toList, "b".toList], h <:+: "a ssh-rsa K\n".toList →
      h ∈ knownNames "a ssh-rsa K\n".toList := by decide +kernel
  have hlist : ∀ h ∈ ["a".toList, "b".toList], Listable h := by decide +kernel
  refine (known_hosts_scanned_iff _ (by decide) (.inl ⟨by decide +kernel, by decide +kernel⟩)
    hcontent _ (by decide +kernel)).mpr ⟨hnames, hlist, ?_⟩
  have hended : "a ssh-rsa K\n".toList.getLast? = some '\n' := by decide
  exact appendable_of_ended (fun c hc => Option.some.inj (hc.symm.trans hended)) hlist hnames

/-- A host whose name begins the name of another one: nothing is scanned, and
it has no line. -/
theorem known_host_not_scanned :
    buildKnownHosts (fun _ => .ok "host10 ssh-rsa K\n".toList) "/root".toList ["host1".toList]
        = none
      ∧ "host1".toList ∉ knownNames "host10 ssh-rsa K\n".toList := by
  decide +kernel

-- without a newline at its end, the last line takes up the first entry
example : unknownHosts "a ssh-rsa K".toList ["b".toList] = ["b".toList]
    ∧ "b".toList ∉ knownNames "a ssh-rsa Kb ssh-rsa L\n".toList := by
  decide +kernel
