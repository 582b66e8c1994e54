import Sesh.Command
import Sesh.Runs
import Sesh.ShellScript

/-!
# The built-in command

`@auth.cmd` stands for a script that adds a public key to the authorized keys
of the host (`BuildinCmd.Get`, `util/helper.go`). The script makes the
directory and the file where they are missing, looks for the comment of the
key in the file, and adds the key as a line if no line has it.

The text of the script is read and run by the shell of `Sesh.ShellScript`
(`parse_authScript`, `run_authScript`). A key in quotes ends at the first
quote, so what is said is about keys without one.

What is looked for is not what is added: a file in which another key has the
same comment – the key before it was renewed, for instance – is left without
the new one. The script does what it is for exactly if the key is one line,
and is in the file already or shares its comment with no line of it
(`auth_installs_iff`).
-/

section AuthKeys

open Shell

/-- `~/.ssh`. -/
def sshDir : Word := ⟨true, "/.ssh".toList⟩

/-- `~/.ssh/authorized_keys`. -/
def keysFile : Word := ⟨true, "/.ssh/authorized_keys".toList⟩

/-- The text of the script up to the comment. -/
def scriptHead : GoString :=
  "\n[ ! -e ~/.ssh ] && mkdir -p ~/.ssh && chmod 700 ~/.ssh\n".toList
    ++ "[ ! -e ~/.ssh/authorized_keys ] && touch ~/.ssh/authorized_keys".toList
    ++ " && chmod 600 ~/.ssh/authorized_keys\n".toList
    ++ "grep ".toList

/-- Between the comment and the key. -/
def scriptMiddle : GoString := "~/.ssh/authorized_keys >/dev/null || echo ".toList

/-- After the key. -/
def scriptTail : GoString :=
  ">> ~/.ssh/authorized_keys\n".toList
    ++ "echo 'add public key to ~/.ssh/authorized_keys OK'\n".toList

/-- **The script**, for a key and its comment. -/
def authScript (name key : GoString) : GoString :=
  scriptHead ++ '\'' :: (name ++ '\'' :: ' ' :: (scriptMiddle
    ++ '\'' :: (key ++ '\'' :: ' ' :: scriptTail)))

/-- The script is what `BuildinCmd.Get` builds. -/
theorem get_eq_authScript {readFile : ReadFile} {pubkeyFile text : GoString}
    (h : readFile pubkeyFile = .ok text) :
    BuildinCmd.get readFile pubkeyFile
      = .ok (authScript (keyName (Strings.trimSpace text)) (Strings.trimSpace text)) := by
  have hgrep : "grep '".toList = "grep ".toList ++ ['\''] := by decide
  have hecho : "' ~/.ssh/authorized_keys >/dev/null || echo '".toList
      = '\'' :: ' ' :: (scriptMiddle ++ ['\'']) := by decide +kernel
  have hadd : "' >> ~/.ssh/authorized_keys\n".toList
      = '\'' :: ' ' :: ">> ~/.ssh/authorized_keys\n".toList := by decide +kernel
  have hassoc : ∀ (a b c g name m key t u : GoString) (q s : Char),
      a ++ b ++ c ++ (g ++ [q]) ++ name ++ (q :: s :: (m ++ [q])) ++ key ++ (q :: s :: t) ++ u
        = a ++ b ++ c ++ g
          ++ q :: (name ++ q :: s :: (m ++ q :: (key ++ q :: s :: (t ++ u)))) := by
    intros
    simp only [List.append_assoc, List.cons_append, List.nil_append]
  rw [BuildinCmd.get, h]
  dsimp only
  rw [hgrep, hecho, hadd, hassoc]
  rfl

/-! ## Reading the script -/

/-- The directory is made if it is missing. -/
def makeDir : Line := makeMissing sshDir (mkdirAt sshDir) "700".toList

/-- The file is made if it is missing. -/
def makeFile : Line := makeMissing keysFile (touchAt keysFile) "600".toList

/-- The key is added if no line has its comment. -/
def addKey (name key : GoString) : Line :=
  [(.andIf, ⟨[plainWord "grep".toList, plainWord name, keysFile],
      some ⟨false, plainWord devNull⟩⟩),
    (.orIf, ⟨[plainWord "echo".toList, plainWord key], some ⟨true, keysFile⟩⟩)]

/-- The last line of the script. -/
def sayDone : Line :=
  [(.andIf, ⟨[plainWord "echo".toList,
    plainWord "add public key to ~/.ssh/authorized_keys OK".toList], none⟩)]

/-- The tokens of a command. -/
def commandTokens (c : Simple) : List Token := c.words.map .word

/-- The tokens up to the comment. -/
def headTokens : List Token :=
  .newline :: (commandTokens (testMissing sshDir)
    ++ .andIf :: ([plainWord "mkdir".toList, plainWord "-p".toList, sshDir].map .word
    ++ .andIf :: (commandTokens (chmodTo "700".toList sshDir)
    ++ .newline :: (commandTokens (testMissing keysFile)
    ++ .andIf :: ([plainWord "touch".toList, keysFile].map .word
    ++ .andIf :: (commandTokens (chmodTo "600".toList keysFile)
    ++ [.newline, .word (plainWord "grep".toList)]))))))

/-- The tokens between the comment and the key. -/
def middleTokens : List Token :=
  [.word keysFile, .write, .word (plainWord devNull), .orIf, .word (plainWord "echo".toList)]

/-- The tokens after the key. -/
def tailTokens : List Token :=
  [.append, .word keysFile, .newline, .word (plainWord "echo".toList),
    .word (plainWord "add public key to ~/.ssh/authorized_keys OK".toList), .newline]

theorem lexFrom_scriptHead : Lexer.clean.lexFrom scriptHead = some (headTokens, .clean) := by
  decide +kernel

theorem lexFrom_scriptMiddle :
    Lexer.clean.lexFrom scriptMiddle = some (middleTokens, .clean) := by
  decide +kernel

theorem lexFrom_scriptTail : Lexer.clean.lexFrom scriptTail = some (tailTokens, .clean) := by
  decide +kernel

/-- The tokens of the script. -/
theorem tokens_authScript {name key : GoString} (hname : '\'' ∉ name) (hkey : '\'' ∉ key) :
    Shell.tokens (authScript name key)
      = some (headTokens ++ .word (plainWord name) :: (middleTokens
        ++ .word (plainWord key) :: tailTokens)) := by
  have hlex : Lexer.clean.lexFrom (authScript name key)
      = some (headTokens ++ .word (plainWord name) :: (middleTokens
        ++ .word (plainWord key) :: tailTokens), .clean) := by
    rw [authScript, Lexer.lexFrom_piece lexFrom_scriptHead, Lexer.lexFrom_quoted hname,
      Lexer.lexFrom_piece lexFrom_scriptMiddle, Lexer.lexFrom_quoted hkey, lexFrom_scriptTail]
    rfl
  rw [Shell.tokens, hlex]
  show some (_ ++ []) = _
  rw [List.append_nil]

/-- **The script is four lines of commands.** -/
theorem parse_authScript {name key : GoString} (hname : '\'' ∉ name) (hkey : '\'' ∉ key) :
    Shell.parse (authScript name key) = some [makeDir, makeFile, addKey name key, sayDone] := by
  rw [Shell.parse, tokens_authScript hname hkey]
  rfl

/-! ## Running the script -/

section Run

variable {h : Shell.Host} {fs : Files GoString}

/-- The file is in the directory. -/
theorem dirname_keysFile : dirname (h.system.expand keysFile) = h.system.expand sshDir := by
  have hsplit : h.system.expand keysFile
      = h.system.expand sshDir ++ '/' :: "authorized_keys".toList :=
    (List.append_assoc h.home "/.ssh".toList _).symm
  rw [hsplit, dirname_append_cons _ (by decide)]

/-- **What the third line makes of the lines of the file.** -/
def withKey (h : Shell.Host) (name key : GoString) (ls : List GoString) : List GoString :=
  if ls.any (h.matching name) then ls else ls ++ key.splitOn '\n'

theorem keysFile_ne_devNull : h.system.expand keysFile ≠ devNull := by
  intro heq
  have hlast := congrArg List.getLast? heq
  rw [show h.system.expand keysFile = h.home ++ "/.ssh/authorized_key".toList ++ ['s'] from
    (List.append_assoc h.home _ _).symm ▸ rfl, List.getLast?_concat] at hlast
  exact absurd hlast (by decide)

theorem sshDir_ne_keysFile : h.system.expand sshDir ≠ h.system.expand keysFile := by
  intro heq
  exact absurd (List.append_cancel_left heq) (by decide)

/-- **The key is added if nothing matches its comment.** -/
theorem line_addKey {ls : List GoString} (hfile : fs (h.system.expand keysFile) = some (.file ls))
    (name key : GoString) :
    ∃ ok, h.system.line true (addKey name key) fs
      = some (ok, fs.put (h.system.expand keysFile) (.file (withKey h name key ls))) := by
  have hgrep : h.system.simple fs ⟨[plainWord "grep".toList, plainWord name, keysFile],
      some ⟨false, plainWord devNull⟩⟩ = some (ls.any (h.matching name), fs) := by
    have hopen : fs.openFile false (h.system.expand (plainWord devNull)) = some fs :=
      Files.openFile_devNull fs false
    rw [System.simple_of_openFile hopen]
    show some ((Shell.grep (h.matching name) fs (h.system.expand keysFile)).ok,
      (Shell.grep (h.matching name) fs (h.system.expand keysFile)).files.write devNull _) = _
    rw [Shell.grep, hfile, Files.write, if_pos rfl]
  have hecho : h.system.simple fs ⟨[plainWord "echo".toList, plainWord key], some ⟨true, keysFile⟩⟩
      = some (true, fs.put (h.system.expand keysFile) (.file (ls ++ key.splitOn '\n'))) := by
    rw [System.simple_of_openFile (Files.openFile_of_file keysFile_ne_devNull hfile)]
    show some (true, fs.write (h.system.expand keysFile) (echo fs [key]).out) = _
    rw [Files.write_of_file keysFile_ne_devNull hfile, out_echo_singleton]
  refine ⟨true, ?_⟩
  rw [addKey, System.line_andIf hgrep, withKey]
  cases hany : ls.any (h.matching name) with
  | true =>
    rw [System.line_orIf_of_ok, if_pos rfl, Files.put_of_eq hfile]
    rfl
  | false =>
    rw [System.line_orIf hecho, if_neg Bool.false_ne_true]
    rfl

/-- The last line changes nothing. -/
theorem line_sayDone : h.system.line true sayDone fs = some (true, fs) := rfl

end Run

/-! ## The account -/

/-- **The account the script is run for**: its files, with the directory and
the file of the keys there or missing, and the lines of that file. -/
structure Account (h : Shell.Host) where
  files : Files GoString
  lines : List GoString
  ssh : files (h.system.expand sshDir) = none ∨ files (h.system.expand sshDir) = some .dir
  keys : (files (h.system.expand keysFile) = none ∧ lines = [])
    ∨ (files (h.system.expand keysFile) = some (.file lines)
      ∧ files (h.system.expand sshDir) = some .dir)
  newline_notMem : ∀ l ∈ lines, '\n' ∉ l

namespace Account

variable {h : Shell.Host} (a : Account h) (name key : GoString)

/-- The files after the script. -/
def installed : Files GoString :=
  (a.files.put (h.system.expand sshDir) .dir).put (h.system.expand keysFile)
    (.file (withKey h name key a.lines))

theorem installed_keysFile :
    a.installed name key (h.system.expand keysFile) = some (.file (withKey h name key a.lines)) :=
  Files.put_self _ _ _

theorem installed_sshDir : a.installed name key (h.system.expand sshDir) = some .dir := by
  rw [installed, Files.put_of_ne sshDir_ne_keysFile, Files.put_self]

variable {name key}

/-- **The script run on an account**: only the file of the keys and its
directory are touched. -/
theorem run_authScript (hname : '\'' ∉ name) (hkey : '\'' ∉ key) :
    h.system.run (authScript name key) a.files = some (a.installed name key) := by
  obtain ⟨ok₁, h₁⟩ := System.line_mkdirAt sshDir "700".toList a.ssh
  have hssh : (a.files.put (h.system.expand sshDir) .dir) (h.system.expand sshDir) = some .dir :=
    Files.put_self _ _ _
  have hkeys : ((a.files.put (h.system.expand sshDir) .dir) (h.system.expand keysFile) = none
        ∧ a.lines = [])
      ∨ (a.files.put (h.system.expand sshDir) .dir) (h.system.expand keysFile)
        = some (.file a.lines) := by
    rw [Files.put_of_ne sshDir_ne_keysFile.symm]
    exact a.keys.imp_right And.left
  obtain ⟨ok₂, h₂⟩ := System.line_touchAt keysFile "600".toList
    (by rw [dirname_keysFile]; exact hssh) hkeys
  obtain ⟨ok₃, h₃⟩ := line_addKey (Files.put_self (a.files.put (h.system.expand sshDir) .dir)
    (h.system.expand keysFile) (.file a.lines)) name key
  rw [Files.put_put] at h₃
  simp only [System.run, parse_authScript hname hkey, List.foldlM_cons, List.foldlM_nil,
    makeDir, makeFile, h₁, h₂, h₃, line_sayDone, Option.map_some, Option.bind_eq_bind,
    Option.bind_some]
  rfl

/-- `main` puts a space after the script, as after every word of a command,
which makes no difference. -/
theorem run_joined (hname : '\'' ∉ name) (hkey : '\'' ∉ key) :
    h.system.run ([authScript name key].flatMap (· ++ [' '])) a.files
      = some (a.installed name key) := by
  rw [List.flatMap_singleton, System.run_append_blank, a.run_authScript hname hkey]

variable (name key)

/-- The lines after the script are lines. -/
theorem newline_notMem_withKey : ∀ l ∈ withKey h name key a.lines, '\n' ∉ l := by
  intro l hl
  rw [withKey] at hl
  split at hl
  · exact a.newline_notMem l hl
  · rcases List.mem_append.mp hl with hl | hl
    · exact a.newline_notMem l hl
    · exact Runs.notMem_of_mem_splitOn hl

/-- The account after the script. -/
def after : Account h where
  files := a.installed name key
  lines := withKey h name key a.lines
  ssh := Or.inr (a.installed_sshDir name key)
  keys := Or.inr ⟨a.installed_keysFile name key, a.installed_sshDir name key⟩
  newline_notMem := a.newline_notMem_withKey name key

/-- Run a second time, the script does to the lines what it does to any. -/
theorem installed_after :
    (a.after name key).installed name key
      = (a.installed name key).put (h.system.expand keysFile)
        (.file (withKey h name key (withKey h name key a.lines))) := by
  show ((a.installed name key).put (h.system.expand sshDir) .dir).put _ _ = _
  rw [Files.put_of_eq (a.installed_sshDir name key)]
  rfl

end Account

/-- **The script does what it is for**: the key is a line of the file, the
lines there were are kept in order, and a second run changes nothing. -/
def Installs (h : Shell.Host) (script key : GoString) (a : Account h) : Prop :=
  ∃ files lines, h.system.run script a.files = some files
    ∧ files (h.system.expand keysFile) = some (.file lines)
    ∧ key ∈ lines ∧ a.lines.Sublist lines
    ∧ h.system.run script files = some files

/-! ## What the script is for -/

section Installs

variable {h : Shell.Host} {a : Account h} {name key : GoString}

theorem sublist_withKey (ls : List GoString) : ls.Sublist (withKey h name key ls) := by
  rw [withKey]
  split
  · exact List.Sublist.refl ls
  · exact List.sublist_append_left ls _

/-- What the script is for, said of the lines. -/
theorem installs_iff_withKey (hname : '\'' ∉ name) (hkey : '\'' ∉ key) :
    Installs h (authScript name key) key a
      ↔ key ∈ withKey h name key a.lines
        ∧ withKey h name key (withKey h name key a.lines) = withKey h name key a.lines := by
  have hrun := a.run_authScript hname hkey
  have hagain := (a.after name key).run_authScript hname hkey
  rw [a.installed_after name key] at hagain
  constructor
  · rintro ⟨files, lines, hfiles, hlines, hmem, -, hsame⟩
    obtain rfl := Option.some.inj (hrun.symm.trans hfiles)
    obtain rfl := Node.file.inj
      (Option.some.inj ((a.installed_keysFile name key).symm.trans hlines))
    have heq := congrFun (Option.some.inj (hagain.symm.trans hsame)) (h.system.expand keysFile)
    rw [Files.put_self, a.installed_keysFile name key] at heq
    exact ⟨hmem, Node.file.inj (Option.some.inj heq)⟩
  · rintro ⟨hmem, heq⟩
    refine ⟨_, _, hrun, a.installed_keysFile name key, hmem, sublist_withKey a.lines, ?_⟩
    rw [heq, Files.put_of_eq (a.installed_keysFile name key)] at hagain
    exact hagain

/-- **The script does what it is for**, whatever the patterns of `grep` mean:
the key is one line, and either something matches its comment and the key is
there, or nothing does but the key itself. -/
theorem installs_iff (hname : '\'' ∉ name) (hkey : '\'' ∉ key) :
    Installs h (authScript name key) key a
      ↔ '\n' ∉ key ∧ ((a.lines.any (h.matching name) = true ∧ key ∈ a.lines)
        ∨ (a.lines.any (h.matching name) = false ∧ h.matching name key = true)) := by
  rw [installs_iff_withKey hname hkey]
  by_cases hnl : '\n' ∈ key
  · refine iff_of_false (fun hin => ?_) (fun hin => hin.1 hnl)
    exact a.newline_notMem_withKey name key key hin.1 hnl
  cases hany : a.lines.any (h.matching name) with
  | true =>
    have hkeep : withKey h name key a.lines = a.lines := by rw [withKey, if_pos hany]
    rw [hkeep, hkeep]
    simp [hnl]
  | false =>
    have hadd : withKey h name key a.lines = a.lines ++ [key] := by
      rw [withKey, if_neg (by rw [hany]; exact Bool.false_ne_true), List.splitOn_eq_singleton hnl]
    have hagain : (a.lines ++ [key]).any (h.matching name) = h.matching name key := by
      rw [List.any_append, hany, Bool.false_or, List.any_cons, List.any_nil, Bool.or_false]
    rw [hadd, withKey, hagain]
    cases hmatch : h.matching name key with
    | true => simp [hnl]
    | false => simp

end Installs

/-! ## Patterns without metacharacters -/

/-- The characters that mean something in a pattern, and the quotes. -/
def PlainPattern (p : GoString) : Prop :=
  ∀ c ∈ p, c ∉ "\n'\".*[]^$\\+?()|\x7b\x7d".toList

instance : DecidablePred PlainPattern :=
  fun _ => List.decidableBAll (fun c => c ∉ "\n'\".*[]^$\\+?()|\x7b\x7d".toList) _

/-- **A host whose `grep` finds plain patterns**: those are in the lines they
match. -/
def FindsPlain (h : Shell.Host) : Prop :=
  ∀ p l, PlainPattern p → (h.matching p l = true ↔ p <:+: l)

/-- The comment of a key is at its end. -/
theorem keyName_suffix (key : GoString) : keyName key <:+ key := by
  unfold keyName
  split
  · exact List.suffix_rfl
  · rename_i u rest hrest
    obtain ⟨rfl, -⟩ := Strings.cut_eq_some_iff.mp hrest
    split
    · exact List.suffix_rfl
    · rename_i v name hname
      obtain ⟨rfl, -⟩ := Strings.cut_eq_some_iff.mp hname
      exact ⟨u ++ ' ' :: (v ++ [' ']), by simp⟩

/-- **The script installs the key exactly where it is one line, and is there
already or shares its comment with no line.** For every key file whose text
has no quote and whose comment is a plain pattern, and every account. -/
theorem auth_installs_iff (h : Shell.Host) (hgrep : FindsPlain h) (readFile : ReadFile)
    (pubkeyFile text : GoString) (hread : readFile pubkeyFile = .ok text)
    (hquote : '\'' ∉ Strings.trimSpace text)
    (hplain : PlainPattern (keyName (Strings.trimSpace text))) (a : Account h) :
    ∃ script, BuildinCmd.get readFile pubkeyFile = .ok script
      ∧ (Installs h script (Strings.trimSpace text) a
        ↔ '\n' ∉ Strings.trimSpace text
          ∧ (Strings.trimSpace text ∈ a.lines
            ∨ ∀ l ∈ a.lines, ¬ keyName (Strings.trimSpace text) <:+: l)) := by
  refine ⟨_, get_eq_authScript hread, ?_⟩
  generalize Strings.trimSpace text = key at hquote hplain ⊢
  have hsuffix := keyName_suffix key
  have hname : '\'' ∉ keyName key := fun hmem => hquote (hsuffix.subset hmem)
  have hself : h.matching (keyName key) key = true := (hgrep _ _ hplain).mpr hsuffix.isInfix
  have hany : a.lines.any (h.matching (keyName key)) = true
      ↔ ∃ l ∈ a.lines, keyName key <:+: l := by
    rw [List.any_eq_true]
    exact exists_congr fun l => and_congr_right fun _ => hgrep _ l hplain
  have hnone : a.lines.any (h.matching (keyName key)) = false
      ↔ ∀ l ∈ a.lines, ¬ keyName key <:+: l := by
    rw [← Bool.not_eq_true, hany]
    simp
  rw [installs_iff hname hquote, hself, hnone, hany]
  refine and_congr_right fun _ => ?_
  constructor
  · rintro (hin | hin)
    · exact Or.inl hin.2
    · exact Or.inr hin.1
  · rintro (hin | hin)
    · exact Or.inl ⟨⟨key, hin, hsuffix.isInfix⟩, hin⟩
    · exact Or.inr ⟨hin, rfl⟩

/-! ## Two accounts -/

/-- A host whose `grep` knows plain patterns only. -/
def plainHost : Shell.Host := ⟨"/root".toList, fun p l => Strings.contains l p⟩

theorem findsPlain_plainHost : FindsPlain plainHost := fun _ _ _ => Strings.contains_iff

/-- An account without the directory. -/
def newAccount : Account plainHost where
  files _ := none
  lines := []
  ssh := Or.inl rfl
  keys := Or.inl ⟨rfl, rfl⟩
  newline_notMem := nofun

/-- An account that has an older key with the same comment. -/
def oldAccount : Account plainHost where
  files p :=
    if p = plainHost.system.expand sshDir then some .dir
    else if p = plainHost.system.expand keysFile then some (.file ["ssh-rsa OLD me@host".toList])
    else none
  lines := ["ssh-rsa OLD me@host".toList]
  ssh := Or.inr (if_pos rfl)
  keys := Or.inr ⟨by decide, if_pos rfl⟩
  newline_notMem := by decide

/-- The first key of an account. -/
theorem auth_installs_first :
    ∃ script, BuildinCmd.get (fun _ => .ok "ssh-rsa NEW me@host\n".toList) [] = .ok script
      ∧ Installs plainHost script (Strings.trimSpace "ssh-rsa NEW me@host\n".toList)
        newAccount := by
  obtain ⟨script, hget, hiff⟩ := auth_installs_iff plainHost findsPlain_plainHost
    (fun _ => .ok "ssh-rsa NEW me@host\n".toList) [] "ssh-rsa NEW me@host\n".toList rfl
    (by decide +kernel) (by decide +kernel) newAccount
  exact ⟨script, hget, hiff.mpr ⟨by decide +kernel, Or.inr nofun⟩⟩

/-- A renewed key: the comment is found in the line of the old one, and the
new key is not added. -/
theorem auth_skips_renewed :
    ∃ script files,
      BuildinCmd.get (fun _ => .ok "ssh-rsa NEW me@host\n".toList) [] = .ok script
      ∧ plainHost.system.run script oldAccount.files = some files
      ∧ files (plainHost.system.expand keysFile) = some (.file ["ssh-rsa OLD me@host".toList])
      ∧ ¬ Installs plainHost script "ssh-rsa NEW me@host".toList oldAccount := by
  have htrim : Strings.trimSpace "ssh-rsa NEW me@host\n".toList
      = "ssh-rsa NEW me@host".toList := by decide +kernel
  have hname : '\'' ∉ keyName "ssh-rsa NEW me@host".toList := by decide +kernel
  have hkey : '\'' ∉ "ssh-rsa NEW me@host".toList := by decide +kernel
  have hkeep : withKey plainHost (keyName "ssh-rsa NEW me@host".toList)
      "ssh-rsa NEW me@host".toList oldAccount.lines = ["ssh-rsa OLD me@host".toList] := by
    decide +kernel
  have hget := @get_eq_authScript (fun _ => .ok "ssh-rsa NEW me@host\n".toList) [] _ rfl
  rw [htrim] at hget
  refine ⟨_, _, hget, oldAccount.run_authScript hname hkey, ?_, ?_⟩
  · rw [Account.installed_keysFile, hkeep]
  · rw [installs_iff_withKey hname hkey, hkeep]
    exact fun hin => absurd hin.1 (by decide)

end AuthKeys
