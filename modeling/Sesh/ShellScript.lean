import Mathlib.Data.List.Infix
import Mathlib.Logic.Function.Basic
import Sesh.ShellWords

/-!
# Shell scripts

A small shell: commands on lines of their own, joined by `&&` and `||`, each
with its output on a file if it is redirected, run on a file system. A script
is read in two passes, into tokens and into commands, and then run.

As with the words of a single command (`Shell.words`), the reading is
partial: a text that uses anything else of a shell has no tokens, and a
command that is not one of those below has no meaning. What a script does is
said only where all of it is understood (`Shell.System.run`).

A file is a list, of its lines or of its characters, and permissions are not
followed. All systems know the commands that look after files, `[ ! -e file ]`,
`mkdir -p`, `chmod` and `touch` (`Shell.fileCommand`), and each may know others
(`Shell.System`). One that has lines for files and knows `grep` and `echo` is a
`Shell.Host`; what a pattern of `grep` matches is a parameter, since it is a
language of its own.
-/

namespace Shell

/-! ## Tokens -/

/-- A word, and whether it stands for a path in the home directory, by a
tilde at its start. -/
structure Word where
  home : Bool
  text : List Char
  deriving DecidableEq, Repr

/-- A token: a word, one of the operators `&&`, `||`, `>` and `>>`, or the
end of a line. -/
inductive Token
  | word (w : Word)
  | andIf
  | orIf
  | write
  | append
  | newline
  deriving DecidableEq, Repr

/-- What was begun and may go on: nothing, a word, an opening bracket, which
is a word only by itself, or the first sign of an operator. -/
inductive Pending
  | nothing
  | word (w : Word)
  | bracket
  | amp
  | bar
  | great
  deriving DecidableEq, Repr

/-- What was begun is ended, `none` where it is not a token. -/
def Pending.close : Pending → Option (List Token)
  | .nothing => some []
  | .word w => some [.word w]
  | .bracket => some [.word ⟨false, ['[']⟩]
  | .great => some [.write]
  | .amp => none
  | .bar => none

/-- The word that goes on, or a new one after what is ended. -/
def Pending.inWord : Pending → Option (List Token × Word)
  | .word w => some ([], w)
  | .bracket => none
  | p => p.close.map (fun ts => (ts, ⟨false, []⟩))

/-- The state of the lexer: whether it is inside of quotes, and what was
begun. -/
structure Lexer where
  quoted : Bool
  pending : Pending
  deriving DecidableEq, Repr

namespace Lexer

/-- Between two tokens. -/
def clean : Lexer := ⟨false, .nothing⟩

/-- A character of a word. -/
def push (s : Lexer) (c : Char) : Option (List Token × Lexer) :=
  s.pending.inWord.map (fun r =>
    (r.1, { s with pending := .word { r.2 with text := r.2.text ++ [c] } }))

/-- What was begun is ended, and `p` is begun. -/
def next (s : Lexer) (p : Pending) : Option (List Token × Lexer) :=
  s.pending.close.map (fun ts => (ts, ⟨false, p⟩))

/-- The lexer reads a character. -/
def step (s : Lexer) (c : Char) : Option (List Token × Lexer) :=
  if s.quoted then
    if c = '\'' then some ([], { s with quoted := false }) else s.push c
  else if blank c then s.next .nothing
  else if c = '\n' then s.pending.close.map (fun ts => (ts ++ [.newline], clean))
  else if c = '\'' then s.pending.inWord.map (fun r => (r.1, ⟨true, .word r.2⟩))
  else if c = '&' then
    if s.pending = .amp then some ([.andIf], clean) else s.next .amp
  else if c = '|' then
    if s.pending = .bar then some ([.orIf], clean) else s.next .bar
  else if c = '>' then
    -- a word right before it could be the number of a descriptor
    if s.pending = .great then some ([.append], clean)
    else if s.pending = .nothing then s.next .great
    else none
  else if s.pending = .nothing ∧ c = '[' then s.next .bracket
  else if special c then none
  else if s.pending = .nothing ∧ c = '#' then none
  else if s.pending = .nothing ∧ c = '~' then s.next (.word ⟨true, []⟩)
  else s.push c

/-- The lexer reads a text. -/
def lexFrom : Lexer → List Char → Option (List Token × Lexer)
  | s, [] => some ([], s)
  | s, c :: text =>
    (s.step c).bind (fun r => (lexFrom r.2 text).map (fun u => (r.1 ++ u.1, u.2)))

end Lexer

/-- **The tokens of a script**, `none` where it is not understood. -/
def tokens (text : List Char) : Option (List Token) := do
  let r ← Lexer.clean.lexFrom text
  let ts ← r.2.pending.close
  if r.2.quoted then none else some (r.1 ++ ts)

/-! ## Commands -/

/-- A file the output of a command goes to, at its end or in place of what
it holds. -/
structure Redirect where
  append : Bool
  file : Word
  deriving DecidableEq, Repr

/-- A command. -/
structure Simple where
  words : List Word
  redirect : Option Redirect
  deriving DecidableEq, Repr

/-- How a command hangs on the one before it. -/
inductive Op
  | andIf
  | orIf
  deriving DecidableEq, Repr

/-- A line of a script: its commands, and how each hangs on the one before
it; the first is run as if it followed a success. -/
abbrev Line := List (Op × Simple)

/-- The commands of a line, `words` and `redirect` being what was read of
the current one. -/
def parseLine (op : Op) (words : List Word) (redirect : Option Redirect) :
    List Token → Option Line
  | [] => if words = [] then none else some [(op, ⟨words, redirect⟩)]
  | .word w :: ts =>
    if redirect = none then parseLine op (words ++ [w]) redirect ts else none
  | .write :: .word w :: ts =>
    if redirect = none then parseLine op words (some ⟨false, w⟩) ts else none
  | .append :: .word w :: ts =>
    if redirect = none then parseLine op words (some ⟨true, w⟩) ts else none
  | .andIf :: ts =>
    if words = [] then none
    else (parseLine .andIf [] none ts).map (fun cs => (op, ⟨words, redirect⟩) :: cs)
  | .orIf :: ts =>
    if words = [] then none
    else (parseLine .orIf [] none ts).map (fun cs => (op, ⟨words, redirect⟩) :: cs)
  | _ => none

/-- **The lines of a script**, empty ones left out. -/
def parse (text : List Char) : Option (List Line) := do
  let ts ← tokens text
  ((ts.splitOn .newline).filter (· ≠ [])).mapM (parseLine .andIf [] none)

/-! ## Files -/

/-- What is at a path. -/
inductive Node (α : Type)
  | dir
  | file (content : List α)
  deriving DecidableEq, Repr

/-- A file system: what is at each path. -/
abbrev Files (α : Type) := List Char → Option (Node α)

/-- The directory of a path. -/
def dirname (p : List Char) : List Char :=
  ((p.reverse.dropWhile (· ≠ '/')).drop 1).reverse

/-- The path that takes everything and keeps nothing. -/
def devNull : List Char := "/dev/null".toList

namespace Files

variable {α : Type}

/-- A path is given what stands at it. -/
def put (fs : Files α) (p : List Char) (n : Node α) : Files α := Function.update fs p (some n)

/-- A file is made, in a directory that is there. -/
def create (fs : Files α) (p : List Char) : Option (Files α) :=
  match fs (dirname p) with
  | some .dir => some (fs.put p (.file []))
  | _ => none

/-- A file is opened for output. -/
def openFile (fs : Files α) (append : Bool) (p : List Char) : Option (Files α) :=
  if p = devNull then some fs
  else
    match fs p with
    | some .dir => none
    | some (.file _) => some (if append then fs else fs.put p (.file []))
    | none => fs.create p

/-- Output is written at the end of a file. -/
def write (fs : Files α) (p : List Char) (out : List α) : Files α :=
  if p = devNull then fs
  else
    match fs p with
    | some (.file content) => fs.put p (.file (content ++ out))
    | _ => fs

end Files

/-! ## Running -/

/-- What a command leaves: whether it succeeded, what it printed, and the
files. -/
structure Result (α : Type) where
  ok : Bool
  out : List α
  files : Files α

/-- `mkdir -p`, its parents not followed. -/
def mkdir {α : Type} (fs : Files α) (p : List Char) : Result α :=
  match fs p with
  | none => ⟨true, [], fs.put p .dir⟩
  | some .dir => ⟨true, [], fs⟩
  | some (.file _) => ⟨false, [], fs⟩

/-- `touch`. -/
def touch {α : Type} (fs : Files α) (p : List Char) : Result α :=
  match fs p with
  | none =>
    match fs.create p with
    | some fs' => ⟨true, [], fs'⟩
    | none => ⟨false, [], fs⟩
  | some _ => ⟨true, [], fs⟩

/-- **The commands that look after files**, `none` where it is not one of
them. -/
def fileCommand {α : Type} (fs : Files α) (cmd : List Char) (args : List (List Char)) :
    Option (Result α) :=
  if cmd = "[".toList then
    match args with
    | [bang, opt, p, close] =>
      if bang = "!".toList ∧ opt = "-e".toList ∧ close = "]".toList then
        some ⟨(fs p).isNone, [], fs⟩
      else none
    | _ => none
  else if cmd = "mkdir".toList then
    match args with
    | [opt, p] => if opt = "-p".toList then some (mkdir fs p) else none
    | _ => none
  else if cmd = "chmod".toList then
    match args with
    | [_, p] => some ⟨(fs p).isSome, [], fs⟩
    | _ => none
  else if cmd = "touch".toList then
    match args with
    | [p] => some (touch fs p)
    | _ => none
  else none

/-- **A system**: its home directory, and what its commands do, `none` where a
command is not understood. It knows those that look after files. -/
structure System (α : Type) where
  home : List Char
  command : Files α → List Char → List (List Char) → Option (Result α)
  fileCommand_eq : ∀ {fs cmd args r}, fileCommand fs cmd args = some r →
    command fs cmd args = some r

namespace System

variable {α : Type} (S : System α)

/-- What a word stands for. -/
def expand (w : Word) : List Char := if w.home then S.home ++ w.text else w.text

/-- A command is run with its redirection. The file is opened first, and
where it cannot be, the command is not run. -/
def simple (fs : Files α) (c : Simple) : Option (Bool × Files α) :=
  match c.words.map S.expand with
  | [] => none
  | cmd :: args =>
    match c.redirect with
    | none => (S.command fs cmd args).map (fun r => (r.ok, r.files))
    | some r =>
      match fs.openFile r.append (S.expand r.file) with
      | none => some (false, fs)
      | some fs' => (S.command fs' cmd args).map (fun res =>
          (res.ok, res.files.write (S.expand r.file) res.out))

/-- A line is run: a command after `&&` on a success, one after `||` on a
failure of the last one that was run. -/
def line : Bool → Line → Files α → Option (Bool × Files α)
  | ok, [], fs => some (ok, fs)
  | ok, (op, c) :: cs, fs =>
    if ok = decide (op = .andIf) then
      (S.simple fs c).bind (fun r => line r.1 cs r.2)
    else line ok cs fs

/-- **A script is run**, line by line. -/
def run (text : List Char) (fs : Files α) : Option (Files α) := do
  let ls ← parse text
  ls.foldlM (fun fs l => (S.line true l fs).map Prod.snd) fs

end System

/-! ## A host with files of lines -/

/-- `grep`: the lines of a file that match. -/
def grep (matching : List Char → Bool) (fs : Files (List Char)) (p : List Char) :
    Result (List Char) :=
  match fs p with
  | some (.file ls) => ⟨ls.any matching, ls.filter matching, fs⟩
  | _ => ⟨false, [], fs⟩

/-- `echo`: its arguments with a space between them, as lines. -/
def echo (fs : Files (List Char)) (args : List (List Char)) : Result (List Char) :=
  ⟨true, ([' '].intercalate args).splitOn '\n', fs⟩

/-- **A host**: its home directory, and the lines a pattern of `grep`
matches. -/
structure Host where
  home : List Char
  matching : List Char → List Char → Bool

namespace Host

variable (h : Host)

/-- The commands of a host. -/
def command (fs : Files (List Char)) (cmd : List Char) (args : List (List Char)) :
    Option (Result (List Char)) :=
  if cmd = "grep".toList then
    match args with
    | [pattern, p] => some (grep (h.matching pattern) fs p)
    | _ => none
  else if cmd = "echo".toList then some (echo fs args)
  else fileCommand fs cmd args

/-- A host is a system. -/
def system : System (List Char) where
  home := h.home
  command := h.command
  fileCommand_eq {fs cmd args r} hr := by
    have hgrep : cmd ≠ "grep".toList := by
      rintro rfl
      cases hr
    have hecho : cmd ≠ "echo".toList := by
      rintro rfl
      cases hr
    unfold command
    rw [if_neg hgrep, if_neg hecho, hr]

end Host

/-! ## Files and their contents -/

/-- The directory of a file in it. -/
theorem dirname_append_cons (d : List Char) {name : List Char} (hname : '/' ∉ name) :
    dirname (d ++ '/' :: name) = d := by
  have hdrop : (name.reverse ++ '/' :: d.reverse).dropWhile (· ≠ '/') = '/' :: d.reverse := by
    rw [List.dropWhile_append_of_pos fun c hc => ?_]
    · rfl
    · exact decide_eq_true fun h => hname (h ▸ List.mem_reverse.mp hc)
  rw [dirname, List.reverse_append, List.reverse_cons, List.append_assoc, List.singleton_append,
    hdrop, List.drop_one, List.tail_cons, List.reverse_reverse]

namespace Files

variable {α : Type} {fs : Files α} {p q : List Char} {n : Node α}

theorem put_self (fs : Files α) (p : List Char) (n : Node α) : fs.put p n p = some n := by
  rw [put, Function.update_self]

theorem put_of_ne (h : q ≠ p) (fs : Files α) (n : Node α) : fs.put p n q = fs q := by
  rw [put, Function.update_of_ne h]

/-- What is at a path already is put there without effect. -/
theorem put_of_eq (h : fs p = some n) : fs.put p n = fs := by
  rw [put, ← h, Function.update_eq_self]

theorem put_put (fs : Files α) (p : List Char) (n n' : Node α) :
    (fs.put p n).put p n' = fs.put p n' := by
  rw [put, put, put, Function.update_idem]

/-- Output goes to the end of a file. -/
theorem write_of_file (hp : p ≠ devNull) {content : List α} (h : fs p = some (.file content))
    (out : List α) : fs.write p out = fs.put p (.file (content ++ out)) := by
  rw [write, if_neg hp, h]

theorem openFile_devNull (fs : Files α) (append : Bool) : fs.openFile append devNull = some fs :=
  if_pos rfl

/-- A file that is there is opened as it is, to add to it. -/
theorem openFile_of_file (hp : p ≠ devNull) {content : List α}
    (h : fs p = some (.file content)) : fs.openFile true p = some fs := by
  rw [openFile, if_neg hp, h]
  rfl

end Files

/-- One argument is printed as it is. -/
theorem out_echo_singleton (fs : Files (List Char)) (w : List Char) :
    (echo fs [w]).out = w.splitOn '\n' := by
  rw [echo, List.intercalate_singleton]

/-! ## Lines of commands -/

/-- A word that stands for itself. -/
def plainWord (w : List Char) : Word := ⟨false, w⟩

/-- `[ ! -e file ]`. -/
def testMissing (w : Word) : Simple :=
  ⟨[plainWord "[".toList, plainWord "!".toList, plainWord "-e".toList, w,
    plainWord "]".toList], none⟩

/-- `mkdir -p dir`. -/
def mkdirAt (w : Word) : Simple :=
  ⟨[plainWord "mkdir".toList, plainWord "-p".toList, w], none⟩

/-- `touch file`. -/
def touchAt (w : Word) : Simple := ⟨[plainWord "touch".toList, w], none⟩

/-- `chmod mode file`. -/
def chmodTo (mode : List Char) (w : Word) : Simple :=
  ⟨[plainWord "chmod".toList, plainWord mode, w], none⟩

/-- **A line that makes what is missing**, and sets its mode. -/
def makeMissing (w : Word) (make : Simple) (mode : List Char) : Line :=
  [(.andIf, testMissing w), (.andIf, make), (.andIf, chmodTo mode w)]

namespace System

variable {α : Type} {S : System α} {c : Simple} {cs : Line} {fs fs' : Files α} {ok : Bool}

/-- A command whose file is opened is run, and what it prints goes there. -/
theorem simple_of_openFile {w : Word} {ws : List Word} {r : Redirect}
    (hopen : fs.openFile r.append (S.expand r.file) = some fs') :
    S.simple fs ⟨w :: ws, some r⟩
      = (S.command fs' (S.expand w) (ws.map S.expand)).map (fun res =>
        (res.ok, res.files.write (S.expand r.file) res.out)) := by
  rw [simple]
  simp only [List.map_cons, hopen]

/-- A command that looks after files. -/
theorem simple_of_fileCommand {w : Word} {ws : List Word} {r : Result α}
    (h : fileCommand fs (S.expand w) (ws.map S.expand) = some r) :
    S.simple fs ⟨w :: ws, none⟩ = some (r.ok, r.files) := by
  rw [simple]
  simp only [List.map_cons, S.fileCommand_eq h, Option.map_some]

/-- After a success, a command after `&&` is run. -/
theorem line_andIf (hc : S.simple fs c = some (ok, fs')) :
    S.line true ((.andIf, c) :: cs) fs = S.line ok cs fs' := by
  rw [line, if_pos (by decide), hc]
  rfl

/-- After a failure, a command after `||` is run. -/
theorem line_orIf (hc : S.simple fs c = some (ok, fs')) :
    S.line false ((.orIf, c) :: cs) fs = S.line ok cs fs' := by
  rw [line, if_pos (by decide), hc]
  rfl

/-- After a success, a command after `||` is not run. -/
theorem line_orIf_of_ok : S.line true ((.orIf, c) :: cs) fs = S.line true cs fs := by
  rw [line, if_neg nofun]

/-- After a failure, a line of `&&` is left as it is. -/
theorem line_of_failed (hcs : ∀ x ∈ cs, x.1 = .andIf) :
    S.line false cs fs = some (false, fs) := by
  induction cs with
  | nil => rfl
  | cons x cs ih =>
    obtain ⟨op, c⟩ := x
    obtain ⟨hop, hcs⟩ := List.forall_mem_cons.mp hcs
    rw [line, if_neg (by rw [show op = .andIf from hop]; decide)]
    exact ih hcs

theorem simple_testMissing (fs : Files α) (w : Word) :
    S.simple fs (testMissing w) = some ((fs (S.expand w)).isNone, fs) :=
  simple_of_fileCommand (r := ⟨(fs (S.expand w)).isNone, [], fs⟩) rfl

theorem simple_mkdirAt (w : Word) :
    S.simple fs (mkdirAt w)
      = some ((mkdir fs (S.expand w)).ok, (mkdir fs (S.expand w)).files) :=
  simple_of_fileCommand (r := mkdir fs (S.expand w)) rfl

theorem simple_touchAt (w : Word) :
    S.simple fs (touchAt w)
      = some ((touch fs (S.expand w)).ok, (touch fs (S.expand w)).files) :=
  simple_of_fileCommand (r := touch fs (S.expand w)) rfl

theorem simple_chmodTo (fs : Files α) (mode : List Char) (w : Word) :
    S.simple fs (chmodTo mode w) = some ((fs (S.expand w)).isSome, fs) :=
  simple_of_fileCommand (r := ⟨(fs (S.expand w)).isSome, [], fs⟩) rfl

/-- **What is there is left, and what is missing is made.** -/
theorem line_makeMissing {w : Word} {make : Simple} {n : Node α} (mode : List Char)
    (hthere : ∀ m, fs (S.expand w) = some m → m = n)
    (hmake : fs (S.expand w) = none → S.simple fs make = some (true, fs.put (S.expand w) n)) :
    ∃ ok, S.line true (makeMissing w make mode) fs = some (ok, fs.put (S.expand w) n) := by
  have htest := S.simple_testMissing fs w
  cases hw : fs (S.expand w) with
  | none =>
    have hchmod := S.simple_chmodTo (fs.put (S.expand w) n) mode w
    rw [hw] at htest
    rw [Files.put_self] at hchmod
    refine ⟨true, ?_⟩
    rw [makeMissing, line_andIf htest]
    show S.line true _ fs = _
    rw [line_andIf (hmake hw), line_andIf hchmod]
    rfl
  | some m =>
    obtain rfl := hthere m hw
    rw [hw] at htest
    refine ⟨false, ?_⟩
    rw [makeMissing, line_andIf htest, Files.put_of_eq hw]
    exact line_of_failed (by simp)

/-- The directory is there after the line that makes it. -/
theorem line_mkdirAt (w : Word) (mode : List Char)
    (hw : fs (S.expand w) = none ∨ fs (S.expand w) = some .dir) :
    ∃ ok, S.line true (makeMissing w (mkdirAt w) mode) fs
      = some (ok, fs.put (S.expand w) .dir) := by
  refine line_makeMissing mode (fun m hm => ?_) fun hnone => ?_
  · rw [hm] at hw
    exact hw.elim nofun fun h => Option.some.inj h
  · rw [simple_mkdirAt, mkdir, hnone]

/-- The file is there after the line that makes it, with what it held. -/
theorem line_touchAt (w : Word) (mode : List Char) {content : List α}
    (hdir : fs (dirname (S.expand w)) = some .dir)
    (hw : (fs (S.expand w) = none ∧ content = []) ∨ fs (S.expand w) = some (.file content)) :
    ∃ ok, S.line true (makeMissing w (touchAt w) mode) fs
      = some (ok, fs.put (S.expand w) (.file content)) := by
  refine line_makeMissing mode (fun m hm => ?_) fun hnone => ?_
  · rw [hm] at hw
    exact hw.elim (fun h => absurd h.1 nofun) fun h => Option.some.inj h
  · obtain rfl : content = [] := by
      rw [hnone] at hw
      exact hw.elim And.right nofun
    rw [simple_touchAt, touch, hnone, Files.create, hdir]

end System

/-! ## Reading a script in pieces -/

namespace Lexer

/-- A text is read as its two parts are, one after the other. -/
theorem lexFrom_append (s : Lexer) (a b : List Char) :
    s.lexFrom (a ++ b)
      = (s.lexFrom a).bind (fun r => (r.2.lexFrom b).map (fun u => (r.1 ++ u.1, u.2))) := by
  induction a generalizing s with
  | nil =>
    show s.lexFrom b = (s.lexFrom b).map (fun u => u)
    rw [Option.map_id']
  | cons c a ih =>
    rw [List.cons_append, lexFrom, lexFrom, Option.bind_assoc]
    refine congrArg _ (funext fun r => ?_)
    rw [ih, Option.map_bind, Option.bind_map]
    refine congrArg _ (funext fun u => ?_)
    show Option.map _ (Option.map _ _) = Option.map _ _
    rw [Option.map_map]
    refine congrArg (fun f => Option.map f _) (funext fun v => ?_)
    show (_ ++ (_ ++ _), _) = _
    rw [← List.append_assoc]

/-- A part that begins and ends between two tokens. -/
theorem lexFrom_piece {a : List Char} {ts : List Token}
    (h : clean.lexFrom a = some (ts, clean)) (b : List Char) :
    clean.lexFrom (a ++ b) = (clean.lexFrom b).map (fun u => (ts ++ u.1, u.2)) := by
  rw [lexFrom_append, h]
  rfl

/-- Inside of quotes every character but the quote is one of the word. -/
theorem lexFrom_inside {w : List Char} (hw : '\'' ∉ w) (u : Word) (rest : List Char) :
    lexFrom ⟨true, .word u⟩ (w ++ rest)
      = lexFrom ⟨true, .word { u with text := u.text ++ w }⟩ rest := by
  induction w generalizing u with
  | nil => rw [List.nil_append, List.append_nil]
  | cons c w ih =>
    have hc : c ≠ '\'' := fun h => hw (h ▸ List.mem_cons_self)
    have hstep : step ⟨true, .word u⟩ c
        = some ([], ⟨true, .word { u with text := u.text ++ [c] }⟩) := by
      rw [step, if_pos rfl, if_neg hc]
      rfl
    rw [List.cons_append, lexFrom, hstep, Option.bind_some,
      ih fun h => hw (List.mem_cons_of_mem c h), List.append_assoc]
    exact Option.map_id'

/-- **A word in quotes**, with a blank after it. -/
theorem lexFrom_quoted {w : List Char} (hw : '\'' ∉ w) (rest : List Char) :
    clean.lexFrom ('\'' :: (w ++ '\'' :: ' ' :: rest))
      = (clean.lexFrom rest).map (fun u => (.word ⟨false, w⟩ :: u.1, u.2)) := by
  have hopen : clean.lexFrom ('\'' :: (w ++ '\'' :: ' ' :: rest))
      = lexFrom ⟨true, .word ⟨false, []⟩⟩ (w ++ '\'' :: ' ' :: rest) := Option.map_id'
  rw [hopen, lexFrom_inside hw, List.nil_append]
  show ((clean.lexFrom rest).map (fun u => ([.word ⟨false, w⟩] ++ u.1, u.2))).map
    (fun u => ([] ++ u.1, u.2)) = _
  rw [Option.map_map]
  rfl

/-- What a plain character can do: at the start of a word a sharp sign is not
understood, and a tilde is the home directory. -/
theorem step_plain {c : Char} (hc : Plain c) (p : Pending) :
    step ⟨false, p⟩ c
      = if p = .nothing ∧ c = '#' then none
        else if p = .nothing ∧ c = '~' then next ⟨false, p⟩ (.word ⟨true, []⟩)
        else push ⟨false, p⟩ c := by
  have hbracket : c ≠ '[' := hc.ne_of_special (by decide)
  rw [step, if_neg (by simp), if_neg (by simp [hc.1]), if_neg (hc.ne_of_special (by decide)),
    if_neg hc.ne_quote, if_neg (hc.ne_of_special (by decide)),
    if_neg (hc.ne_of_special (by decide)), if_neg (hc.ne_of_special (by decide)),
    if_neg (by simp [hbracket]), if_neg (by simp [hc.2])]

/-- A plain character goes on with a word. -/
theorem step_word {c : Char} (hc : Plain c) (u : Word) :
    step ⟨false, .word u⟩ c = some ([], ⟨false, .word { u with text := u.text ++ [c] }⟩) := by
  rw [step_plain hc, if_neg (by simp), if_neg (by simp)]
  rfl

/-- A plain character begins a word, but for a sharp sign and a tilde. -/
theorem step_clean {c : Char} (hc : Plain c) (hsharp : c ≠ '#') (htilde : c ≠ '~') :
    clean.step c = some ([], ⟨false, .word ⟨false, [c]⟩⟩) := by
  rw [clean, step_plain hc, if_neg (by simp [hsharp]), if_neg (by simp [htilde])]
  rfl

/-- Plain characters go on with a word. -/
theorem lexFrom_plain {w : List Char} (hw : AllPlain w) (u : Word) (rest : List Char) :
    lexFrom ⟨false, .word u⟩ (w ++ rest)
      = lexFrom ⟨false, .word { u with text := u.text ++ w }⟩ rest := by
  induction w generalizing u with
  | nil => rw [List.nil_append, List.append_nil]
  | cons c w ih =>
    obtain ⟨hc, hw⟩ := List.forall_mem_cons.mp hw
    rw [List.cons_append, lexFrom, step_word hc, Option.bind_some, ih hw, List.append_assoc]
    exact Option.map_id'

/-- **A plain word** is read up to what follows it. -/
theorem lexFrom_isWord {w : List Char} (hw : IsWord w) (rest : List Char) :
    clean.lexFrom (w ++ rest) = lexFrom ⟨false, .word ⟨false, w⟩⟩ rest := by
  cases w with
  | nil => exact absurd rfl hw.ne_nil
  | cons c w =>
    obtain ⟨hc, hplain⟩ := List.forall_mem_cons.mp hw.plain
    have hsharp : c ≠ '#' := fun h => hw.head_ne_sharp (congrArg some h)
    have htilde : c ≠ '~' := fun h => hw.head_ne_tilde (congrArg some h)
    rw [List.cons_append, lexFrom, step_clean hc hsharp htilde, Option.bind_some,
      lexFrom_plain hplain]
    exact Option.map_id'

/-- A plain word with a blank after it. -/
theorem lexFrom_word_blank {w : List Char} (hw : IsWord w) (rest : List Char) :
    clean.lexFrom (w ++ ' ' :: rest)
      = (clean.lexFrom rest).map (fun u => (.word ⟨false, w⟩ :: u.1, u.2)) :=
  lexFrom_isWord hw (' ' :: rest)

/-- A plain word at the end of a line. -/
theorem lexFrom_word_newline {w : List Char} (hw : IsWord w) (rest : List Char) :
    clean.lexFrom (w ++ '\n' :: rest)
      = (clean.lexFrom rest).map (fun u => (.word ⟨false, w⟩ :: .newline :: u.1, u.2)) :=
  lexFrom_isWord hw ('\n' :: rest)

/-- Plain words with blanks between them, and after them. -/
theorem lexFrom_words_blank {ws : List (List Char)} (hws : ∀ w ∈ ws, IsWord w) (hne : ws ≠ [])
    (rest : List Char) :
    clean.lexFrom ([' '].intercalate ws ++ ' ' :: rest)
      = (clean.lexFrom rest).map (fun u => (ws.map (fun w => .word ⟨false, w⟩) ++ u.1, u.2)) := by
  induction ws with
  | nil => exact absurd rfl hne
  | cons w ws ih =>
    obtain ⟨hw, hws⟩ := List.forall_mem_cons.mp hws
    cases ws with
    | nil =>
      rw [List.intercalate_singleton]
      exact lexFrom_word_blank hw rest
    | cons w' ws =>
      have hcons : [' '].intercalate (w :: w' :: ws) ++ ' ' :: rest
          = w ++ ' ' :: ([' '].intercalate (w' :: ws) ++ ' ' :: rest) := by
        rw [List.intercalate_cons_cons, List.append_assoc, List.append_assoc]
        rfl
      rw [hcons, lexFrom_word_blank hw, ih hws (List.cons_ne_nil w' ws), Option.map_map]
      rfl

end Lexer

/-- Words are read into the command they belong to. -/
theorem parseLine_words (op : Op) (ws us : List Word) (ts : List Token) :
    parseLine op ws none (us.map .word ++ ts) = parseLine op (ws ++ us) none ts := by
  induction us generalizing ws with
  | nil => rw [List.map_nil, List.nil_append, List.append_nil]
  | cons u us ih =>
    rw [List.map_cons, List.cons_append, parseLine, if_pos rfl, ih, List.append_assoc]
    rfl

/-- A blank at the end of a text says nothing. -/
theorem tokens_append_blank (text : List Char) : tokens (text ++ [' ']) = tokens text := by
  simp only [tokens, Lexer.lexFrom_append, Option.bind_eq_bind, Option.bind_assoc]
  refine congrArg _ (funext fun r => ?_)
  obtain ⟨ts, q, p⟩ := r
  cases q with
  | true => cases p <;> rfl
  | false => cases p <;> simp [Lexer.lexFrom, Lexer.step, Lexer.next, Pending.close, blank]

theorem System.run_append_blank {α : Type} (S : System α) (text : List Char) (fs : Files α) :
    S.run (text ++ [' ']) fs = S.run text fs := by
  rw [run, run, parse, parse, tokens_append_blank]

end Shell
