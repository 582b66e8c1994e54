import Sesh.Main

/-!
# Commands that are not templates

The command is read as a template, and a template may be malformed: a tag
that is opened and not closed, for example. The template engine tells its
caller by what it returns, not by an error – `mustache.Render` has a text as
its only result, and for a template that does not parse this is the text of
the parse error. An engine is modelled by what its parser does
(`Mustache`), and `Render` is built from that.

Nothing between the engine and the hosts asks again. `ParseFromString`
returns a nil error whatever it is given, so `main` takes the text of the
parse error for the command (`SeshFlags.getCommand_of_malformed`), and runs
it. A malformed template is never refused: not by the two functions of
`templ.go`, and not by `main` (`malformed_refused_iff`).
-/

/-- **A template engine**: what its parser makes of a text, the text of an
error or what the template renders to. -/
structure Mustache where
  parse : GoString → Except GoString (TemplateData → GoString)

namespace Mustache

variable (lib : Mustache)

/-- `mustache.Render`: the text of the parse error where there is one. -/
def render : Render := fun text data =>
  match lib.parse text with
  | .error err => err
  | .ok template => template data

/-- A text the parser accepts. -/
def WellFormed (text : GoString) : Prop := ∃ template, lib.parse text = .ok template

variable {lib}

theorem exists_error_of_not_wellFormed {text : GoString} (h : ¬ lib.WellFormed text) :
    ∃ err, lib.parse text = .error err := by
  cases hparse : lib.parse text with
  | error err => exact ⟨err, rfl⟩
  | ok template => exact absurd ⟨template, hparse⟩ h

end Mustache

/-! ## The two functions -/

/-- **`ParseFromString` never fails.** -/
theorem parseFromString_ne_error (render : Render) (cmd : GoString) (data : TemplateData)
    (err : GoString) : parseFromString render cmd data ≠ .error err :=
  nofun

/-- **`ParseFromFiles` fails only where the file cannot be read.** -/
theorem parseFromFiles_ne_error {readFile : ReadFile} {fn buf : GoString}
    (h : readFile fn = .ok buf) (render : Render) (data : TemplateData) (err : GoString) :
    parseFromFiles readFile render fn data ≠ .error err := by
  rw [parseFromFiles, h]
  exact parseFromString_ne_error render buf data err

/-! ## The command -/

namespace SeshFlags

/-- The flags once `main` has filled in what was not given. -/
def complete (options : SeshFlags) (env : MainEnv) (keyfile : GoString) : SeshFlags :=
  { options with
    timeout := if options.timeout < 1 then 5 else options.timeout
    user := options.getUser env
    keyfile := keyfile }

/-- **The text `main` hands to the template engine**: the words of the
command line, each with a space after it, or the content of the command
file. -/
inductive CommandText (options : SeshFlags) (env : MainEnv) : GoString → Prop
  | inline {words} (hgiven : ¬ (options.cmd = [] ∧ options.cmdfile = []))
      (hauth : options.expandAuth env = (words, [])) :
    CommandText options env (words.flatMap (· ++ [' ']))
  | file {words fn text} (hgiven : ¬ (options.cmd = [] ∧ options.cmdfile = []))
      (hauth : options.expandAuth env = (words, fn)) (hfn : fn ≠ [])
      (hexist : env.notExist fn = false) (hread : env.readFile fn = .ok text) :
    CommandText options env text

variable {options : SeshFlags} {env : MainEnv} {text : GoString}

/-- **What the engine returns is the command.** -/
theorem getCommand_of_commandText (h : options.CommandText env text) :
    options.getCommand env = .ok (env.render text (parseData options.data)) := by
  cases h with
  | inline hgiven hauth =>
    rw [getCommand, if_neg hgiven, hauth]
    rfl
  | file hgiven hauth hfn hexist hread =>
    rw [getCommand, if_neg hgiven, hauth]
    simp only [hfn, hexist, hread, parseFromFiles, parseFromString, ne_eq, not_false_eq_true,
      if_true, if_false, Bool.false_eq_true]

/-- **The text of a parse error becomes the command.** -/
theorem getCommand_of_malformed {lib : Mustache} (hlib : env.render = lib.render)
    (h : options.CommandText env text) (hbad : ¬ lib.WellFormed text) :
    ∃ err, lib.parse text = .error err ∧ options.getCommand env = .ok err := by
  obtain ⟨err, herr⟩ := Mustache.exists_error_of_not_wellFormed hbad
  refine ⟨err, herr, ?_⟩
  rw [getCommand_of_commandText h, hlib, Mustache.render, herr]

end SeshFlags

/-! ## The run -/

/-- A world in which every file holds `text` and nothing fails. -/
def fileEnv (lib : Mustache) (text : GoString) : MainEnv :=
  { failingEnv with
    readFile _ := .ok text
    render := lib.render
    mkdir _ := true
    rsync _ := .ok }

/-- The flags that run a command file on one host. -/
def fileFlags (datas : List GoString) : SeshFlags :=
  { SeshFlags.default with
    hostlist := "a".toList
    keyfile := "k".toList
    cmdfile := "f".toList
    data := datas }

/-- **Whatever is in the command file, it is run**: a task is started on the
host. -/
theorem main_fileEnv (lib : Mustache) (text : GoString) (datas : List GoString)
    (sched : MainSchedule) :
    ∃ c, Sesh.main (fileFlags datas) (fileEnv lib text) sched 1 = some c
      ∧ c.started = [0] :=
  ⟨_, rfl, rfl⟩

/-- **No run of `main` that hands `text` to the engine starts a task**, the
`-d` entries being `datas`. -/
def Mustache.StartsNothing (lib : Mustache) (text : GoString) (datas : List GoString) : Prop :=
  ∀ (options : SeshFlags) (env : MainEnv) (keyfile : GoString),
    env.render = lib.render → options.data = datas → ¬ options.Sends →
    options.getKeyfile env = .ok keyfile →
    (options.complete env keyfile).CommandText env text →
    ∀ sched fuel c, Sesh.main options env sched fuel = some c → c.started = []

/-- There is a run of `main` that starts a task for whatever text. -/
theorem not_startsNothing (lib : Mustache) (text : GoString) (datas : List GoString) :
    ¬ lib.StartsNothing text datas := by
  intro h
  obtain ⟨c, hmain, hstarted⟩ := main_fileEnv lib text datas ⟨fun _ _ => [], []⟩
  have htext : ((fileFlags datas).complete (fileEnv lib text) "k".toList).CommandText
      (fileEnv lib text) text :=
    .file nofun rfl (List.cons_ne_nil 'f' []) rfl rfl
  have hnil := h (fileFlags datas) (fileEnv lib text) "k".toList rfl rfl (fun hs => hs.1 rfl)
    rfl htext _ _ c hmain
  rw [hstarted] at hnil
  cases hnil

/-- What no text has, the malformed ones have exactly if there are none. -/
theorem not_imp_iff_of_not {p q : Prop} (hq : ¬ q) : (¬ p → q) ↔ p :=
  ⟨fun h => by_contra fun hp => hq (h hp), fun hp hn => absurd hp hn⟩

/-- **A malformed template is refused exactly if it is not malformed.** For
every engine, text and `-d` entries, each of the three things that would keep
a malformed template from the hosts – the error of `ParseFromString`, that of
`ParseFromFiles`, and `main` starting no task – is there for the text just in
case it is well formed, and nothing has to be refused. -/
theorem malformed_refused_iff (lib : Mustache) (text : GoString) (datas : List GoString) :
    ((¬ lib.WellFormed text →
        ∃ err, parseFromString lib.render text (parseData datas) = .error err)
      ↔ lib.WellFormed text)
    ∧ ((¬ lib.WellFormed text → ∀ (readFile : ReadFile) (fn : GoString),
        readFile fn = .ok text →
          ∃ err, parseFromFiles readFile lib.render fn (parseData datas) = .error err)
      ↔ lib.WellFormed text)
    ∧ ((¬ lib.WellFormed text → lib.StartsNothing text datas) ↔ lib.WellFormed text) := by
  refine ⟨not_imp_iff_of_not ?_, not_imp_iff_of_not ?_,
    not_imp_iff_of_not (not_startsNothing lib text datas)⟩
  · rintro ⟨err, herr⟩
    exact parseFromString_ne_error _ _ _ _ herr
  · intro h
    obtain ⟨err, herr⟩ := h (fun _ => .ok text) [] rfl
    exact parseFromFiles_ne_error rfl _ _ _ herr

/-- An engine that knows tags by their braces only: a text with an opening
tag and no closing one does not parse. -/
def bracesOnly : Mustache where
  parse text :=
    if Strings.contains text "\x7b\x7b".toList ∧ ¬ Strings.contains text "\x7d\x7d".toList then
      .error "line 1: unmatched open tag".toList
    else .ok (fun _ => text)

/-- A command with a tag that is not closed: the text of the parse error is
run on the host. -/
theorem malformed_command_runs :
    ¬ bracesOnly.WellFormed "echo \x7b\x7bname ".toList
    ∧ ∃ c config,
      SeshFlags.plan { SeshFlags.default with
          hostlist := "a".toList, keyfile := "k".toList, cmd := ["echo \x7b\x7bname".toList] }
        (fileEnv bracesOnly []) = .ok (["a".toList], .run config)
      ∧ config.cmd = "line 1: unmatched open tag".toList
      ∧ Sesh.main { SeshFlags.default with
          hostlist := "a".toList, keyfile := "k".toList, cmd := ["echo \x7b\x7bname".toList] }
        (fileEnv bracesOnly []) ⟨fun _ _ => [], []⟩ 1 = some c
      ∧ c.started = [0] := by
  refine ⟨?_, _, _, rfl, rfl, rfl, rfl⟩
  rintro ⟨template, h⟩
  cases h
