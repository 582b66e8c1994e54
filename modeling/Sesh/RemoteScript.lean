import Sesh.HereDoc
import Sesh.Text

/-!
# The script a host is sent

What a task runs on its host is not always the command itself
(`format_cmd`, `util/helper.go`). With arguments, the command is put into a
file on the host, which is run with them and removed; the place of the file
among the arguments is that of their first `{}`, or before them. Without
arguments, a command that begins with `#!` is piped into the interpreter it
names. In both cases the command travels in a here-document, whose delimiter
is made of the clock.

The command arrives as it is, with one newline more, exactly if the
delimiter is not one of its lines (`script_carries_command`).
-/

/-- The delimiter of the here-document, by the clock in milliseconds. -/
def eofStr (ms : ℤ) : GoString := 'E' :: showInt ms ++ "OF".toList

/-- The file the command is put into, by the clock in nanoseconds. -/
def scriptFile (ns : ℤ) : GoString := "/tmp/sesh-".toList ++ showInt ns

/-- The braces that stand for the file of the command. -/
def fileMark : GoString := "\x7b\x7d".toList

/-- The arguments once the file of the command has its place. -/
def placeFile (tmp args : GoString) : GoString :=
  if Strings.contains args fileMark then Strings.replaceFirst fileMark tmp args
  else tmp ++ ' ' :: args

/-- `format_cmd`: what a host is sent, the clock reading `ms` milliseconds
when the delimiter is made and `ns` nanoseconds when the file is named. -/
def formatCmd (cmd args : GoString) (ms ns : ℤ) : GoString :=
  if args ≠ [] then
    let tmp := scriptFile ns
    "(cat > ".toList ++ tmp ++ "  <<\\".toList ++ eofStr ms ++ '\n' :: (cmd
      ++ '\n' :: (eofStr ms ++ '\n' :: (") && chmod +x ".toList ++ tmp ++ " && (".toList
      ++ placeFile tmp args ++ ") ; rm -f ".toList ++ tmp)))
  else if Strings.hasPrefix cmd "#!".toList then
    let exe := Strings.trimNewlines ((Buffer.readLine cmd).drop 2)
    "(cat <<\\".toList ++ eofStr ms ++ '\n' :: (cmd
      ++ '\n' :: (eofStr ms ++ '\n' :: (") |".toList ++ exe)))
  else cmd

example : formatCmd "ls".toList "sh \x7b\x7d \x7b\x7d".toList 7 9
    = "(cat > /tmp/sesh-9  <<\\E7OF\nls\nE7OF\n) && chmod +x /tmp/sesh-9".toList
      ++ " && (sh /tmp/sesh-9 \x7b\x7d) ; rm -f /tmp/sesh-9".toList := by decide +kernel

/-- **How the file of the command is called**: in the place of the first
`{}` of the arguments, and of no other one, or else before them. -/
inductive Invokes (tmp args : GoString) : GoString → Prop
  | mark {a b} (h : Strings.FirstAt fileMark args a b) : Invokes tmp args (a ++ tmp ++ b)
  | front (h : ¬ fileMark <:+: args) : Invokes tmp args (tmp ++ ' ' :: args)

theorem invokes_placeFile (tmp args : GoString) : Invokes tmp args (placeFile tmp args) := by
  by_cases h : fileMark <:+: args
  · obtain ⟨a, b, hat, heq⟩ := Strings.exists_replaceFirst h tmp
    rw [placeFile, if_pos (Strings.contains_iff.mpr h), heq]
    exact .mark hat
  · rw [placeFile, if_neg (fun hc => h (Strings.contains_iff.mp hc))]
    exact .front h

/-! ## The line of the here-document -/

/-- The text of an integer has nothing in it that a shell would act on. -/
theorem allPlain_showInt (z : ℤ) : Shell.AllPlain (showInt z) := by
  have hnat : ∀ n : ℕ, Shell.AllPlain (showNat n) := fun n c hc =>
    Shell.plain_of_isDigit (Nat.isDigit_of_mem_toDigits (by decide) (by decide) hc)
  unfold showInt
  split
  · exact List.forall_mem_cons.mpr ⟨by decide, hnat _⟩
  · exact hnat _

theorem allPlain_eofStr (ms : ℤ) : Shell.AllPlain (eofStr ms) := by
  refine Shell.allPlain_append.mpr ⟨List.forall_mem_cons.mpr ⟨by decide, ?_⟩, by decide⟩
  exact allPlain_showInt ms

theorem allPlain_scriptFile (ns : ℤ) : Shell.AllPlain (scriptFile ns) :=
  Shell.allPlain_append.mpr ⟨by decide, allPlain_showInt ns⟩

/-- **What a here-document of the program carries**: `line` is the line of
its command up to the delimiter. -/
theorem read_document {line : GoString} (hline : '\n' ∉ line) (hredirect : '<' ∉ line)
    (ms : ℤ) (cmd rest : GoString) :
    HereDoc.read (line ++ "<<\\".toList ++ eofStr ms ++ '\n' :: (cmd
        ++ '\n' :: (eofStr ms ++ '\n' :: rest)))
        = some ⟨eofStr ms, cmd ++ ['\n'], rest⟩
      ↔ eofStr ms ∉ cmd.splitOn '\n' := by
  have hD : '\n' ∉ eofStr ms := (allPlain_eofStr ms).notMem (by decide)
  refine HereDoc.read_iff ?_ ?_ hD cmd rest
  · simp only [List.mem_append, not_or]
    exact ⟨⟨hline, by decide⟩, hD⟩
  · rw [List.append_assoc]
    exact HereDoc.delimiter_append hredirect (allPlain_eofStr ms)

/-- The interpreter a command names is the rest of its first line. -/
theorem trimNewlines_readLine (rest : GoString) :
    Strings.trimNewlines ((Buffer.readLine ("#!".toList ++ rest)).drop 2)
      = rest.takeWhile (· ≠ '\n') := by
  have hline : (Buffer.readLine ("#!".toList ++ rest)).drop 2 = Buffer.readLine rest := rfl
  have hend : ∀ u : GoString, '\n' ∉ u → Strings.trimNewlines u = u := by
    intro u hu
    refine List.rdropWhile_eq_self_iff.mpr fun hne hlast => hu ?_
    rw [← of_decide_eq_true hlast]
    exact List.getLast_mem hne
  have hfirst : '\n' ∉ rest.takeWhile (· ≠ '\n') := fun hmem =>
    absurd (List.mem_takeWhile_imp hmem) (by decide)
  rw [hline, Buffer.readLine]
  cases hdrop : rest.dropWhile (· ≠ '\n') with
  | nil => rw [List.take_nil, List.append_nil, hend _ hfirst]
  | cons c u =>
    have hc : c = '\n' := by
      have hhead := List.head?_dropWhile_not (· ≠ '\n') rest
      rw [hdrop] at hhead
      simpa using hhead
    rw [hc]
    show Strings.trimNewlines (rest.takeWhile (· ≠ '\n') ++ ['\n']) = _
    rw [Strings.trimNewlines, List.rdropWhile_concat_pos _ _ _ (by decide)]
    exact hend _ hfirst

/-- **The script carries the command intact**: read by a shell, the
here-document is the command and one newline, and what follows it is the
rest of the script, exactly if the delimiter is not a line of the command.
This holds of the script for a command with arguments, and of the one for a
command that names its interpreter. -/
theorem script_carries_command (cmd args : GoString) (ms ns : ℤ) :
    (args ≠ [] → ∃ call, Invokes (scriptFile ns) args call
      ∧ (HereDoc.read (formatCmd cmd args ms ns)
          = some ⟨eofStr ms, cmd ++ ['\n'],
            ") && chmod +x ".toList ++ scriptFile ns ++ " && (".toList ++ call
              ++ ") ; rm -f ".toList ++ scriptFile ns⟩
        ↔ eofStr ms ∉ cmd.splitOn '\n'))
    ∧ ∀ rest, cmd = "#!".toList ++ rest →
      (HereDoc.read (formatCmd cmd [] ms ns)
          = some ⟨eofStr ms, cmd ++ ['\n'],
            ") |".toList ++ rest.takeWhile (· ≠ '\n')⟩
        ↔ eofStr ms ∉ cmd.splitOn '\n') := by
  constructor
  · intro hargs
    refine ⟨_, invokes_placeFile (scriptFile ns) args, ?_⟩
    have hfile : ∀ c, Shell.special c = true → c ∉ scriptFile ns := fun c =>
      (allPlain_scriptFile ns).notMem
    have hmem : ∀ c, Shell.special c = true → c ∉ "(cat > ".toList → c ∉ "  ".toList →
        c ∉ "(cat > ".toList ++ scriptFile ns ++ "  ".toList := by
      intro c hc h₁ h₂
      simp only [List.mem_append, not_or]
      exact ⟨⟨h₁, hfile c hc⟩, h₂⟩
    have hread := read_document (hmem '\n' (by decide) (by decide) (by decide))
      (hmem '<' (by decide) (by decide) (by decide)) ms cmd
      (") && chmod +x ".toList ++ scriptFile ns ++ " && (".toList
        ++ placeFile (scriptFile ns) args ++ ") ; rm -f ".toList ++ scriptFile ns)
    rw [List.append_assoc _ "  ".toList] at hread
    rw [formatCmd, if_pos hargs]
    exact hread
  · rintro rest rfl
    have hline : '\n' ∉ "(cat ".toList := by decide
    have hread := read_document hline (by decide) ms ("#!".toList ++ rest)
      (") |".toList ++ rest.takeWhile (· ≠ '\n'))
    have hpre : Strings.hasPrefix ("#!".toList ++ rest) "#!".toList = true :=
      decide_eq_true ⟨rest, rfl⟩
    rw [formatCmd, if_neg (not_not_intro rfl), if_pos hpre, trimNewlines_readLine]
    exact hread

/-- A command of one line, run with arguments. -/
theorem script_carries_ls :
    ∃ call, Invokes (scriptFile 9) "sh \x7b\x7d a".toList call
      ∧ HereDoc.read (formatCmd "ls".toList "sh \x7b\x7d a".toList 7 9)
          = some ⟨eofStr 7, "ls\n".toList,
            ") && chmod +x ".toList ++ scriptFile 9 ++ " && (".toList ++ call
              ++ ") ; rm -f ".toList ++ scriptFile 9⟩ := by
  obtain ⟨call, hcall, hread⟩ :=
    (script_carries_command "ls".toList "sh \x7b\x7d a".toList 7 9).1 (by decide)
  exact ⟨call, hcall, hread.mpr (by decide)⟩
