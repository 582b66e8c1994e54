import Sesh.Runs
import Sesh.Scanner
import Sesh.Text

/-!
# The host list

Hosts come from a file, from the command line or from standard input, as
one text in which spaces, line breaks, tabs and commas separate them
(`hlp.go`). Nothing else is looked at: a host may repeat, and may hold any
other character.

Three replacements, a split at spaces and a filter amount to one tokenizer
(`parseHostsFromString_eq_tokens`), so the hosts are the maximal runs of
characters that are not separators (`parse_hosts_grammar`). A carriage
return is such a character: it belongs to the host it follows, or is a host
of its own, and a text whose lines end in one has other hosts as soon as it
has a line end (`crlf_same_hosts_iff`).
-/

/-- `parseHostsFromString`: every separator becomes a space, and the pieces
between spaces that are not empty are the hosts. -/
def parseHostsFromString (text : GoString) : List GoString :=
  let text := Strings.replaceChar '\n' ' ' text
  let text := Strings.replaceChar '\t' ' ' text
  let text := Strings.replaceChar ',' ' ' text
  let raw := text.splitOn ' '
  raw.filter (fun h => h ≠ [' '] ∧ h ≠ [])

/-! ## One tokenizer -/

/-- The characters that separate hosts. -/
def isSeparator (c : Char) : Bool := c = ' ' || c = '\n' || c = '\t' || c = ','

/-- What the three replacements make of a character. -/
def spaced (c : Char) : Char := if isSeparator c then ' ' else c

theorem replaceChar_eq_map_spaced (text : GoString) :
    Strings.replaceChar ',' ' ' (Strings.replaceChar '\t' ' '
      (Strings.replaceChar '\n' ' ' text)) = text.map spaced := by
  unfold Strings.replaceChar
  rw [List.map_map, List.map_map]
  refine List.map_congr_left fun c _ => ?_
  by_cases h₁ : c = '\n'
  · rw [h₁]
    decide
  · by_cases h₂ : c = '\t'
    · rw [h₂]
      decide
    · by_cases h₃ : c = ','
      · rw [h₃]
        decide
      · simp [spaced, isSeparator, h₁, h₂, h₃]

theorem spaced_of_separator {c : Char} (h : isSeparator c = true) : spaced c = ' ' :=
  if_pos h

theorem spaced_of_not {c : Char} (h : isSeparator c = false) : spaced c = c := by
  rw [spaced, h]
  rfl

theorem ne_space_of_not {c : Char} (h : isSeparator c = false) : c ≠ ' ' := by
  rintro rfl
  exact absurd h (by decide)

/-- To split at the spaces that stand for separators is to split at the
separators. -/
theorem splitOn_map_spaced (text : GoString) :
    (text.map spaced).splitOn ' ' = text.splitOnP isSeparator := by
  rw [List.splitOn_eq_splitOnP]
  induction text with
  | nil => rfl
  | cons c text ih =>
    rw [List.map_cons, List.splitOnP_cons_eq_if_modifyHead,
      List.splitOnP_cons_eq_if_modifyHead, ih]
    cases hc : isSeparator c with
    | true =>
      rw [spaced_of_separator hc]
      rfl
    | false =>
      rw [spaced_of_not hc, if_neg (by simpa using ne_space_of_not hc), if_neg nofun]

/-- **The hosts are the tokens of the text.** -/
theorem parseHostsFromString_eq_tokens (text : GoString) :
    parseHostsFromString text = Runs.tokens isSeparator text := by
  unfold parseHostsFromString Runs.tokens
  dsimp only
  rw [replaceChar_eq_map_spaced, splitOn_map_spaced]
  refine List.filter_congr fun h hh => ?_
  have hspace : h ≠ [' '] := by
    rintro rfl
    have hfree := Runs.free_of_mem_splitOnP hh ' ' List.mem_cons_self
    exact absurd hfree (by decide)
  cases h with
  | nil => rfl
  | cons c h => simp [hspace]

/-- **The hosts are the maximal runs of characters that are not
separators**, in order and with repetitions. So no host is empty or has a
separator in it, any separators between two texts divide their hosts, and
hosts with separators between them are given back – whatever stands before
the first, and after the last. -/
theorem parse_hosts_grammar :
    (∀ text, Runs.Lists isSeparator text (parseHostsFromString text))
    ∧ (∀ text, ∀ h ∈ parseHostsFromString text, h ≠ [] ∧ ∀ c ∈ h, isSeparator c = false)
    ∧ (∀ a s b : GoString, s ≠ [] → (∀ c ∈ s, isSeparator c = true) →
      parseHostsFromString (a ++ s ++ b) = parseHostsFromString a ++ parseHostsFromString b)
    ∧ (∀ (lead : GoString) (hosts : List (GoString × GoString)),
      (∀ c ∈ lead, isSeparator c = true) →
      (∀ p ∈ hosts, p.1 ≠ [] ∧ ∀ c ∈ p.1, isSeparator c = false) →
      (∀ p ∈ hosts, ∀ c ∈ p.2, isSeparator c = true) →
      (∀ p ∈ hosts.dropLast, p.2 ≠ []) →
      parseHostsFromString (lead ++ hosts.flatMap (fun p => p.1 ++ p.2))
        = hosts.map Prod.fst) := by
  refine ⟨fun text => ?_, fun text h hh => ?_, fun a s b hne hs => ?_,
    fun lead hosts hlead hrun hsep hne => ?_⟩
  · rw [parseHostsFromString_eq_tokens]
    exact Runs.lists_tokens text
  · rw [parseHostsFromString_eq_tokens] at hh
    exact ⟨Runs.ne_nil_of_mem_tokens hh, Runs.free_of_mem_tokens hh⟩
  · simp only [parseHostsFromString_eq_tokens]
    rw [List.append_assoc, Runs.tokens_append_append hne hs]
  · rw [parseHostsFromString_eq_tokens, Runs.tokens_append_of_sep hlead,
      Runs.tokens_flatMap hrun hsep hne]

example : parseHostsFromString "a,b\t,\nc d ".toList
    = ["a".toList, "b".toList, "c".toList, "d".toList] := by decide

/-! ## Line ends -/

/-- **Line ends with a carriage return leave the hosts as they are exactly
where there is no line end.** -/
theorem crlf_same_hosts_iff (text : GoString) (htext : '\r' ∉ text) :
    parseHostsFromString (textLines.crlf text) = parseHostsFromString text
      ↔ '\n' ∉ text := by
  rw [parseHostsFromString_eq_tokens, parseHostsFromString_eq_tokens]
  constructor
  · intro heq hnl
    -- the carriage return is in some host, and was in none
    have hmem : '\r' ∈ textLines.crlf text := LineFormat.carriage_mem_crlf hnl
    obtain ⟨w, hw, hcr⟩ := Runs.exists_mem_tokens hmem
      (show isSeparator '\r' = false by decide)
    rw [heq] at hw
    exact htext (Runs.mem_of_mem_tokens hw hcr)
  · intro hnl
    rw [LineFormat.crlf_of_notMem hnl]

theorem crlf_same_hosts_one_line :
    '\r' ∉ "a, b".toList
    ∧ (parseHostsFromString (textLines.crlf "a, b".toList) = parseHostsFromString "a, b".toList
      ↔ '\n' ∉ "a, b".toList) :=
  ⟨by decide, crlf_same_hosts_iff "a, b".toList (by decide)⟩

/-- A carriage return is glued to the host before it, and is a host of its
own on an empty line. -/
theorem crlf_other_hosts :
    '\r' ∉ "a\n\nb\n".toList
    ∧ parseHostsFromString "a\n\nb\n".toList = ["a".toList, "b".toList]
    ∧ parseHostsFromString (textLines.crlf "a\n\nb\n".toList)
      = ["a\r".toList, "\r".toList, "b\r".toList] := by
  decide
