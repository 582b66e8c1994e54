import Mathlib.Data.List.Basic

/-!
# The words of a shell command

How a shell reads a simple command: words are separated by blanks, single
quotes take what is between them as it is, and a sharp sign where a word
could start makes a comment of the rest.

Everything else that means something to a shell – other quotes, expansions,
patterns, operators, a tilde at the start of a word – is outside of what is
read here, and a text with such a character out of quotes has no words
(`Shell.words` is `none`): what it does depends on the environment, or is
not one command.

`Shell.words_word_blank` and `Shell.words_word` say how words made of plain
characters are read, and `Shell.words_of_no_blank` what a text without
blanks can be read as.
-/

namespace Shell

/-- A blank separates words. -/
def blank (c : Char) : Bool := c = ' ' || c = '\t'

/-- The characters that mean something to a shell wherever they stand out of
quotes, other than blanks. -/
def special (c : Char) : Bool :=
  decide (c ∈ "\n\x00\"'\\$\x60;&|<>()*?[\x7b".toList)

/-- A shell reads on: `quoted` inside of quotes, `cur` being the word that
was begun. -/
def lex : Bool → Option (List Char) → List Char → Option (List (List Char))
  | true, _, [] => none
  | false, cur, [] => some cur.toList
  | true, cur, c :: s =>
    if c = '\'' then lex false cur s else lex true (some (cur.getD [] ++ [c])) s
  | false, cur, c :: s =>
    if blank c then (lex false none s).map (fun ws => cur.toList ++ ws)
    else if c = '\'' then lex true (some (cur.getD [])) s
    else if special c then none
    else if cur = none ∧ c = '#' then some []
    else if cur = none ∧ c = '~' then none
    else lex false (some (cur.getD [] ++ [c])) s

/-- **The words of a command**, `none` where it is not a simple one. -/
def words (s : List Char) : Option (List (List Char)) := lex false none s

/-- A character that stands for itself inside of a word. -/
def Plain (c : Char) : Prop := blank c = false ∧ special c = false

instance : DecidablePred Plain := fun _ => inferInstanceAs (Decidable (_ ∧ _))

/-- A text of plain characters. -/
def AllPlain (s : List Char) : Prop := ∀ c ∈ s, Plain c

instance : DecidablePred AllPlain := fun _ => List.decidableBAll Plain _

/-- **A text that is read as one word, as it stands.** -/
structure IsWord (w : List Char) : Prop where
  ne_nil : w ≠ []
  plain : AllPlain w
  head_ne_sharp : w.head? ≠ some '#'
  head_ne_tilde : w.head? ≠ some '~'

instance : DecidablePred IsWord := fun w =>
  decidable_of_iff (w ≠ [] ∧ AllPlain w ∧ w.head? ≠ some '#' ∧ w.head? ≠ some '~')
    ⟨fun ⟨h₁, h₂, h₃, h₄⟩ => ⟨h₁, h₂, h₃, h₄⟩, fun h => ⟨h.1, h.2, h.3, h.4⟩⟩

/-- A plain character is none that means something to a shell. -/
theorem Plain.ne_of_special {c d : Char} (hc : Plain c) (hd : special d = true) : c ≠ d := by
  rintro rfl
  rw [hc.2] at hd
  cases hd

theorem Plain.ne_quote {c : Char} (h : Plain c) : c ≠ '\'' := h.ne_of_special (by decide)

/-- A character that means something to a shell is not in a plain text. -/
theorem AllPlain.notMem {s : List Char} (hs : AllPlain s) {c : Char}
    (hc : special c = true) : c ∉ s :=
  fun hmem => (hs c hmem).ne_of_special hc rfl

theorem allPlain_append {s t : List Char} :
    AllPlain (s ++ t) ↔ AllPlain s ∧ AllPlain t :=
  List.forall_mem_append

/-- A word may be longer. -/
theorem IsWord.append {w t : List Char} (hw : IsWord w) (ht : AllPlain t) : IsWord (w ++ t) := by
  have hhead : (w ++ t).head? = w.head? := List.head?_append_of_ne_nil _ hw.ne_nil
  refine ⟨List.append_ne_nil_of_left_ne_nil hw.ne_nil t, allPlain_append.mpr ⟨hw.plain, ht⟩, ?_, ?_⟩
  · rw [hhead]
    exact hw.head_ne_sharp
  · rw [hhead]
    exact hw.head_ne_tilde

/-- A digit stands for itself. -/
theorem plain_of_isDigit {c : Char} (hc : c.isDigit = true) : Plain c := by
  have hne : ∀ a : Char, a.isDigit = false → c ≠ a := by
    rintro a ha rfl
    rw [ha] at hc
    cases hc
  refine ⟨?_, decide_eq_false fun hmem => ?_⟩
  · rw [blank, decide_eq_false (hne ' ' (by decide)), decide_eq_false (hne '\t' (by decide))]
    rfl
  · have hnone : "\n\x00\"'\\$\x60;&|<>()*?[\x7b".toList.all (fun a => !a.isDigit) = true := by
      decide
    have hdigit := List.all_eq_true.mp hnone c hmem
    rw [hc] at hdigit
    cases hdigit

/-! ## Plain words -/

/-- Inside of a word, plain characters are read one by one. -/
theorem lex_some_append {w : List Char} (hw : AllPlain w) (u rest : List Char) :
    lex false (some u) (w ++ rest) = lex false (some (u ++ w)) rest := by
  induction w generalizing u with
  | nil => rw [List.nil_append, List.append_nil]
  | cons c w ih =>
    obtain ⟨hc, hw⟩ := List.forall_mem_cons.mp hw
    rw [List.cons_append, lex, if_neg (by simp [hc.1]), if_neg hc.ne_quote,
      if_neg (by simp [hc.2]), if_neg (by simp), if_neg (by simp), Option.getD_some,
      ih hw, List.append_assoc, List.singleton_append]

/-- A word is begun and read on. -/
theorem lex_none_append {w : List Char} (hw : IsWord w) (rest : List Char) :
    lex false none (w ++ rest) = lex false (some w) rest := by
  cases w with
  | nil => exact absurd rfl hw.ne_nil
  | cons c w =>
    obtain ⟨hc, hplain⟩ := List.forall_mem_cons.mp hw.plain
    have hsharp : c ≠ '#' := fun h => hw.head_ne_sharp (congrArg some h)
    have htilde : c ≠ '~' := fun h => hw.head_ne_tilde (congrArg some h)
    rw [List.cons_append, lex, if_neg (by simp [hc.1]), if_neg hc.ne_quote,
      if_neg (by simp [hc.2]), if_neg (by simp [hsharp]), if_neg (by simp [htilde]),
      Option.getD_none, List.nil_append, lex_some_append hplain, List.singleton_append]

theorem words_blank {c : Char} (hc : blank c = true) (rest : List Char) :
    words (c :: rest) = words rest := by
  rw [words, lex, if_pos hc]
  exact Option.map_id'

/-- **A word before a blank.** -/
theorem words_word_blank {w : List Char} (hw : IsWord w) {c : Char} (hc : blank c = true)
    (rest : List Char) :
    words (w ++ c :: rest) = (words rest).map (fun ws => w :: ws) := by
  rw [words, lex_none_append hw, lex, if_pos hc]
  rfl

/-- **A word at the end.** -/
theorem words_word {w : List Char} (hw : IsWord w) : words w = some [w] := by
  have h := lex_none_append hw []
  rw [List.append_nil] at h
  exact h

/-! ## What a text without blanks is read as -/

/-- Without blanks, a word that was begun is the only one: no quote is left
in it, and if there was none, every character was read as itself. -/
theorem lex_some_of_no_blank {s : List Char} (hs : ∀ c ∈ s, blank c = false) {q : Bool}
    {u : List Char} (hu : '\'' ∉ u) {ws : List (List Char)}
    (h : lex q (some u) s = some ws) :
    ∃ w, ws = [w] ∧ '\'' ∉ w
      ∧ (q = false → '\'' ∉ s → w = u ++ s ∧ AllPlain s) := by
  induction s generalizing q u with
  | nil =>
    cases q with
    | true => cases h
    | false =>
      refine ⟨u, (Option.some.inj h).symm, hu, fun _ _ => ⟨(List.append_nil u).symm, ?_⟩⟩
      exact fun c hc => absurd hc List.not_mem_nil
  | cons c s ih =>
    obtain ⟨hc, hs⟩ := List.forall_mem_cons.mp hs
    have hconcat : c ≠ '\'' → '\'' ∉ u ++ [c] := by
      intro hne hmem
      rcases List.mem_append.mp hmem with hmem | hmem
      · exact hu hmem
      · exact hne (List.mem_singleton.mp hmem).symm
    cases q with
    | true =>
      rw [lex] at h
      split at h
      · obtain ⟨w, hws, hw, -⟩ := ih hs hu h
        exact ⟨w, hws, hw, fun hq => by cases hq⟩
      · rename_i hne
        obtain ⟨w, hws, hw, -⟩ := ih hs (hconcat hne) h
        exact ⟨w, hws, hw, fun hq => by cases hq⟩
    | false =>
      rw [lex, if_neg (by simp [hc])] at h
      split at h
      · rename_i hquote
        obtain ⟨w, hws, hw, -⟩ := ih hs hu h
        exact ⟨w, hws, hw, fun _ hmem => absurd (hquote ▸ List.mem_cons_self) hmem⟩
      · rename_i hne
        split at h
        · cases h
        · rename_i hspecial
          rw [if_neg (by simp), if_neg (by simp)] at h
          obtain ⟨w, hws, hw, hplain⟩ := ih hs (hconcat hne) h
          refine ⟨w, hws, hw, fun _ hmem => ?_⟩
          obtain ⟨rfl, hall⟩ := hplain rfl fun hm => hmem (List.mem_cons_of_mem c hm)
          refine ⟨by simp, List.forall_mem_cons.mpr ⟨⟨hc, ?_⟩, hall⟩⟩
          simpa using hspecial

/-- **A text without blanks is one word or none**: the word has no quote in
it, and if there was none in the text, it is the text. -/
theorem words_of_no_blank {s : List Char} (hs : ∀ c ∈ s, blank c = false)
    {ws : List (List Char)} (h : words s = some ws) :
    ws = [] ∨ ∃ w, ws = [w] ∧ '\'' ∉ w ∧ ('\'' ∉ s → w = s ∧ IsWord s) := by
  cases s with
  | nil => exact Or.inl (Option.some.inj h).symm
  | cons c s =>
    obtain ⟨hc, hs⟩ := List.forall_mem_cons.mp hs
    rw [words, lex, if_neg (by simp [hc])] at h
    split at h
    · rename_i hquote
      obtain ⟨w, hws, hw, -⟩ := lex_some_of_no_blank hs List.not_mem_nil h
      exact Or.inr ⟨w, hws, hw, fun hmem => absurd (hquote ▸ List.mem_cons_self) hmem⟩
    · rename_i hne
      split at h
      · cases h
      · rename_i hspecial
        split at h
        · exact Or.inl (Option.some.inj h).symm
        · rename_i hsharp
          split at h
          · cases h
          · rename_i htilde
            obtain ⟨w, hws, hw, hplain⟩ := lex_some_of_no_blank hs
              (u := [c]) (fun hm => hne (List.mem_singleton.mp hm).symm) h
            refine Or.inr ⟨w, hws, hw, fun hmem => ?_⟩
            obtain ⟨rfl, hall⟩ := hplain rfl fun hm => hmem (List.mem_cons_of_mem c hm)
            refine ⟨rfl, by simp, List.forall_mem_cons.mpr ⟨⟨hc, ?_⟩, hall⟩, ?_, ?_⟩
            · simpa using hspecial
            · simpa using hsharp
            · simpa using htilde

example : words "a 'b c'd  e #f".toList
    = some ["a".toList, "b cd".toList, "e".toList] := by decide

end Shell
