import Sesh.Template

/-!
# The values of a template

A value given by `-d` is looked up by a tag of the command, and what the host
should run is the command with the value in place of the tag. The template
engine was made for pages, and writes the value as a page would have it
(`htmlEscape`): the characters with a meaning in HTML are replaced by their
entities. Most of them have a meaning for a shell too.

What is assumed of the engine is the text it makes of a template of texts
without braces and tags of one name (`Mustache.EscapesTags`). Not every text in
a tag is a name, so the assumption says for which it is made; for the library
that is used they are those that are not empty, have no dot and do not begin
with one of `!#^/>&=`. Escaping never makes a text shorter, so a command is the
one that was meant exactly if no value that is looked up has a character that
is escaped (`Mustache.EscapesTags.render_eq_iff`), and this is the condition for
one tag and one entry (`template_value_verbatim_iff`). An engine that does what
is assumed is given by a scan of the text (`tagScan`).
-/

/-! ## Escaping -/

/-- `template.HTMLEscape` on one character. -/
def htmlEscapeChar (c : Char) : GoString :=
  if c = '"' then "&#34;".toList
  else if c = '\'' then "&#39;".toList
  else if c = '&' then "&amp;".toList
  else if c = '<' then "&lt;".toList
  else if c = '>' then "&gt;".toList
  else if c = '\x00' then ['�']
  else [c]

/-- `template.HTMLEscape`. -/
def htmlEscape (s : GoString) : GoString := s.flatMap htmlEscapeChar

/-- The characters that are escaped. -/
def htmlSpecial : List Char := ['"', '\'', '&', '<', '>', '\x00']

/-- A text of characters that are not escaped. -/
def NoSpecial (s : GoString) : Prop := ∀ c ∈ s, c ∉ htmlSpecial

instance : DecidablePred NoSpecial := fun _ => List.decidableBAll (fun c => c ∉ htmlSpecial) _

/-- Longer texts put together are longer. -/
theorem length_flatMap_le {α β : Type} {f g : α → List β} {l : List α}
    (h : ∀ a ∈ l, (g a).length ≤ (f a).length) :
    (l.flatMap g).length ≤ (l.flatMap f).length := by
  induction l with
  | nil => exact Nat.le_refl 0
  | cons a l ih =>
    obtain ⟨ha, hl⟩ := List.forall_mem_cons.mp h
    rw [List.flatMap_cons, List.flatMap_cons, List.length_append, List.length_append]
    exact Nat.add_le_add ha (ih hl)

/-- **Texts put together are the same exactly if each is the same**, where
those on one side are nowhere the shorter ones. -/
theorem flatMap_eq_flatMap_iff {α β : Type} {f g : α → List β} {l : List α}
    (h : ∀ a ∈ l, (g a).length ≤ (f a).length) :
    l.flatMap f = l.flatMap g ↔ ∀ a ∈ l, f a = g a := by
  refine ⟨fun heq => ?_, fun hall => List.flatMap_congr hall⟩
  induction l with
  | nil => exact fun a ha => absurd ha List.not_mem_nil
  | cons a l ih =>
    obtain ⟨ha, hl⟩ := List.forall_mem_cons.mp h
    rw [List.flatMap_cons, List.flatMap_cons] at heq
    have hrest := length_flatMap_le hl
    have hlength : (f a).length = (g a).length := by
      have hsum := congrArg List.length heq
      rw [List.length_append, List.length_append] at hsum
      omega
    obtain ⟨hfirst, htail⟩ := List.append_inj heq hlength
    exact List.forall_mem_cons.mpr ⟨hfirst, ih hl htail⟩

theorem htmlEscapeChar_of_notMem {c : Char} (hc : c ∉ htmlSpecial) : htmlEscapeChar c = [c] := by
  have hne : ∀ d ∈ htmlSpecial, c ≠ d := by
    rintro d hd rfl
    exact hc hd
  rw [htmlEscapeChar, if_neg (hne _ (by decide)), if_neg (hne _ (by decide)),
    if_neg (hne _ (by decide)), if_neg (hne _ (by decide)), if_neg (hne _ (by decide)),
    if_neg (hne _ (by decide))]

/-- A character is left as it is if it is not one of those. -/
theorem htmlEscapeChar_eq_iff {c : Char} : htmlEscapeChar c = [c] ↔ c ∉ htmlSpecial := by
  refine ⟨fun h hc => ?_, htmlEscapeChar_of_notMem⟩
  simp only [htmlSpecial, List.mem_cons, List.not_mem_nil, or_false] at hc
  rcases hc with rfl | rfl | rfl | rfl | rfl | rfl
  all_goals exact absurd h (by decide)

theorem length_htmlEscapeChar (c : Char) : [c].length ≤ (htmlEscapeChar c).length := by
  by_cases hc : c ∈ htmlSpecial
  · simp only [htmlSpecial, List.mem_cons, List.not_mem_nil, or_false] at hc
    rcases hc with rfl | rfl | rfl | rfl | rfl | rfl
    all_goals decide
  · rw [htmlEscapeChar_of_notMem hc]

/-- A text is left as it is if none of its characters is escaped. -/
theorem htmlEscape_eq_self_iff {s : GoString} : htmlEscape s = s ↔ NoSpecial s := by
  have h := flatMap_eq_flatMap_iff (l := s) (g := fun c => [c])
    (fun c _ => length_htmlEscapeChar c)
  rw [List.flatMap_singleton'] at h
  exact h.trans (forall₂_congr fun _ _ => htmlEscapeChar_eq_iff)

theorem length_htmlEscape (s : GoString) : s.length ≤ (htmlEscape s).length := by
  have h := length_flatMap_le (l := s) (g := fun c => [c])
    (fun c _ => length_htmlEscapeChar c)
  rw [List.flatMap_singleton'] at h
  exact h

/-! ## Templates of texts and tags -/

/-- A piece of a template. -/
inductive Piece
  | text (s : GoString)
  | tag (name : GoString)
  deriving DecidableEq, Repr

namespace Piece

/-- A piece as it is written. -/
def source : Piece → GoString
  | text s => s
  | tag name => "\x7b\x7b ".toList ++ name ++ " \x7d\x7d".toList

/-- A piece with its value in place of a tag. -/
def verbatim (values : GoString → GoString) : Piece → GoString
  | text s => s
  | tag name => values name

/-- A piece with its escaped value in place of a tag. -/
def escaped (values : GoString → GoString) : Piece → GoString
  | text s => s
  | tag name => htmlEscape (values name)

/-- A text without braces. -/
def NoBraces (s : GoString) : Prop := '\x7b' ∉ s ∧ '\x7d' ∉ s

instance : DecidablePred NoBraces := fun _ => inferInstanceAs (Decidable (_ ∧ _))

/-- No braces, and a name that is one, without white space. -/
def Plain (names : GoString → Prop) : Piece → Prop
  | text s => NoBraces s
  | tag name => NoBraces name ∧ NoSpace name ∧ names name

end Piece

namespace Mustache

/-- **What is assumed of the engine**: a tag with one of the names is replaced by
the escaped form of the value it looks up, and other text is copied. -/
def EscapesTags (lib : Mustache) (names : GoString → Prop) : Prop :=
  ∀ (pieces : List Piece) (data : TemplateData) (values : GoString → GoString),
    (∀ p ∈ pieces, p.Plain names) → (∀ name, .tag name ∈ pieces → data name = some (values name)) →
    lib.render (pieces.flatMap Piece.source) data = pieces.flatMap (Piece.escaped values)

/-- **The values are in the text as they are exactly if none that is looked
up has a character that is escaped.** -/
theorem EscapesTags.render_eq_iff {lib : Mustache} {names : GoString → Prop}
    (hlib : lib.EscapesTags names) {pieces : List Piece} {data : TemplateData}
    {values : GoString → GoString} (hplain : ∀ p ∈ pieces, p.Plain names)
    (hvalues : ∀ name, .tag name ∈ pieces → data name = some (values name)) :
    lib.render (pieces.flatMap Piece.source) data = pieces.flatMap (Piece.verbatim values)
      ↔ ∀ name, .tag name ∈ pieces → NoSpecial (values name) := by
  have hlength : ∀ p ∈ pieces, (p.verbatim values).length ≤ (p.escaped values).length := by
    intro p _
    cases p with
    | text s => exact Nat.le_refl _
    | tag name => exact length_htmlEscape _
  rw [hlib pieces data values hplain hvalues, flatMap_eq_flatMap_iff hlength]
  constructor
  · intro h name hname
    exact htmlEscape_eq_self_iff.mp (h (.tag name) hname)
  · intro h p hp
    cases p with
    | text s => rfl
    | tag name => exact htmlEscape_eq_self_iff.mpr (h name hp)

end Mustache

/-! ## An engine -/

/-- A scan of a template: the text up to a tag, and the text of a tag up to
its end. -/
def tagScan : Option GoString → GoString → Except GoString (TemplateData → GoString)
  | none, [] => .ok (fun _ => [])
  | some _, [] => .error "unmatched open tag".toList
  | none, '\x7b' :: '\x7b' :: s => tagScan (some []) s
  | none, c :: s => (tagScan none s).map (fun t data => c :: t data)
  | some tag, '\x7d' :: '\x7d' :: s =>
    (tagScan none s).map (fun t data =>
      htmlEscape ((data (Strings.trimSpace tag)).getD []) ++ t data)
  | some tag, c :: s => tagScan (some (tag ++ [c])) s

/-- An engine whose tags are all names. -/
def tagEngine : Mustache := ⟨tagScan none⟩

/-- A text without braces is copied. -/
theorem tagScan_text {s : GoString} (hs : '\x7b' ∉ s) (t : GoString) :
    tagScan none (s ++ t) = (tagScan none t).map (fun f data => s ++ f data) := by
  induction s with
  | nil =>
    rw [List.nil_append]
    cases tagScan none t with
    | error err => rfl
    | ok f => rfl
  | cons c s ih =>
    obtain ⟨hc, hs⟩ := List.ne_and_not_mem_of_not_mem_cons hs
    rw [List.cons_append, tagScan, ih hs]
    · cases tagScan none t with
      | error err => rfl
      | ok f => rfl
    · intro s' hbrace
      exact absurd hbrace.symm hc

/-- The text of a tag is read up to its end. -/
theorem tagScan_tag {s : GoString} (hs : '\x7d' ∉ s) (tag t : GoString) :
    tagScan (some tag) (s ++ '\x7d' :: '\x7d' :: t)
      = (tagScan none t).map (fun f data =>
        htmlEscape ((data (Strings.trimSpace (tag ++ s))).getD []) ++ f data) := by
  induction s generalizing tag with
  | nil => rw [List.nil_append, tagScan, List.append_nil]
  | cons c s ih =>
    obtain ⟨hc, hs⟩ := List.ne_and_not_mem_of_not_mem_cons hs
    rw [List.cons_append, tagScan, ih hs, List.append_assoc]
    · rfl
    · intro s' hbrace
      exact absurd hbrace.symm hc

/-- A name with a space on either side is trimmed to the name. -/
theorem trimSpace_spaced {s : GoString} (hs : NoSpace s) :
    Strings.trimSpace (' ' :: s ++ [' ']) = s := by
  have hspace : Unicode.isSpace ' ' = true := by decide
  have hdrop : ∀ l : GoString, NoSpace l → l.rdropWhile Unicode.isSpace = l := by
    intro l hl
    refine List.rdropWhile_eq_self_iff.mpr fun hne => ?_
    rw [hl _ (List.getLast_mem hne)]
    exact nofun
  rw [Strings.trimSpace, List.cons_append, List.dropWhile_cons_of_pos hspace]
  cases s with
  | nil => rfl
  | cons c s =>
    rw [List.cons_append, List.dropWhile_cons_of_neg (by rw [hs c List.mem_cons_self]; exact nofun),
      ← List.cons_append, List.rdropWhile_concat_pos _ _ _ hspace, hdrop _ hs]

/-- A template of texts and tags is scanned to its end. -/
theorem exists_tagScan {names : GoString → Prop} {pieces : List Piece} {data : TemplateData}
    {values : GoString → GoString} (hplain : ∀ p ∈ pieces, p.Plain names)
    (hvalues : ∀ name, .tag name ∈ pieces → data name = some (values name)) :
    ∃ f, tagScan none (pieces.flatMap Piece.source) = .ok f
      ∧ f data = pieces.flatMap (Piece.escaped values) := by
  induction pieces with
  | nil => exact ⟨_, rfl, rfl⟩
  | cons p pieces ih =>
    obtain ⟨hp, hplain⟩ := List.forall_mem_cons.mp hplain
    obtain ⟨f, hf, hdata⟩ := ih hplain fun name hname =>
      hvalues name (List.mem_cons_of_mem _ hname)
    rw [List.flatMap_cons, List.flatMap_cons, ← hdata]
    cases p with
    | text s =>
      refine ⟨fun data => s ++ f data, ?_, rfl⟩
      rw [Piece.source, tagScan_text hp.1, hf]
      rfl
    | tag name =>
      obtain ⟨hbraces, hspace, -⟩ := hp
      have hspaced : '\x7d' ∉ ' ' :: name ++ [' '] := by
        simpa using hbraces.2
      have hsource : Piece.source (.tag name) ++ pieces.flatMap Piece.source
          = '\x7b' :: '\x7b' :: (' ' :: name ++ [' '] ++ '\x7d' :: '\x7d' ::
            pieces.flatMap Piece.source) := by
        simp [Piece.source]
      refine ⟨fun data => htmlEscape ((data name).getD []) ++ f data, ?_, ?_⟩
      · rw [hsource, tagScan, tagScan_tag hspaced, hf, List.nil_append,
          trimSpace_spaced hspace]
        rfl
      · dsimp only
        rw [hvalues name List.mem_cons_self]
        rfl

/-- **There is an engine that does what is assumed**, for all names. -/
theorem tagEngine_escapesTags (names : GoString → Prop) : tagEngine.EscapesTags names := by
  intro pieces data values hplain hvalues
  obtain ⟨f, hf, hdata⟩ := exists_tagScan hplain hvalues
  rw [Mustache.render, show tagEngine.parse = tagScan none from rfl, hf]
  exact hdata

/-! ## One value -/

/-- **A value reaches the command as it is exactly if none of its characters
is escaped.** -/
theorem template_value_verbatim_iff {lib : Mustache} {names : GoString → Prop}
    (hlib : lib.EscapesTags names) (name value pre post : GoString) (hname : names name)
    (hbraces : Piece.NoBraces name) (hspace : NoSpace name)
    (hequals : '=' ∉ name) (hlast : ∀ c ∈ value.getLast?, Unicode.isSpace c = false)
    (hpre : Piece.NoBraces pre) (hpost : Piece.NoBraces post) :
    parseFromString lib.render
        (pre ++ "\x7b\x7b ".toList ++ name ++ " \x7d\x7d".toList ++ post)
        (parseData [name ++ '=' :: value]) = .ok (pre ++ value ++ post)
      ↔ NoSpecial value := by
  have hentry : IsEntry (name, value) :=
    ⟨hequals, fun c hc => hspace c (List.mem_of_mem_head? hc), hlast⟩
  have hdata : parseData [name ++ '=' :: value] name = some value :=
    parseData_singleton.mpr (hentry.namesValue_iff.mpr rfl)
  have hplain : ∀ p ∈ [Piece.text pre, .tag name, .text post], p.Plain names :=
    List.forall_mem_cons.mpr ⟨hpre, List.forall_mem_cons.mpr ⟨⟨hbraces, hspace, hname⟩,
      List.forall_mem_singleton.mpr hpost⟩⟩
  have htag : ∀ n, .tag n ∈ [Piece.text pre, .tag name, .text post] ↔ n = name := by
    simp
  have hvalues : ∀ n, .tag n ∈ [Piece.text pre, .tag name, .text post] →
      parseData [name ++ '=' :: value] n = some ((fun _ => value) n) := by
    intro n hn
    rw [(htag n).mp hn]
    exact hdata
  have h := hlib.render_eq_iff hplain hvalues
  simp only [List.flatMap_cons, List.flatMap_nil, Piece.source, Piece.verbatim, htag,
    List.append_nil, ← List.append_assoc] at h
  rw [parseFromString, Except.ok.injEq, h, forall_eq]

theorem template_value_word :
    NoSpecial "eth0".toList
      ∧ parseFromString tagEngine.render "ifup \x7b\x7b dev \x7d\x7d -v".toList
          (parseData ["dev=eth0".toList]) = .ok "ifup eth0 -v".toList := by
  have hword : NoSpecial "eth0".toList := by decide
  have hlast : ∀ c ∈ "eth0".toList.getLast?, Unicode.isSpace c = false := by
    intro c hc
    obtain rfl : '0' = c := Option.some.inj hc
    decide
  exact ⟨hword, (template_value_verbatim_iff (tagEngine_escapesTags (· = "dev".toList))
    "dev".toList "eth0".toList "ifup ".toList " -v".toList rfl (by decide) (by decide) (by decide) hlast
    (by decide) (by decide)).mpr hword⟩

/-- A value with an ampersand: the host is given the entity, and its shell
takes `amp` for a command. -/
theorem template_value_escaped :
    parseFromString tagEngine.render "get \x7b\x7b url \x7d\x7d".toList
        (parseData ["url=a&b".toList]) = .ok "get a&amp;b".toList
      ∧ "get a&amp;b".toList ≠ "get ".toList ++ "a&b".toList ++ [] := by
  decide +kernel
