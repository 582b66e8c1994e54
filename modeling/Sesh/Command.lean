import Sesh.Text

/-!
# The command

The command comes from the command line or from a file, and is a template:
`-d name=value` entries give its values (`hlp.go`, `templ/templ.go`). The
template engine is a parameter, `mustache.Render`, which returns a text
whatever it is given. There is one built-in command, which adds a public key
to the authorized keys of the host (`util/helper.go`).

An entry names a key if its trimmed text has an `=`, and the name is what
stands before the first one (`NamesValue`). Of several entries with one name
the last counts, and the others leave no trace (`parse_data_decodes`).
-/

/-! ## Templates -/

/-- The values of a template, by name. -/
abbrev TemplateData := GoString → Option GoString

/-- What one entry does to the values: nothing, if it has no `=`. -/
def parseEntry (kv : TemplateData) (data : GoString) : TemplateData :=
  match Strings.cut '=' (Strings.trimSpace data) with
  | none => kv
  | some (key, value) => fun k => if k = key then some value else kv k

/-- `parseData`: the entries in order, a later one in place of an earlier
one of the same name. -/
def parseData (datas : List GoString) : TemplateData :=
  datas.foldl parseEntry (fun _ => none)

example : parseData ["a=1".toList, "b".toList, " a=x=y ".toList] "a".toList
    = some "x=y".toList := by decide

/-- **An entry gives a key a value**: they stand before and after the first
`=` of its trimmed text. -/
def NamesValue (data k v : GoString) : Prop :=
  Strings.trimSpace data = k ++ '=' :: v ∧ '=' ∉ k

/-- A value as it is given on the command line. -/
def dataEntry (p : GoString × GoString) : GoString := p.1 ++ '=' :: p.2

theorem namesValue_iff_cut {data k v : GoString} :
    NamesValue data k v ↔ Strings.cut '=' (Strings.trimSpace data) = some (k, v) :=
  Strings.cut_eq_some_iff.symm

/-- An entry without an `=` changes nothing. -/
theorem parseEntry_of_none {data : GoString}
    (h : Strings.cut '=' (Strings.trimSpace data) = none) (kv : TemplateData) :
    parseEntry kv data = kv := by
  rw [parseEntry, h]

/-- An entry changes the value of its key, and of no other. -/
theorem parseEntry_of_namesValue {data k v : GoString} (h : NamesValue data k v)
    (kv : TemplateData) (k' : GoString) :
    parseEntry kv data k' = if k' = k then some v else kv k' := by
  rw [parseEntry, namesValue_iff_cut.mp h]

/-- **What was there before is kept where the entries say nothing.** -/
theorem foldl_parseEntry (datas : List GoString) (kv : TemplateData) (k : GoString) :
    datas.foldl parseEntry kv k = (parseData datas k).or (kv k) := by
  -- the last entry is taken off, since it is the one that overrides
  induction datas using List.reverseRecOn with
  | nil => rfl
  | append_singleton datas data ih =>
    rw [parseData, List.foldl_concat, List.foldl_concat]
    cases h : Strings.cut '=' (Strings.trimSpace data) with
    | none =>
      rw [parseEntry_of_none h, parseEntry_of_none h]
      exact ih
    | some p =>
      have hnames : NamesValue data p.1 p.2 := namesValue_iff_cut.mpr h
      rw [parseEntry_of_namesValue hnames, parseEntry_of_namesValue hnames]
      by_cases hk : k = p.1
      · rw [if_pos hk, if_pos hk]
        rfl
      · rw [if_neg hk, if_neg hk]
        exact ih

theorem parseData_append (xs ys : List GoString) (k : GoString) :
    parseData (xs ++ ys) k = (parseData ys k).or (parseData xs k) := by
  rw [parseData, List.foldl_append]
  exact foldl_parseEntry ys _ k

theorem parseData_cons (data : GoString) (datas : List GoString) (k : GoString) :
    parseData (data :: datas) k = (parseData datas k).or (parseData [data] k) :=
  parseData_append [data] datas k

theorem parseData_singleton {data k v : GoString} :
    parseData [data] k = some v ↔ NamesValue data k v := by
  show parseEntry (fun _ => none) data k = some v ↔ _
  cases h : Strings.cut '=' (Strings.trimSpace data) with
  | none =>
    rw [parseEntry_of_none h, namesValue_iff_cut, h]
    exact ⟨nofun, nofun⟩
  | some p =>
    have hnames : NamesValue data p.1 p.2 := namesValue_iff_cut.mpr h
    rw [parseEntry_of_namesValue hnames, namesValue_iff_cut, h]
    constructor
    · intro hv
      split at hv
      · rename_i hk
        rw [hk, ← Option.some.inj hv]
      · cases hv
    · intro hp
      obtain rfl := Option.some.inj hp
      exact if_pos rfl

/-- A key has no value where no entry names it. -/
theorem parseData_eq_none_iff {datas : List GoString} {k : GoString} :
    parseData datas k = none ↔ ∀ data ∈ datas, ∀ v, ¬ NamesValue data k v := by
  induction datas with
  | nil => exact iff_of_true rfl (fun data hdata => absurd hdata List.not_mem_nil)
  | cons data datas ih =>
    rw [parseData_cons, Option.or_eq_none_iff, ih, List.forall_mem_cons, and_comm]
    refine and_congr_left fun _ => ?_
    rw [Option.eq_none_iff_forall_ne_some]
    exact forall_congr' fun v => not_congr parseData_singleton

/-- **The last entry with a name gives it its value.** -/
theorem parseData_eq_some_iff {datas : List GoString} {k v : GoString} :
    parseData datas k = some v
      ↔ ∃ before data after, datas = before ++ data :: after ∧ NamesValue data k v
        ∧ ∀ data' ∈ after, ∀ v', ¬ NamesValue data' k v' := by
  induction datas with
  | nil =>
    refine ⟨nofun, ?_⟩
    rintro ⟨before, data, after, heq, -⟩
    exact absurd heq.symm (List.append_ne_nil_of_right_ne_nil _ (List.cons_ne_nil _ _))
  | cons data datas ih =>
    rw [parseData_cons]
    constructor
    · intro h
      cases htail : parseData datas k with
      | none =>
        rw [htail] at h
        exact ⟨[], data, datas, rfl, parseData_singleton.mp h, parseData_eq_none_iff.mp htail⟩
      | some w =>
        rw [htail] at h
        obtain ⟨before, e, after, rfl, hrest⟩ := ih.mp (htail.trans h)
        exact ⟨data :: before, e, after, rfl, hrest⟩
    · rintro ⟨before, e, after, heq, hnames, hlast⟩
      cases before with
      | nil =>
        obtain ⟨rfl, rfl⟩ := List.cons.inj heq
        rw [parseData_eq_none_iff.mpr hlast]
        exact parseData_singleton.mpr hnames
      | cons d before =>
        obtain ⟨-, rfl⟩ := List.cons.inj heq
        rw [ih.mpr ⟨before, e, after, rfl, hnames, hlast⟩]
        rfl

/-- **A pair that can be given as an entry**: no `=` in the name, and white
space neither before the name nor after the value. -/
structure IsEntry (p : GoString × GoString) : Prop where
  eq_notMem : '=' ∉ p.1
  head : ∀ c ∈ p.1.head?, Unicode.isSpace c = false
  last : ∀ c ∈ p.2.getLast?, Unicode.isSpace c = false

/-- An entry names the pair it was made of, and nothing else. -/
theorem IsEntry.namesValue_iff {p : GoString × GoString} (h : IsEntry p) {k v : GoString} :
    NamesValue (dataEntry p) k v ↔ p = (k, v) := by
  have hequals : Unicode.isSpace '=' = false := by decide
  have htrim : Strings.trimSpace (dataEntry p) = dataEntry p := by
    refine Strings.trimSpace_eq_self (Runs.forall_mem_head?_append h.head fun c hc => ?_) ?_
    · rw [← Option.some.inj hc]
      exact hequals
    · rw [dataEntry, List.getLast?_append_of_ne_nil _ (List.cons_ne_nil _ _)]
      exact Runs.forall_mem_getLast?_cons hequals h.last
  rw [namesValue_iff_cut, htrim, dataEntry, Strings.cut_append_cons h.eq_notMem,
    Option.some.injEq]

/-- **Entries with distinct names are read back as they were.** -/
theorem parseData_map_dataEntry {ps : List (GoString × GoString)}
    (hnodup : (ps.map Prod.fst).Nodup) (hps : ∀ p ∈ ps, IsEntry p) {k v : GoString} :
    parseData (ps.map dataEntry) k = some v ↔ (k, v) ∈ ps := by
  rw [parseData_eq_some_iff]
  constructor
  · rintro ⟨before, data, after, heq, hnames, -⟩
    have hmem : data ∈ ps.map dataEntry := by
      rw [heq]
      exact List.mem_append_right before List.mem_cons_self
    obtain ⟨p, hp, rfl⟩ := List.mem_map.mp hmem
    rw [← (hps p hp).namesValue_iff.mp hnames]
    exact hp
  · intro hmem
    obtain ⟨before, after, rfl⟩ := List.append_of_mem hmem
    refine ⟨before.map dataEntry, dataEntry (k, v), after.map dataEntry, ?_,
      (hps _ hmem).namesValue_iff.mpr rfl, fun data hdata v' hnames => ?_⟩
    · rw [List.map_append, List.map_cons]
    · obtain ⟨p, hp, rfl⟩ := List.mem_map.mp hdata
      have hpmem : p ∈ before ++ (k, v) :: after :=
        List.mem_append_right before (List.mem_cons_of_mem _ hp)
      obtain rfl := (hps p hpmem).namesValue_iff.mp hnames
      -- the name would be there twice
      rw [List.map_append, List.map_cons] at hnodup
      have hcons := (List.nodup_cons.mp (List.nodup_append.mp hnodup).2.1).1
      exact hcons (List.mem_map.mpr ⟨(k, v'), hp, rfl⟩)

/-- **The values of a template are decoded from the entries.** A key has the
value the last entry that names it gives it; the values of two lists of
entries are those of the second, and of the first where the second has none;
and pairs with distinct names are given back, in whatever order they
stand. -/
theorem parse_data_decodes :
    (∀ datas k v, parseData datas k = some v
      ↔ ∃ before data after, datas = before ++ data :: after ∧ NamesValue data k v
        ∧ ∀ data' ∈ after, ∀ v', ¬ NamesValue data' k v')
    ∧ (∀ xs ys k, parseData (xs ++ ys) k = (parseData ys k).or (parseData xs k))
    ∧ (∀ ps : List (GoString × GoString), (ps.map Prod.fst).Nodup →
      (∀ p ∈ ps, IsEntry p) →
      (∀ k v, parseData (ps.map dataEntry) k = some v ↔ (k, v) ∈ ps)
      ∧ ∀ qs : List (GoString × GoString), qs.Perm ps →
        parseData (qs.map dataEntry) = parseData (ps.map dataEntry)) := by
  refine ⟨fun _ _ _ => parseData_eq_some_iff, parseData_append, fun ps hnodup hps =>
    ⟨fun _ _ => parseData_map_dataEntry hnodup hps, fun qs hperm => ?_⟩⟩
  have hnodup' : (qs.map Prod.fst).Nodup := (hperm.map Prod.fst).nodup_iff.mpr hnodup
  have hqs : ∀ p ∈ qs, IsEntry p := fun p hp => hps p (hperm.subset hp)
  funext k
  refine Option.ext fun v => ?_
  rw [parseData_map_dataEntry hnodup' hqs, parseData_map_dataEntry hnodup hps, hperm.mem_iff]

/-- A file, or the text of the error there was in reading it. -/
abbrev ReadFile := GoString → Except GoString GoString

/-- `mustache.Render`. -/
abbrev Render := GoString → TemplateData → GoString

/-- `ParseFromString`: its error is always nil. -/
def parseFromString (render : Render) (cmd : GoString) (data : TemplateData) :
    Except GoString GoString :=
  .ok (render cmd data)

/-- `ParseFromFiles`. -/
def parseFromFiles (readFile : ReadFile) (render : Render) (fn : GoString)
    (data : TemplateData) : Except GoString GoString :=
  match readFile fn with
  | .error err => .error err
  | .ok buf => parseFromString render buf data

/-! ## The built-in command -/

/-- The name of the built-in command. -/
def authCmdFile : GoString := "@auth.cmd".toList

/-- The comment of a public key: what follows its second space, or else the
whole key. -/
def keyName (key : GoString) : GoString :=
  match Strings.cut ' ' key with
  | none => key
  | some (_, rest) =>
    match Strings.cut ' ' rest with
    | none => key
    | some (_, name) => name

/-- `BuildinCmd.Get`: the script that adds the key of a file. -/
def BuildinCmd.get (readFile : ReadFile) (pubkeyFile : GoString) :
    Except GoString GoString :=
  match readFile pubkeyFile with
  | .error err => .error err
  | .ok d =>
    let key := Strings.trimSpace d
    let name := keyName key
    .ok ("\n[ ! -e ~/.ssh ] && mkdir -p ~/.ssh && chmod 700 ~/.ssh\n".toList
      ++ "[ ! -e ~/.ssh/authorized_keys ] && touch ~/.ssh/authorized_keys".toList
      ++ " && chmod 600 ~/.ssh/authorized_keys\n".toList
      ++ "grep '".toList ++ name ++ "' ~/.ssh/authorized_keys >/dev/null || echo '".toList
      ++ key ++ "' >> ~/.ssh/authorized_keys\n".toList
      ++ "echo 'add public key to ~/.ssh/authorized_keys OK'\n".toList)
