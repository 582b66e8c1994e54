import Mathlib.Data.List.Nodup
import Mathlib.Data.List.Pairwise
import Sesh.Hosts

/-!
# The temporary files of a parallel run

`ParallelRun` gives each host two files in a directory of its own: one
named after the host for what the task prints, and one with `.err` added
for what goes wrong (`util.go`). The names are the hosts themselves, and
the host list can hold any text, so whether the files of a batch are files
of that directory at all, and whether they are different files, is a
question about the hosts.

`tmpPathsSeparate_iff` answers it: exactly when each host is a file name –
possibly behind slashes and `./`, which lead nowhere – no two are the same
name, and none is another's name with `.err` added.
-/

/-- The two streams of a task: what it prints, and what goes wrong. -/
inductive TaskStream
  | output
  | errOutput
  deriving DecidableEq, Repr

/-- The suffix of an error file. -/
def errSuffix : GoString := ".err".toList

/-- The name of a stream's file: the host, or the host with `.err`
added. -/
def tmpName (h : GoString) : TaskStream → GoString
  | .output => h
  | .errOutput => h ++ errSuffix

/-- `fmt.Sprintf("%s/%s", dir, h)` and `fmt.Sprintf("%s/%s.err", dir, h)`:
the path of a stream's file. -/
def tmpPath (dir h : GoString) (st : TaskStream) : GoString :=
  dir ++ '/' :: tmpName h st

/-- `fmt.Sprintf("%s/.task.%d", tmpdir, time.Now().Nanosecond())`: the
directory of a batch. -/
def taskDir (tmpdir : GoString) (nanosecond : ℕ) : GoString :=
  tmpdir ++ "/.task.".toList ++ showNat nanosecond

/-- The paths `ParallelRun` opens for a batch, in the order it opens
them. -/
def tmpPaths (dir : GoString) (hosts : List GoString) : List GoString :=
  hosts.flatMap (fun h => [tmpPath dir h .output, tmpPath dir h .errOutput])

/-- **A path names a file directly inside a directory**: it is walked by
the directory and one more step, which is the file name it ends in. -/
def NamesFileIn (dir p : GoString) : Prop :=
  IsFileName (lastSegment p) ∧ locate p = locate dir ++ [lastSegment p]

/-- **The paths of a batch are separate**: each names a file directly inside
the directory, and no two lead to the same file. -/
def TmpPathsSeparate (dir : GoString) (hosts : List GoString) : Prop :=
  ((tmpPaths dir hosts).map locate).Nodup
    ∧ ∀ p ∈ tmpPaths dir hosts, NamesFileIn dir p

/-- The file name a host is, if it is one: leading slashes and `./` are
skipped, and what is left has no slash. -/
def hostFileName (h : GoString) : Option GoString :=
  if IsFileName (lastSegment h) ∧ locate h = [lastSegment h] then
    some (lastSegment h)
  else none

/-- **The hosts of a batch are separate**: each is a file name, no two are
the same name, and none is another's name with `.err` added. -/
def HostsSeparate (hosts : List GoString) : Prop :=
  (∀ h ∈ hosts, hostFileName h ≠ none)
    ∧ (hosts.map hostFileName).Nodup
    ∧ ∀ h ∈ hosts, ∀ h' ∈ hosts,
        hostFileName h' ≠ (hostFileName h).map (· ++ errSuffix)

instance (hosts : List GoString) : Decidable (HostsSeparate hosts) :=
  inferInstanceAs (Decidable (_ ∧ _ ∧ _))

/-! ## The names -/

theorem slash_notMem_errSuffix : '/' ∉ errSuffix := by decide

theorem hostFileName_eq_some {h n : GoString} :
    hostFileName h = some n
      ↔ IsFileName n ∧ lastSegment h = n ∧ locate h = [n] := by
  unfold hostFileName
  constructor
  · intro he
    split at he
    · rename_i hc
      obtain rfl := Option.some.inj he
      exact ⟨hc.1, rfl, hc.2⟩
    · cases he
  · rintro ⟨hn, rfl, hl⟩
    rw [if_pos ⟨hn, hl⟩]

/-- A name with `.err` added is a file name, whatever it was. -/
theorem isFileName_append_errSuffix (n : GoString) :
    IsFileName (n ++ errSuffix) := by
  have hlen : (n ++ errSuffix).length = n.length + 4 := List.length_append
  refine ⟨?_, ?_, ?_⟩ <;>
  · intro he
    rw [he] at hlen
    simp at hlen

/-- The name of a host's error file is the host's name with `.err`
added. -/
theorem hostFileName_append_errSuffix {h n : GoString}
    (hn : hostFileName h = some n) :
    hostFileName (h ++ errSuffix) = some (n ++ errSuffix) := by
  obtain ⟨hfn, hls, hloc⟩ := hostFileName_eq_some.mp hn
  have hseg := segments_append_of_notMem h slash_notMem_errSuffix
  have hlast : lastSegment (h ++ errSuffix) = n ++ errSuffix := by
    rw [lastSegment, hseg, List.getLastD_concat, hls]
  refine hostFileName_eq_some.mpr
    ⟨isFileName_append_errSuffix n, hlast, ?_⟩
  -- the segments before the last one lead nowhere, with or without the suffix
  have hinit : (segments h).dropLast.filter (fun s => s ≠ [] ∧ s ≠ ['.']) = [] := by
    have hsplit : locate h
        = (segments h).dropLast.filter (fun s => s ≠ [] ∧ s ≠ ['.']) ++ [n] := by
      conv_lhs => rw [locate, ← List.dropLast_append_getLast (segments_ne_nil h),
        List.filter_append]
      congr 1
      have hgl : (segments h).getLast (segments_ne_nil h) = n := by
        rw [← hls, lastSegment, List.getLastD_eq_getLast?,
          List.getLast?_eq_some_getLast (segments_ne_nil h)]
        rfl
      rw [hgl]
      exact filter_of_isFileName hfn
    rw [hloc] at hsplit
    exact List.append_left_eq_self.mp hsplit.symm
  rw [locate, hseg, List.filter_append, hinit, hls]
  exact filter_of_isFileName (isFileName_append_errSuffix n)

/-- The file name of a stream of a host. -/
theorem hostFileName_tmpName {h n : GoString} (hn : hostFileName h = some n)
    (st : TaskStream) : hostFileName (tmpName h st) = some (tmpName n st) := by
  cases st with
  | output => exact hn
  | errOutput => exact hostFileName_append_errSuffix hn

/-- A path under the directory names a file directly inside it exactly when
the rest of the path is a file name. -/
theorem namesFileIn_iff {dir q : GoString} :
    NamesFileIn dir (dir ++ '/' :: q) ↔ hostFileName q ≠ none := by
  unfold NamesFileIn
  rw [lastSegment_append_slash, locate_append_slash, List.append_cancel_left_eq,
    Option.ne_none_iff_exists']
  constructor
  · intro h
    exact ⟨_, hostFileName_eq_some.mpr ⟨h.1, rfl, h.2⟩⟩
  · rintro ⟨n, hn⟩
    obtain ⟨hfn, rfl, hloc⟩ := hostFileName_eq_some.mp hn
    exact ⟨hfn, hloc⟩

/-- The file a stream of a host is written to. -/
theorem locate_tmpPath {dir h n : GoString} (hn : hostFileName h = some n)
    (st : TaskStream) : locate (tmpPath dir h st) = locate dir ++ [tmpName n st] := by
  rw [tmpPath, locate_append_slash,
    (hostFileName_eq_some.mp (hostFileName_tmpName hn st)).2.2]

/-! ## When the paths are separate -/

theorem append_errSuffix_ne (n : GoString) : n ++ errSuffix ≠ n := by
  intro he
  have hlen := congrArg List.length he
  simp [errSuffix] at hlen

/-- Under separate hosts, two streams are written to the same file only if
the hosts have the same name and the streams are the same. -/
theorem HostsSeparate.tmpName_inj {hosts : List GoString}
    (hs : HostsSeparate hosts) {h h' n n' : GoString} (hh : h ∈ hosts)
    (hh' : h' ∈ hosts) (hn : hostFileName h = some n)
    (hn' : hostFileName h' = some n') {st st' : TaskStream}
    (he : tmpName n st = tmpName n' st') : n = n' ∧ st = st' := by
  cases st <;> cases st'
  · exact ⟨he, rfl⟩
  · exact absurd (hn.trans (congrArg some he)) (by
      have := hs.2.2 h' hh' h hh
      rwa [hn', Option.map_some] at this)
  · exact absurd (hn'.trans (congrArg some he.symm)) (by
      have := hs.2.2 h hh h' hh'
      rwa [hn, Option.map_some] at this)
  · exact ⟨List.append_cancel_right he, rfl⟩

/-- The two files of a host. -/
def hostLocations (dir h : GoString) : List (List GoString) :=
  [locate (tmpPath dir h .output), locate (tmpPath dir h .errOutput)]

theorem mem_hostLocations {dir h : GoString} {k : List GoString} :
    k ∈ hostLocations dir h ↔ ∃ st, k = locate (tmpPath dir h st) := by
  constructor
  · intro hk
    simp only [hostLocations, List.mem_cons, List.not_mem_nil, or_false] at hk
    rcases hk with rfl | rfl
    · exact ⟨.output, rfl⟩
    · exact ⟨.errOutput, rfl⟩
  · rintro ⟨st, rfl⟩
    cases st <;> simp [hostLocations]

theorem tmpPath_mem_tmpPaths {dir h : GoString} {hosts : List GoString}
    (hh : h ∈ hosts) (st : TaskStream) :
    tmpPath dir h st ∈ tmpPaths dir hosts := by
  refine List.mem_flatMap.mpr ⟨h, hh, ?_⟩
  cases st <;> simp

/-- Separate paths come from separate hosts. -/
theorem hostsSeparate_of_tmpPathsSeparate {dir : GoString}
    {hosts : List GoString} (hp : TmpPathsSeparate dir hosts) :
    HostsSeparate hosts := by
  obtain ⟨hnodup, hin⟩ := hp
  have hname : ∀ h ∈ hosts, hostFileName h ≠ none :=
    fun h hh => namesFileIn_iff.mp (hin _ (tmpPath_mem_tmpPaths hh .output))
  have hdisj : hosts.Pairwise
      (fun a b => (hostLocations dir a).Disjoint (hostLocations dir b)) := by
    rw [tmpPaths, List.map_flatMap] at hnodup
    exact (List.nodup_flatMap.mp hnodup).2
  refine ⟨hname, ?_, ?_⟩
  · refine List.pairwise_map.mpr (hdisj.imp_of_mem fun {a b} ha hb hab he => ?_)
    obtain ⟨n, hn⟩ := Option.ne_none_iff_exists'.mp (hname a ha)
    refine hab (mem_hostLocations.mpr ⟨.output, rfl⟩)
      (mem_hostLocations.mpr ⟨.output, ?_⟩)
    rw [locate_tmpPath hn, locate_tmpPath (he ▸ hn)]
  · intro h hh h' hh' he
    obtain ⟨n, hn⟩ := Option.ne_none_iff_exists'.mp (hname h hh)
    rw [hn, Option.map_some] at he
    have hne : h ≠ h' := by
      rintro rfl
      exact append_errSuffix_ne n (Option.some.inj (he.symm.trans hn))
    have _ : Std.Symm (fun a b =>
        (hostLocations dir a).Disjoint (hostLocations dir b)) :=
      ⟨fun _ _ hd _ ha hb => hd hb ha⟩
    refine hdisj.forall hh hh' hne
      (mem_hostLocations.mpr ⟨.errOutput, rfl⟩)
      (mem_hostLocations.mpr ⟨.output, ?_⟩)
    rw [locate_tmpPath hn, locate_tmpPath he]
    rfl

/-- Separate hosts give separate paths. -/
theorem HostsSeparate.tmpPathsSeparate {hosts : List GoString}
    (hs : HostsSeparate hosts) (dir : GoString) :
    TmpPathsSeparate dir hosts := by
  refine ⟨?_, fun p hp => ?_⟩
  · rw [tmpPaths, List.map_flatMap]
    refine List.nodup_flatMap.mpr ⟨fun h hh => ?_, ?_⟩
    · obtain ⟨n, hn⟩ := Option.ne_none_iff_exists'.mp (hs.1 h hh)
      refine List.nodup_cons.mpr ⟨fun hm => ?_, List.nodup_singleton _⟩
      have he := List.mem_singleton.mp hm
      rw [locate_tmpPath hn, locate_tmpPath hn] at he
      have he' := (List.cons.inj (List.append_cancel_left he)).1
      exact append_errSuffix_ne n he'.symm
    · refine (List.pairwise_map.mp hs.2.1).imp_of_mem fun {a b} ha hb hab => ?_
      obtain ⟨na, hna⟩ := Option.ne_none_iff_exists'.mp (hs.1 a ha)
      obtain ⟨nb, hnb⟩ := Option.ne_none_iff_exists'.mp (hs.1 b hb)
      intro k hka hkb
      obtain ⟨st, rfl⟩ := mem_hostLocations.mp hka
      obtain ⟨st', he⟩ := mem_hostLocations.mp hkb
      rw [locate_tmpPath hna, locate_tmpPath hnb] at he
      have he' := (List.cons.inj (List.append_cancel_left he)).1
      exact hab (by rw [hna, hnb, (hs.tmpName_inj ha hb hna hnb he').1])
  · obtain ⟨h, hh, hp⟩ := List.mem_flatMap.mp hp
    obtain ⟨n, hn⟩ := Option.ne_none_iff_exists'.mp (hs.1 h hh)
    have hin : ∀ st, NamesFileIn dir (tmpPath dir h st) := fun st =>
      namesFileIn_iff.mpr (by rw [hostFileName_tmpName hn]; simp)
    simp only [List.mem_cons, List.not_mem_nil, or_false] at hp
    rcases hp with rfl | rfl
    · exact hin .output
    · exact hin .errOutput

/-- **The paths of a batch are separate exactly when its hosts are.** -/
theorem tmpPathsSeparate_iff (dir : GoString) (hosts : List GoString) :
    TmpPathsSeparate dir hosts ↔ HostsSeparate hosts :=
  ⟨hostsSeparate_of_tmpPathsSeparate, fun hs => hs.tmpPathsSeparate dir⟩

/-- The names of the files of a batch. -/
def tmpNames (hosts : List GoString) : List GoString :=
  hosts.flatMap (fun h => [tmpName h .output, tmpName h .errOutput])

/-- Hosts that are file names without a slash, with different names for all
their files, are separate. -/
theorem hostsSeparate_of_tmpNames {hosts : List GoString}
    (hslash : ∀ h ∈ hosts, '/' ∉ h) (hfile : ∀ h ∈ hosts, IsFileName h)
    (hnames : (tmpNames hosts).Nodup) : HostsSeparate hosts := by
  have hname : ∀ h ∈ hosts, hostFileName h = some h := fun h hh =>
    hostFileName_eq_some.mpr ⟨hfile h hh, lastSegment_of_notMem (hslash h hh),
      locate_of_notMem (hslash h hh) (hfile h hh)⟩
  have hdisj := (List.nodup_flatMap.mp hnames).2
  refine ⟨fun h hh => ?_, ?_, fun h hh h' hh' he => ?_⟩
  · rw [hname h hh]
    exact Option.some_ne_none h
  · refine List.pairwise_map.mpr (hdisj.imp_of_mem fun {a b} ha hb hab he => ?_)
    rw [hname a ha, hname b hb] at he
    obtain rfl := Option.some.inj he
    exact hab (List.mem_cons_self ..) (List.mem_cons_self ..)
  · rw [hname h hh, hname h' hh', Option.map_some] at he
    obtain rfl : h' = h ++ errSuffix := Option.some.inj he
    have _ : Std.Symm (fun a b : GoString =>
        [tmpName a .output, tmpName a .errOutput].Disjoint
          [tmpName b .output, tmpName b .errOutput]) :=
      ⟨fun _ _ hd _ ha hb => hd hb ha⟩
    refine hdisj.forall hh hh' (append_errSuffix_ne h).symm
      (List.mem_cons_of_mem _ (List.mem_cons_self ..)) (List.mem_cons_self ..)
