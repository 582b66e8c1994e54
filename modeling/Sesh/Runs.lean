import Mathlib.Data.List.Basic
import Mathlib.Data.List.TakeWhile
import Mathlib.Data.Nat.Init
import Mathlib.Tactic.Basic

/-!
# Maximal runs

A list in which some symbols are separators is made of runs of the others. A
run is maximal if no symbol can be added to it on either side: it begins the
list or follows a separator, and it ends the list or a separator follows it
(`MaximalRun`). The maximal runs of a list, in the order of their places, are
what it *lists* (`Lists`).

Tokens are found in another way, by splitting at every separator and
dropping the empty pieces (`tokens`). The two are the same for every list
(`lists_tokens`): nothing is said of how many separators stand between two
runs, or before the first and after the last.
-/

namespace Runs

variable {α : Type*} (sep : α → Bool)

/-- **A maximal run**: `w` stands after `pre` and before `post`, is not
empty, has no separator in it, and can be extended on neither side. -/
structure MaximalRun (s pre w post : List α) : Prop where
  /-- Where it stands. -/
  eq : s = pre ++ (w ++ post)
  ne_nil : w ≠ []
  free : ∀ c ∈ w, sep c = false
  /-- It follows a separator, if anything. -/
  before : ∀ c ∈ pre.getLast?, sep c = true
  /-- It is followed by a separator, if by anything. -/
  after : ∀ c ∈ post.head?, sep c = true

/-- **The maximal runs of a list are `ws`**, in the order of the places they
stand at, a run that is there twice being listed twice. -/
def Lists (s : List α) (ws : List (List α)) : Prop :=
  ∃ runs : List (ℕ × List α), runs.Pairwise (fun a b => a.1 < b.1)
    ∧ (∀ i w, (i, w) ∈ runs
      ↔ ∃ pre post, pre.length = i ∧ MaximalRun sep s pre w post)
    ∧ ws = runs.map Prod.snd

/-- **The tokens of a list**: what stands between its separators, and is not
empty. -/
def tokens (s : List α) : List (List α) := (s.splitOnP sep).filter (fun w => !w.isEmpty)

variable {sep}

/-! ## Tokens -/

/-- A separator ends what was begun. -/
theorem tokens_append_cons (s t : List α) {c : α} (hc : sep c = true) :
    tokens sep (s ++ c :: t) = tokens sep s ++ tokens sep t := by
  rw [tokens, List.splitOnP_append_cons s t hc, List.filter_append]
  rfl

theorem tokens_cons {c : α} (hc : sep c = true) (s : List α) :
    tokens sep (c :: s) = tokens sep s :=
  tokens_append_cons [] s hc

/-- Without a separator there is one token. -/
theorem tokens_of_free {w : List α} (hne : w ≠ []) (hw : ∀ c ∈ w, sep c = false) :
    tokens sep w = [w] := by
  rw [tokens, List.splitOnP_eq_singleton hw]
  exact List.filter_cons_of_pos (by simpa using hne)

/-- Separators alone have no tokens, and those at the start say nothing. -/
theorem tokens_append_of_sep {g : List α} (hg : ∀ c ∈ g, sep c = true) (s : List α) :
    tokens sep (g ++ s) = tokens sep s := by
  induction g with
  | nil => rfl
  | cons c g ih =>
    obtain ⟨hc, hg⟩ := List.forall_mem_cons.mp hg
    rw [List.cons_append, tokens_cons hc, ih hg]

/-- **Any separators between two lists divide their tokens.** -/
theorem tokens_append_append {g : List α} (hne : g ≠ []) (hg : ∀ c ∈ g, sep c = true)
    (s t : List α) : tokens sep (s ++ (g ++ t)) = tokens sep s ++ tokens sep t := by
  obtain ⟨c, g, rfl⟩ := List.exists_cons_of_ne_nil hne
  obtain ⟨hc, hg⟩ := List.forall_mem_cons.mp hg
  rw [List.cons_append, tokens_append_cons s _ hc, tokens_append_of_sep hg]

/-- No piece of a split has a separator in it. -/
theorem free_of_mem_splitOnP {s w : List α} (hw : w ∈ s.splitOnP sep) :
    ∀ c ∈ w, sep c = false := by
  induction s generalizing w with
  | nil =>
    rw [List.splitOnP_nil, List.mem_singleton] at hw
    rw [hw]
    exact fun c hc => absurd hc List.not_mem_nil
  | cons c s ih =>
    rw [List.splitOnP_cons_eq_if_modifyHead] at hw
    split at hw
    · rcases List.mem_cons.mp hw with rfl | hw
      · exact fun c hc => absurd hc List.not_mem_nil
      · exact ih hw
    · rename_i hc
      obtain ⟨u, us, hsplit⟩ := List.exists_cons_of_ne_nil (List.splitOnP_ne_nil sep s)
      rw [hsplit] at hw ih
      rcases List.mem_cons.mp hw with rfl | hw
      · exact List.forall_mem_cons.mpr
          ⟨Bool.eq_false_iff.mpr hc, ih List.mem_cons_self⟩
      · exact ih (List.mem_cons_of_mem u hw)

/-- No piece of a split has what it was split at. -/
theorem notMem_of_mem_splitOn [BEq α] [LawfulBEq α] {c : α} {s w : List α}
    (hw : w ∈ s.splitOn c) : c ∉ w := by
  intro hc
  rw [List.splitOn_eq_splitOnP] at hw
  have hfree := free_of_mem_splitOnP hw c hc
  rw [beq_self_eq_true] at hfree
  cases hfree

/-- No token has a separator in it. -/
theorem free_of_mem_tokens {s w : List α} (hw : w ∈ tokens sep s) :
    ∀ c ∈ w, sep c = false :=
  free_of_mem_splitOnP (List.mem_filter.mp hw).1

theorem ne_nil_of_mem_tokens {s w : List α} (hw : w ∈ tokens sep s) : w ≠ [] := by
  have h := (List.mem_filter.mp hw).2
  simpa using h

/-- A symbol that is no separator is in a token. -/
theorem exists_mem_tokens {s : List α} {c : α} (hmem : c ∈ s) (hc : sep c = false) :
    ∃ w ∈ tokens sep s, c ∈ w := by
  have hflat : c ∈ (s.splitOnP sep).flatten := by
    induction s with
    | nil => exact absurd hmem List.not_mem_nil
    | cons d s ih =>
      rw [List.splitOnP_cons_eq_if_modifyHead]
      split
      · rename_i hd
        have hne : c ≠ d := by
          rintro rfl
          rw [hc] at hd
          cases hd
        exact ih ((List.mem_cons.mp hmem).resolve_left hne)
      · obtain ⟨u, us, hsplit⟩ := List.exists_cons_of_ne_nil (List.splitOnP_ne_nil sep s)
        rw [hsplit] at ih ⊢
        show c ∈ d :: (u :: us).flatten
        exact List.mem_cons.mpr ((List.mem_cons.mp hmem).imp_right ih)
  obtain ⟨w, hw, hcw⟩ := List.mem_flatten.mp hflat
  refine ⟨w, List.mem_filter.mpr ⟨hw, ?_⟩, hcw⟩
  simpa using List.ne_nil_of_mem hcw

/-- **Runs with separators between them are the tokens**: each run is
followed by its separators, of which only the last may have none. -/
theorem tokens_flatMap {ps : List (List α × List α)}
    (hrun : ∀ p ∈ ps, p.1 ≠ [] ∧ ∀ c ∈ p.1, sep c = false)
    (hsep : ∀ p ∈ ps, ∀ c ∈ p.2, sep c = true) (hne : ∀ p ∈ ps.dropLast, p.2 ≠ []) :
    tokens sep (ps.flatMap (fun p => p.1 ++ p.2)) = ps.map Prod.fst := by
  induction ps with
  | nil => rfl
  | cons p ps ih =>
    obtain ⟨⟨hp, hfree⟩, hrun⟩ := List.forall_mem_cons.mp hrun
    obtain ⟨hg, hsep⟩ := List.forall_mem_cons.mp hsep
    have hlast : ∀ q ∈ ps.dropLast, q.2 ≠ [] := by
      intro q hq
      cases ps with
      | nil => exact absurd hq List.not_mem_nil
      | cons p' ps => exact hne q (List.mem_cons_of_mem p hq)
    have htail := ih hrun hsep hlast
    rw [List.flatMap_cons, List.append_assoc, List.map_cons, ← htail]
    by_cases hnil : p.2 = []
    · -- only the last run is not followed by a separator
      have hps : ps = [] := by
        cases ps with
        | nil => rfl
        | cons p' ps => exact absurd hnil (hne p List.mem_cons_self)
      rw [hps, hnil]
      show tokens sep (p.1 ++ []) = [p.1]
      rw [List.append_nil, tokens_of_free hp hfree]
    · rw [tokens_append_append hnil hg, tokens_of_free hp hfree]
      rfl

/-! ## The ends of a list -/

section Ends

variable {p : α → Prop} {c : α} {s t : List α}

theorem forall_mem_head?_append (hs : ∀ d ∈ s.head?, p d) (ht : ∀ d ∈ t.head?, p d) :
    ∀ d ∈ (s ++ t).head?, p d := by
  cases s with
  | nil => exact ht
  | cons e s => exact hs

theorem forall_mem_getLast?_cons (hc : p c) (hs : ∀ d ∈ s.getLast?, p d) :
    ∀ d ∈ (c :: s).getLast?, p d := by
  intro d hd
  rw [List.getLast?_cons] at hd
  cases hlast : s.getLast? with
  | none =>
    rw [hlast] at hd
    rw [← Option.some.inj hd]
    exact hc
  | some e =>
    rw [hlast] at hd
    rw [← Option.some.inj hd]
    exact hs e hlast

end Ends

/-! ## Maximal runs -/

/-- Where a maximal run begins the list, it is all that stands before the
first separator. -/
theorem MaximalRun.eq_takeWhile {s w post : List α} (h : MaximalRun sep s [] w post) :
    w = s.takeWhile (fun c => !sep c) := by
  have hpost : post.takeWhile (fun c => !sep c) = [] := by
    cases post with
    | nil => rfl
    | cons c post => exact List.takeWhile_cons_of_neg (by rw [h.after c rfl]; exact nofun)
  rw [h.eq, List.nil_append, List.takeWhile_append_of_pos (fun c hc => by rw [h.free c hc]; rfl),
    hpost, List.append_nil]

/-- What stands before a maximal run, if anything, has a separator in it. -/
theorem MaximalRun.exists_mem {s pre w post : List α} (h : MaximalRun sep s pre w post)
    (hpre : pre ≠ []) : ∃ c ∈ pre, sep c = true := by
  have hlast := List.getLast?_eq_some_getLast hpre
  exact ⟨pre.getLast hpre, List.getLast_mem hpre, h.before _ hlast⟩

/-- The maximal runs after a separator are those of what follows it. -/
theorem maximalRun_cons {c : α} (hc : sep c = true) {s pre w post : List α} :
    MaximalRun sep (c :: s) pre w post
      ↔ ∃ pre', pre = c :: pre' ∧ MaximalRun sep s pre' w post := by
  constructor
  · intro h
    cases pre with
    | nil =>
      -- the separator would be in the run
      obtain ⟨d, w, rfl⟩ := List.exists_cons_of_ne_nil h.ne_nil
      obtain ⟨rfl, -⟩ := List.cons.inj h.eq
      have hfree := h.free c List.mem_cons_self
      rw [hc] at hfree
      cases hfree
    | cons d pre' =>
      obtain ⟨rfl, heq⟩ := List.cons.inj h.eq
      refine ⟨pre', rfl, heq, h.ne_nil, h.free, fun e he => h.before e ?_, h.after⟩
      rw [List.getLast?_cons, he]
      rfl
  · rintro ⟨pre', rfl, h⟩
    exact ⟨congrArg (c :: ·) h.eq, h.ne_nil, h.free, forall_mem_getLast?_cons hc h.before,
      h.after⟩

/-- What reaches beyond `u` into a list that begins with `u` and `c`, begins
with both. -/
theorem exists_append_cons {u s l r : List α} {c d : α} (h : u ++ c :: s = l ++ r) (hd : d ∈ l)
    (hdu : d ∉ u) : ∃ l', l = u ++ c :: l' := by
  rcases List.append_eq_append_iff.mp h with ⟨a, ha, hrest⟩ | ⟨b, hb, -⟩
  · cases a with
    | nil =>
      rw [ha, List.append_nil] at hd
      exact absurd hd hdu
    | cons e a =>
      obtain ⟨rfl, -⟩ := List.cons.inj hrest
      exact ⟨a, ha⟩
  · rw [hb] at hdu
    exact absurd (List.mem_append_left b hd) hdu

/-- The maximal runs of a list that begins with one, and a separator. -/
theorem maximalRun_append_cons {u : List α} (hne : u ≠ []) (hu : ∀ c ∈ u, sep c = false)
    {c : α} (hc : sep c = true) {s pre w post : List α} :
    MaximalRun sep (u ++ c :: s) pre w post
      ↔ (pre = [] ∧ w = u ∧ post = c :: s)
        ∨ ∃ pre', pre = u ++ c :: pre' ∧ MaximalRun sep s pre' w post := by
  constructor
  · intro h
    by_cases hpre : pre = []
    · subst hpre
      have hw : w = u := by
        rw [h.eq_takeWhile, List.takeWhile_append_of_pos (fun d hd => by rw [hu d hd]; rfl),
          List.takeWhile_cons_of_neg (by rw [hc]; exact nofun), List.append_nil]
      refine Or.inl ⟨rfl, hw, ?_⟩
      have heq := h.eq
      rw [hw] at heq
      exact (List.append_cancel_left heq).symm
    · refine Or.inr ?_
      -- the separator before the run is not in `u`
      obtain ⟨d, hd, hsep⟩ := h.exists_mem hpre
      have hdu : d ∉ u := fun hmem => by
        rw [hu d hmem] at hsep
        cases hsep
      obtain ⟨pre', rfl⟩ := exists_append_cons h.eq hd hdu
      have heq := h.eq
      rw [List.append_assoc] at heq
      have hs : MaximalRun sep (c :: s) (c :: pre') w post := by
        refine ⟨List.append_cancel_left heq, h.ne_nil, h.free, fun e he => h.before e ?_, h.after⟩
        rw [List.getLast?_append_of_ne_nil _ (List.cons_ne_nil c pre')]
        exact he
      obtain ⟨pre'', hpre'', hrun⟩ := (maximalRun_cons hc).mp hs
      obtain ⟨-, rfl⟩ := List.cons.inj hpre''
      exact ⟨pre', rfl, hrun⟩
  · rintro (⟨rfl, rfl, rfl⟩ | ⟨pre', rfl, h⟩)
    · refine ⟨rfl, hne, hu, fun d hd => ?_, fun d hd => ?_⟩
      · cases hd
      · rw [← Option.some.inj hd]
        exact hc
    · have hs := (maximalRun_cons hc).mpr ⟨pre', rfl, h⟩
      refine ⟨?_, hs.ne_nil, hs.free, fun e he => hs.before e ?_, hs.after⟩
      · rw [hs.eq, List.append_assoc]
      · rw [List.getLast?_append_of_ne_nil _ (List.cons_ne_nil c pre')] at he
        exact he

/-- A list without separators is its only maximal run. -/
theorem maximalRun_of_free {u : List α} (hne : u ≠ []) (hu : ∀ c ∈ u, sep c = false)
    {pre w post : List α} :
    MaximalRun sep u pre w post ↔ pre = [] ∧ w = u ∧ post = [] := by
  constructor
  · intro h
    have hpre : pre = [] := by
      by_contra hpre
      obtain ⟨d, hd, hsep⟩ := h.exists_mem hpre
      have hmem : d ∈ u := by
        rw [h.eq]
        exact List.mem_append_left _ hd
      rw [hu d hmem] at hsep
      cases hsep
    subst hpre
    have hw : w = u := by
      rw [h.eq_takeWhile, List.takeWhile_eq_self_iff]
      intro d hd
      rw [hu d hd]
      rfl
    refine ⟨rfl, hw, ?_⟩
    have heq := h.eq
    rw [hw] at heq
    exact (List.append_right_eq_self.mp heq.symm)
  · rintro ⟨rfl, rfl, rfl⟩
    exact ⟨(List.append_nil w).symm, hne, hu, nofun, nofun⟩

/-! ## Listing them -/

theorem lists_nil : Lists sep [] [] := by
  refine ⟨[], List.Pairwise.nil, fun i w => ⟨fun h => absurd h List.not_mem_nil, ?_⟩, rfl⟩
  rintro ⟨pre, post, -, h⟩
  have hnil := List.append_eq_nil_iff.mp h.eq.symm
  exact absurd (List.append_eq_nil_iff.mp hnil.2).1 h.ne_nil

/-- A separator only moves the runs after it. -/
theorem Lists.cons {c : α} (hc : sep c = true) {s : List α} {ws : List (List α)}
    (h : Lists sep s ws) : Lists sep (c :: s) ws := by
  obtain ⟨runs, hsorted, hmem, rfl⟩ := h
  refine ⟨runs.map (fun r => (r.1 + 1, r.2)), ?_, fun i w => ?_, ?_⟩
  · exact List.pairwise_map.mpr (hsorted.imp fun h => Nat.succ_lt_succ h)
  · rw [List.mem_map]
    constructor
    · rintro ⟨⟨j, w⟩, hr, heq⟩
      obtain ⟨rfl, rfl⟩ := Prod.mk.inj heq
      obtain ⟨pre, post, rfl, hrun⟩ := (hmem j w).mp hr
      exact ⟨c :: pre, post, rfl, (maximalRun_cons hc).mpr ⟨pre, rfl, hrun⟩⟩
    · rintro ⟨pre, post, rfl, hrun⟩
      obtain ⟨pre', rfl, hrun'⟩ := (maximalRun_cons hc).mp hrun
      exact ⟨(pre'.length, w), (hmem _ _).mpr ⟨pre', post, rfl, hrun'⟩, rfl⟩
  · rw [List.map_map]
    rfl

/-- A run and a separator come before the runs after them. -/
theorem Lists.append_cons {u : List α} (hne : u ≠ []) (hu : ∀ c ∈ u, sep c = false)
    {c : α} (hc : sep c = true) {s : List α} {ws : List (List α)} (h : Lists sep s ws) :
    Lists sep (u ++ c :: s) (u :: ws) := by
  obtain ⟨runs, hsorted, hmem, rfl⟩ := h
  refine ⟨(0, u) :: runs.map (fun r => (u.length + 1 + r.1, r.2)), ?_, fun i w => ?_, ?_⟩
  · refine List.pairwise_cons.mpr ⟨fun r hr => ?_, ?_⟩
    · obtain ⟨r', -, rfl⟩ := List.mem_map.mp hr
      show 0 < u.length + 1 + r'.1
      omega
    · exact List.pairwise_map.mpr (hsorted.imp fun h => Nat.add_lt_add_left h _)
  · rw [List.mem_cons, List.mem_map]
    constructor
    · rintro (heq | ⟨⟨j, w⟩, hr, heq⟩)
      · obtain ⟨rfl, rfl⟩ := Prod.mk.inj heq
        exact ⟨[], c :: s, rfl, (maximalRun_append_cons hne hu hc).mpr (Or.inl ⟨rfl, rfl, rfl⟩)⟩
      · obtain ⟨rfl, rfl⟩ := Prod.mk.inj heq
        obtain ⟨pre, post, rfl, hrun⟩ := (hmem j w).mp hr
        refine ⟨u ++ c :: pre, post, ?_,
          (maximalRun_append_cons hne hu hc).mpr (Or.inr ⟨pre, rfl, hrun⟩)⟩
        rw [List.length_append, List.length_cons]
        omega
    · rintro ⟨pre, post, rfl, hrun⟩
      rcases (maximalRun_append_cons hne hu hc).mp hrun with ⟨rfl, rfl, -⟩ | ⟨pre', rfl, hrun'⟩
      · exact Or.inl rfl
      · refine Or.inr ⟨(pre'.length, w), (hmem _ _).mpr ⟨pre', post, rfl, hrun'⟩, ?_⟩
        rw [List.length_append, List.length_cons]
        exact Prod.ext (by show _ = _; omega) rfl
  · rw [List.map_cons, List.map_map]
    rfl

theorem lists_of_free {u : List α} (hne : u ≠ []) (hu : ∀ c ∈ u, sep c = false) :
    Lists sep u [u] := by
  refine ⟨[(0, u)], List.pairwise_singleton _ _, fun i w => ?_, rfl⟩
  rw [List.mem_singleton]
  constructor
  · intro heq
    obtain ⟨rfl, rfl⟩ := Prod.mk.inj heq
    exact ⟨[], [], rfl, (maximalRun_of_free hne hu).mpr ⟨rfl, rfl, rfl⟩⟩
  · rintro ⟨pre, post, rfl, hrun⟩
    obtain ⟨rfl, rfl, -⟩ := (maximalRun_of_free hne hu).mp hrun
    rfl

/-- **The tokens are the maximal runs.** -/
theorem lists_tokens (s : List α) : Lists sep s (tokens sep s) := by
  -- by the length of the list: a separator, or a run up to the next one, is taken off it
  induction hn : s.length using Nat.strong_induction_on generalizing s with
  | _ n ih =>
    have hsplit := List.takeWhile_append_dropWhile (p := fun c => !sep c) (l := s)
    have hfree : ∀ c ∈ s.takeWhile (fun c => !sep c), sep c = false := fun c hc => by
      simpa using List.mem_takeWhile_imp hc
    cases hrest : s.dropWhile (fun c => !sep c) with
    | nil =>
      rw [hrest, List.append_nil] at hsplit
      rw [hsplit] at hfree
      by_cases hs : s = []
      · rw [hs]
        exact lists_nil
      · rw [tokens_of_free hs hfree]
        exact lists_of_free hs hfree
    | cons c t =>
      have hc : sep c = true := by
        have hne : s.dropWhile (fun c => !sep c) ≠ [] := by rw [hrest]; exact nofun
        have h := List.head_dropWhile_not (fun c => !sep c) hne
        simpa [hrest] using h
      rw [hrest] at hsplit
      have ht : Lists sep t (tokens sep t) := by
        refine ih t.length ?_ t rfl
        rw [← hn, ← hsplit, List.length_append, List.length_cons]
        omega
      rw [← hsplit, tokens_append_cons _ _ hc]
      by_cases hu : s.takeWhile (fun c => !sep c) = []
      · rw [hu]
        exact ht.cons hc
      · rw [tokens_of_free hu hfree]
        exact ht.append_cons hu hfree hc

/-- What is listed stands somewhere in the list. -/
theorem Lists.exists_maximalRun {s w : List α} {ws : List (List α)} (h : Lists sep s ws)
    (hw : w ∈ ws) : ∃ pre post, MaximalRun sep s pre w post := by
  obtain ⟨runs, -, hmem, rfl⟩ := h
  obtain ⟨⟨i, u⟩, hr, rfl⟩ := List.mem_map.mp hw
  obtain ⟨pre, post, -, hrun⟩ := (hmem i u).mp hr
  exact ⟨pre, post, hrun⟩

theorem infix_of_mem_tokens {s w : List α} (hw : w ∈ tokens sep s) : w <:+: s := by
  obtain ⟨pre, post, hrun⟩ := (lists_tokens s).exists_maximalRun hw
  refine ⟨pre, post, ?_⟩
  rw [List.append_assoc]
  exact hrun.eq.symm

/-- The symbols of a token are symbols of the list. -/
theorem mem_of_mem_tokens {s w : List α} (hw : w ∈ tokens sep s) {c : α} (hc : c ∈ w) :
    c ∈ s :=
  (infix_of_mem_tokens hw).subset hc

/-- A piece of a split stands in what was split. -/
theorem infix_of_mem_splitOn [BEq α] {c : α} {s w : List α} (hw : w ∈ s.splitOn c) :
    w <:+: s := by
  by_cases hne : w = []
  · rw [hne]
    exact List.nil_infix
  · rw [List.splitOn_eq_splitOnP] at hw
    exact infix_of_mem_tokens (List.mem_filter.mpr ⟨hw, by simpa using hne⟩)

end Runs
