import Mathlib.Data.List.Basic
import Mathlib.Data.List.Infix
import Mathlib.Tactic.Basic

/-!
# Deleting the matches of a pattern

A pattern is a set of words, and a place of a list is inside a match if a
word of the pattern stands there (`Inside`). To delete every match is to keep
the symbols at the other places (`delete`). Nothing in this depends on the
order in which matches are found.

A program deletes them from left to right, and goes on after each one it
finds. That is the same thing where matches do not overlap, and they do not
where every word begins with a mark that is nowhere else in it, and none is
the beginning of another (`Marked`). The two rules `delete_cons` and
`delete_append` are then the two turns of such a program.
-/

namespace Matches

variable {α : Type*} (code : List α → Prop)

/-- **The place `i` of a list is inside a match.** -/
def Inside (s : List α) (i : ℕ) : Prop :=
  ∃ a w b, s = a ++ (w ++ b) ∧ code w ∧ a.length ≤ i ∧ i < a.length + w.length

open Classical in
/-- The symbols at the places where `P` does not hold. -/
noncomputable def dropAt (P : ℕ → Prop) : List α → List α
  | [] => []
  | c :: s => if P 0 then dropAt (fun i => P (i + 1)) s else c :: dropAt (fun i => P (i + 1)) s

/-- **A list without its matches.** -/
noncomputable def delete (s : List α) : List α := dropAt (Inside code s) s

/-- **Matches do not overlap**: a word begins with the mark, which is nowhere
else in it, and no word is the beginning of another. -/
structure Marked (mark : α) : Prop where
  starts : ∀ w, code w → ∃ t, w = mark :: t ∧ mark ∉ t
  incomparable : ∀ w w', code w → code w' → w <+: w' → w = w'

variable {code}

/-! ## Keeping some places -/

theorem dropAt_congr {P Q : ℕ → Prop} (h : ∀ i, P i ↔ Q i) (s : List α) :
    dropAt P s = dropAt Q s := by
  have hPQ : P = Q := funext fun i => propext (h i)
  rw [hPQ]

theorem dropAt_append (P : ℕ → Prop) (u s : List α) :
    dropAt P (u ++ s) = dropAt P u ++ dropAt (fun i => P (u.length + i)) s := by
  induction u generalizing P with
  | nil => exact dropAt_congr (fun i => by rw [List.length_nil, Nat.zero_add]) s
  | cons c u ih =>
    have hshift : dropAt (fun i => P (u.length + i + 1)) s
        = dropAt (fun i => P ((c :: u).length + i)) s :=
      dropAt_congr (fun i => by rw [List.length_cons, Nat.add_right_comm]) s
    rw [List.cons_append, dropAt, dropAt, ih, hshift]
    split <;> rfl

theorem dropAt_eq_nil {P : ℕ → Prop} {s : List α} (h : ∀ i < s.length, P i) :
    dropAt P s = [] := by
  induction s generalizing P with
  | nil => rfl
  | cons c s ih =>
    rw [dropAt, if_pos (h 0 (Nat.succ_pos _))]
    exact ih fun i hi => h (i + 1) (Nat.succ_lt_succ hi)

theorem length_dropAt_le (P : ℕ → Prop) (s : List α) : (dropAt P s).length ≤ s.length := by
  induction s generalizing P with
  | nil => exact le_refl 0
  | cons c s ih =>
    rw [dropAt]
    split
    · exact Nat.le_succ_of_le (ih _)
    · exact Nat.succ_le_succ (ih _)

/-- Nothing is dropped only where there is no place to drop. -/
theorem dropAt_eq_self_iff {P : ℕ → Prop} {s : List α} :
    dropAt P s = s ↔ ∀ i < s.length, ¬ P i := by
  induction s generalizing P with
  | nil => exact iff_of_true rfl (fun i hi => absurd hi (Nat.not_lt_zero i))
  | cons c s ih =>
    rw [dropAt]
    split
    · rename_i h₀
      refine iff_of_false (fun h => ?_) (fun h => h 0 (Nat.succ_pos _) h₀)
      have hle := length_dropAt_le (fun i => P (i + 1)) s
      rw [h, List.length_cons] at hle
      exact Nat.not_succ_le_self _ hle
    · rename_i h₀
      rw [List.cons.injEq, ih]
      constructor
      · rintro ⟨-, h⟩ i hi
        cases i with
        | zero => exact h₀
        | succ i => exact h i (Nat.lt_of_succ_lt_succ hi)
      · exact fun h => ⟨rfl, fun i hi => h (i + 1) (Nat.succ_lt_succ hi)⟩

/-! ## Deleting -/

theorem delete_nil : delete code [] = [] := rfl

/-- A match further on is one of the rest. -/
theorem Inside.append {s : List α} {i : ℕ} (h : Inside code s i) (u : List α) :
    Inside code (u ++ s) (u.length + i) := by
  obtain ⟨a, w, b, rfl, hw, hle, hlt⟩ := h
  refine ⟨u ++ a, w, b, (List.append_assoc u a _).symm, hw, ?_, ?_⟩
  · rw [List.length_append]
    omega
  · rw [List.length_append]
    omega

/-- **Where no match begins, the symbol is kept.** -/
theorem delete_cons {c : α} {s : List α} (h : ∀ w, code w → ¬ w <+: c :: s) :
    delete code (c :: s) = c :: delete code s := by
  have hstart : ∀ {i}, Inside code (c :: s) i → ∃ j, i = j + 1 ∧ Inside code s j := by
    rintro i ⟨a, w, b, heq, hw, hle, hlt⟩
    cases a with
    | nil => exact absurd ⟨b, heq.symm⟩ (h w hw)
    | cons d a =>
      obtain ⟨j, rfl⟩ := Nat.exists_eq_add_of_lt (Nat.lt_of_lt_of_le (Nat.succ_pos _) hle)
      rw [Nat.zero_add] at hle hlt ⊢
      rw [List.length_cons] at hle hlt
      exact ⟨j, rfl, a, w, b, (List.cons.inj heq).2, hw, by omega, by omega⟩
  have hzero : ¬ Inside code (c :: s) 0 := by
    intro h₀
    obtain ⟨j, hj, -⟩ := hstart h₀
    cases hj
  rw [delete, dropAt, if_neg hzero]
  refine congrArg (c :: ·) (dropAt_congr (fun i => ⟨fun hi => ?_, fun hi => ?_⟩) s)
  · obtain ⟨j, hj, hin⟩ := hstart hi
    obtain rfl := Nat.succ.inj hj
    exact hin
  · have happ := hi.append [c]
    rw [List.length_singleton, Nat.add_comm] at happ
    exact happ

/-- After a match, no other one begins in it. -/
theorem Marked.le_length {mark : α} (hm : Marked code mark) {w s a w' b : List α}
    (hw : code w) (hw' : code w') (heq : w ++ s = a ++ (w' ++ b)) :
    (a = [] ∧ w' = w) ∨ w.length ≤ a.length := by
  rcases List.append_eq_append_iff.mp heq with ⟨d, ha, -⟩ | ⟨d, hd, hrest⟩
  · exact Or.inr (by rw [ha, List.length_append]; omega)
  · by_cases hdnil : d = []
    · rw [hdnil, List.append_nil] at hd
      exact Or.inr (by rw [hd])
    · obtain ⟨t, rfl, ht⟩ := hm.starts w hw
      obtain ⟨t', rfl, ht'⟩ := hm.starts w' hw'
      obtain ⟨e, d, rfl⟩ := List.exists_cons_of_ne_nil hdnil
      obtain ⟨rfl, -⟩ := List.cons.inj hrest
      cases a with
      | nil =>
        refine Or.inl ⟨rfl, ?_⟩
        have hpre : mark :: t <+: mark :: t' ++ b := ⟨s, heq⟩
        rcases List.prefix_or_prefix_of_prefix hpre (List.prefix_append _ b) with h | h
        · exact (hm.incomparable _ _ hw hw' h).symm
        · exact hm.incomparable _ _ hw' hw h
      | cons f a =>
        -- the mark would be in the rest of the first word
        obtain ⟨-, rfl⟩ := List.cons.inj hd
        exact absurd (List.mem_append_right a List.mem_cons_self) ht

/-- **A match is deleted whole, and the rest is as it would be alone.** -/
theorem delete_append {mark : α} (hm : Marked code mark) {w : List α} (hw : code w)
    (s : List α) : delete code (w ++ s) = delete code s := by
  have hin : ∀ i < w.length, Inside code (w ++ s) i :=
    fun i hi => ⟨[], w, s, rfl, hw, Nat.zero_le i, by rw [List.length_nil]; omega⟩
  have hrest : ∀ i, Inside code (w ++ s) (w.length + i) ↔ Inside code s i := by
    refine fun i => ⟨?_, fun h => h.append w⟩
    rintro ⟨a, w', b, heq, hw', hle, hlt⟩
    rcases hm.le_length hw hw' heq with ⟨rfl, rfl⟩ | hlen
    · rw [List.length_nil] at hlt
      omega
    · obtain ⟨a', rfl⟩ : w <+: a := List.prefix_of_prefix_length_le
        ⟨s, heq⟩ (List.prefix_append a _) hlen
      rw [List.append_assoc] at heq
      rw [List.length_append] at hle hlt
      exact ⟨a', w', b, List.append_cancel_left heq, hw', by omega, by omega⟩
  rw [delete, dropAt_append, dropAt_eq_nil hin, List.nil_append]
  exact dropAt_congr hrest s

/-- **Nothing is deleted exactly where there is no match.** -/
theorem delete_eq_self_iff (hne : ∀ w, code w → w ≠ []) {s : List α} :
    delete code s = s ↔ ∀ w, code w → ¬ w <:+: s := by
  rw [delete, dropAt_eq_self_iff]
  constructor
  · rintro h w hw ⟨a, b, rfl⟩
    have hpos := List.length_pos_iff.mpr (hne w hw)
    refine h a.length ?_ ⟨a, w, b, List.append_assoc a w b, hw, le_refl _, ?_⟩
    · rw [List.length_append, List.length_append]
      omega
    · omega
  · rintro h i - ⟨a, w, b, rfl, hw, -⟩
    exact h w hw ⟨a, b, List.append_assoc a w b⟩

end Matches
