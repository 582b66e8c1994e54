import Mathlib.Algebra.BigOperators.Group.List.Basic
import Mathlib.Algebra.Ring.Nat
import Mathlib.Data.List.Count

/-!
# Replacing one task of a list

A group of tasks is a list of their states, and a task that moves replaces
its own entry. What a wait group counts, and what a measure adds up, then
changes by that one entry only.
-/

namespace TaskList

variable {α : Type*} {ts : List α} {i : ℕ} {t t' : α} {p : α → Bool}

/-- The count does not change when a task is replaced by one that counts as
it did. -/
theorem countP_set_of_eq (ht : ts[i]? = some t) (hp : p t' = p t) :
    (ts.set i t').countP p = ts.countP p := by
  obtain ⟨hlt, rfl⟩ := List.getElem?_eq_some_iff.mp ht
  rw [List.countP_set hlt, hp]
  by_cases hq : p ts[i] = true
  · rw [if_pos hq]
    have hpos : 0 < ts.countP p :=
      List.countP_pos_iff.mpr ⟨_, List.getElem_mem hlt, hq⟩
    omega
  · rw [if_neg hq, Nat.sub_zero, Nat.add_zero]

/-- The count goes down by one when a task that counts is replaced by one
that does not. -/
theorem countP_set_add_one (ht : ts[i]? = some t) (hp : p t = true)
    (hp' : p t' = false) : (ts.set i t').countP p + 1 = ts.countP p := by
  obtain ⟨hlt, rfl⟩ := List.getElem?_eq_some_iff.mp ht
  have hpos : 0 < ts.countP p :=
      List.countP_pos_iff.mpr ⟨_, List.getElem_mem hlt, hp⟩
  rw [List.countP_set hlt, if_pos hp, hp', if_neg Bool.false_ne_true]
  omega

/-- The sum of the costs changes by what the task's own cost does. -/
theorem sum_map_set (f : α → ℕ) (t' : α) (ht : ts[i]? = some t) :
    ((ts.set i t').map f).sum + f t = (ts.map f).sum + f t' := by
  induction ts generalizing i with
  | nil => cases ht
  | cons a ts ih =>
    cases i with
    | zero =>
      obtain rfl : a = t := Option.some.inj ht
      simp only [List.set_cons_zero, List.map_cons, List.sum_cons]
      omega
    | succ i =>
      have hrec := ih ht
      simp only [List.set_cons_succ, List.map_cons, List.sum_cons]
      omega

end TaskList
