import Mathlib.Data.Nat.Init
import Mathlib.Tactic.Basic

/-!
# Bounded loops

A loop without a bound of its own – `for { … continue … break … }` – is read
here as a body that either goes on with a new state or breaks with a result,
and is run by fuel. The fuel is not part of what a loop means: where every
turn lowers a measure, any fuel above the measure gives the same result
(`Loop.exists_run`), and that rule is also the only induction a proof about
a loop needs, since it carries an invariant to the result.
-/

namespace Loop

variable {σ ρ : Type*}

/-- **A loop, by fuel**: `none` where the fuel does not suffice. -/
def run (body : σ → σ ⊕ ρ) : ℕ → σ → Option ρ
  | 0, _ => none
  | fuel + 1, s =>
    match body s with
    | .inl s' => run body fuel s'
    | .inr r => some r

/-- A turn that goes on. -/
theorem run_of_inl {body : σ → σ ⊕ ρ} {s s' : σ} (h : body s = .inl s') (fuel : ℕ) :
    run body (fuel + 1) s = run body fuel s' := by
  rw [run, h]

/-- A turn that breaks. -/
theorem run_of_inr {body : σ → σ ⊕ ρ} {s : σ} {r : ρ} (h : body s = .inr r) (fuel : ℕ) :
    run body (fuel + 1) s = some r := by
  rw [run, h]

/-- **The rule of a loop that ends.** Where an invariant is kept by every
turn that goes on, which also lowers the measure, and every turn that breaks
establishes `post`, the loop has a result with that property, and any fuel
above the measure of its start gives it. -/
theorem exists_run (body : σ → σ ⊕ ρ) (inv : σ → Prop) (post : ρ → Prop) (μ : σ → ℕ)
    (hgo : ∀ s s', inv s → body s = .inl s' → inv s' ∧ μ s' < μ s)
    (hbreak : ∀ s r, inv s → body s = .inr r → post r)
    {s : σ} (hs : inv s) :
    ∃ r, (∀ fuel, μ s < fuel → run body fuel s = some r) ∧ post r := by
  induction hn : μ s using Nat.strong_induction_on generalizing s with
  | _ n ih =>
    cases hb : body s with
    | inr r =>
      refine ⟨r, fun fuel hfuel => ?_, hbreak s r hs hb⟩
      obtain ⟨fuel, rfl⟩ := Nat.exists_eq_add_one_of_ne_zero (Nat.ne_zero_of_lt hfuel)
      exact run_of_inr hb fuel
    | inl s' =>
      obtain ⟨hs', hlt⟩ := hgo s s' hs hb
      obtain ⟨r, hr, hpost⟩ := ih (μ s') (hn ▸ hlt) hs' rfl
      refine ⟨r, fun fuel hfuel => ?_, hpost⟩
      obtain ⟨fuel, rfl⟩ := Nat.exists_eq_add_one_of_ne_zero (Nat.ne_zero_of_lt hfuel)
      rw [run_of_inl hb]
      exact hr fuel (by omega)

end Loop
