import Mathlib.Data.List.Induction
import Mathlib.Data.Nat.Init
import Mathlib.Tactic.Basic

/-!
# Machines and their runs

A concurrent component is read here as a *machine*: a start state and a
partial step function on labels. The label of a step names the party that
moves and whatever the environment decides in that step, so a list of
labels is one schedule, and a run over it is a computation. Everything that
is quantified over schedules in this development – every interleaving,
every order of completion – is a quantification over such lists.

The rules of this module are the only ones the proofs about runs use. An
invariant is shown at the start and across one step (`Machine.run_rec`,
`Machine.reachable_rec`), or across the steps that meet a condition
(`Machine.meets_rec`). Termination is a measure that every step lowers
(`Machine.length_add_le_measure`), and a machine that never gets stuck
before its end then has a schedule that reaches it
(`Machine.exists_run_to`).
-/

/-- **A machine**: a start state and a partial step function on labels. -/
structure Machine (σ ℓ : Type*) where
  /-- The state every run starts in. -/
  start : σ
  /-- What a label does to a state, `none` where the step is not enabled. -/
  step : σ → ℓ → Option σ

namespace Machine

variable {σ ℓ : Type*} (M : Machine σ ℓ)

/-- The state a schedule leads to, if each of its steps is enabled. -/
def runFrom : σ → List ℓ → Option σ
  | s, [] => some s
  | s, l :: ls => (M.step s l).bind (fun s' => runFrom s' ls)

/-- The state a schedule leads to from the start. -/
def run (ls : List ℓ) : Option σ := M.runFrom M.start ls

/-- A state some schedule leads to. -/
def Reachable (s : σ) : Prop := ∃ ls, M.run ls = some s

/-- A label is enabled in a state when it has a step there. -/
def Enabled (s : σ) (l : ℓ) : Prop := (M.step s l).isSome = true

instance (s : σ) (l : ℓ) : Decidable (M.Enabled s l) :=
  inferInstanceAs (Decidable (_ = _))

/-- **Every step of a schedule meets the condition `c`** in the state it is
taken from. -/
def Meets (c : σ → ℓ → Prop) : σ → List ℓ → Prop
  | _, [] => True
  | s, l :: ls => c s l ∧ ∀ s', M.step s l = some s' → Meets c s' ls

/-- Whether a schedule meets a decidable condition can be computed. -/
instance decidableMeets (c : σ → ℓ → Prop) [∀ s l, Decidable (c s l)] :
    ∀ (s : σ) (ls : List ℓ), Decidable (M.Meets c s ls)
  | _, [] => isTrue trivial
  | s, l :: ls =>
    match h : M.step s l with
    | none => decidable_of_iff (c s l)
        ⟨fun hc => ⟨hc, fun _ hs => by rw [h] at hs; cases hs⟩, fun hm => hm.1⟩
    | some s₁ =>
      have := decidableMeets c s₁ ls
      decidable_of_iff (c s l ∧ M.Meets c s₁ ls)
        ⟨fun hc => ⟨hc.1, fun s' hs => by
            obtain rfl : s₁ = s' := Option.some.inj (h.symm.trans hs)
            exact hc.2⟩,
          fun hm => ⟨hm.1, hm.2 s₁ h⟩⟩

@[simp] theorem runFrom_nil (s : σ) : M.runFrom s [] = some s := rfl

theorem runFrom_cons (s : σ) (l : ℓ) (ls : List ℓ) :
    M.runFrom s (l :: ls) = (M.step s l).bind (fun s' => M.runFrom s' ls) := rfl

/-- A schedule cut in two runs as its two parts do. -/
theorem runFrom_append (s : σ) (ls ls' : List ℓ) :
    M.runFrom s (ls ++ ls')
      = (M.runFrom s ls).bind (fun s' => M.runFrom s' ls') := by
  induction ls generalizing s with
  | nil => rfl
  | cons l ls ih =>
    rw [List.cons_append, runFrom_cons, runFrom_cons, Option.bind_assoc]
    exact congrArg _ (funext ih)

/-- The last step of a schedule. -/
theorem runFrom_concat (s : σ) (ls : List ℓ) (l : ℓ) :
    M.runFrom s (ls ++ [l])
      = (M.runFrom s ls).bind (fun s' => M.step s' l) := by
  rw [runFrom_append]
  exact congrArg _ (funext fun s' => Option.bind_fun_some (M.step s' l))

variable {M}

theorem runFrom_trans {s s' s'' : σ} {ls ls' : List ℓ}
    (h : M.runFrom s ls = some s') (h' : M.runFrom s' ls' = some s'') :
    M.runFrom s (ls ++ ls') = some s'' := by
  rw [runFrom_append, h]
  exact h'

theorem Reachable.start : M.Reachable M.start := ⟨[], rfl⟩

/-- What a reachable state leads to is reachable. -/
theorem Reachable.runFrom {s s' : σ} {ls : List ℓ} (hs : M.Reachable s)
    (h : M.runFrom s ls = some s') : M.Reachable s' := by
  obtain ⟨ls₀, h₀⟩ := hs
  exact ⟨ls₀ ++ ls, runFrom_trans h₀ h⟩

/-- A step out of a reachable state. -/
theorem Reachable.step {s s' : σ} {l : ℓ} (hs : M.Reachable s)
    (h : M.step s l = some s') : M.Reachable s' := by
  have hrun : M.runFrom s [l] = some s' := by
    rw [runFrom_cons, h]
    rfl
  exact hs.runFrom hrun

/-! ## Invariants -/

/-- **The invariant rule, with the history**: what holds of the empty
schedule in the start state, and is kept when one step is added, holds of
every run. -/
theorem run_rec {P : List ℓ → σ → Prop} (h₀ : P [] M.start)
    (hstep : ∀ ls s l s', P ls s → M.step s l = some s' → P (ls ++ [l]) s')
    {ls : List ℓ} {s : σ} (h : M.run ls = some s) : P ls s := by
  induction ls using List.reverseRecOn generalizing s with
  | nil =>
    obtain rfl : M.start = s := Option.some.inj h
    exact h₀
  | append_singleton ls l ih =>
    rw [run, runFrom_concat] at h
    obtain ⟨s₁, h₁, h₂⟩ := Option.bind_eq_some_iff.mp h
    exact hstep ls s₁ l s (ih h₁) h₂

/-- **The invariant rule**: what holds in the start state and is kept by
every step holds in every reachable state. -/
theorem reachable_rec {P : σ → Prop} (h₀ : P M.start)
    (hstep : ∀ s l s', P s → M.step s l = some s' → P s')
    {s : σ} (h : M.Reachable s) : P s := by
  obtain ⟨ls, hls⟩ := h
  exact run_rec (P := fun _ s => P s) h₀ (fun _ s l s' => hstep s l s') hls

/-- **The invariant rule from any state**: what holds in a state and is kept
by every step holds wherever it leads. -/
theorem runFrom_rec {P : σ → Prop}
    (hstep : ∀ s l s', P s → M.step s l = some s' → P s')
    {ls : List ℓ} {s s' : σ} (hs : P s) (h : M.runFrom s ls = some s') : P s' := by
  induction ls generalizing s with
  | nil =>
    obtain rfl : s = s' := Option.some.inj h
    exact hs
  | cons l ls ih =>
    obtain ⟨s₁, h₁, h₂⟩ := Option.bind_eq_some_iff.mp h
    exact ih (hstep s l s₁ hs h₁) h₂

/-- **A step that no invariant state has is never taken.** -/
theorem notMem_of_runFrom {P : σ → Prop} {l : ℓ}
    (hstep : ∀ s l s', P s → M.step s l = some s' → P s')
    (hl : ∀ s, P s → ¬ M.Enabled s l)
    {ls : List ℓ} {s s' : σ} (hs : P s) (h : M.runFrom s ls = some s') : l ∉ ls := by
  induction ls generalizing s with
  | nil => exact List.not_mem_nil
  | cons l₀ ls ih =>
    obtain ⟨s₁, h₁, h₂⟩ := Option.bind_eq_some_iff.mp h
    intro hmem
    rcases List.mem_cons.mp hmem with rfl | hmem
    · refine hl s hs ?_
      rw [Enabled, h₁]
      rfl
    · exact ih (hstep s l₀ s₁ hs h₁) h₂ hmem

/-- The steps of the first part of a schedule that meets a condition meet
it, and so does the last one in the state it is taken from. -/
theorem meets_concat {c : σ → ℓ → Prop} {s s' : σ} {ls : List ℓ} {l : ℓ}
    (h : M.runFrom s ls = some s') (hc : M.Meets c s (ls ++ [l])) :
    M.Meets c s ls ∧ c s' l := by
  induction ls generalizing s with
  | nil =>
    obtain rfl : s = s' := Option.some.inj h
    exact ⟨trivial, hc.1⟩
  | cons l₀ ls ih =>
    obtain ⟨s₁, h₁, h₂⟩ := Option.bind_eq_some_iff.mp h
    have ih' := ih h₂ (hc.2 s₁ h₁)
    refine ⟨⟨hc.1, fun s₂ hs₂ => ?_⟩, ih'.2⟩
    obtain rfl : s₁ = s₂ := Option.some.inj (h₁.symm.trans hs₂)
    exact ih'.1

/-- **The invariant rule under a condition**: what holds in the start state
and is kept by every step that meets the condition holds at the end of
every run whose steps all meet it. -/
theorem meets_rec {c : σ → ℓ → Prop} {P : σ → Prop} (h₀ : P M.start)
    (hstep : ∀ s l s', P s → c s l → M.step s l = some s' → P s')
    {ls : List ℓ} {s : σ} (h : M.run ls = some s)
    (hc : M.Meets c M.start ls) : P s := by
  induction ls using List.reverseRecOn generalizing s with
  | nil =>
    obtain rfl : M.start = s := Option.some.inj h
    exact h₀
  | append_singleton ls l ih =>
    rw [run, runFrom_concat] at h
    obtain ⟨s₁, h₁, h₂⟩ := Option.bind_eq_some_iff.mp h
    obtain ⟨hc₁, hc₂⟩ := meets_concat h₁ hc
    exact hstep s₁ l s (ih h₁ hc₁) hc₂ h₂

/-! ## Termination -/

/-- **A measure bounds every run**: where each step out of an invariant
state lowers a measure, a run is no longer than the measure it uses up. -/
theorem length_add_le_measure {P : σ → Prop} (μ : σ → ℕ)
    (hP : ∀ s l s', P s → M.step s l = some s' → P s')
    (hμ : ∀ s l s', P s → M.step s l = some s' → μ s' < μ s)
    {s s' : σ} {ls : List ℓ} (hs : P s) (h : M.runFrom s ls = some s') :
    ls.length + μ s' ≤ μ s := by
  induction ls generalizing s with
  | nil =>
    obtain rfl : s = s' := Option.some.inj h
    exact Nat.le_of_eq (Nat.zero_add _)
  | cons l ls ih =>
    obtain ⟨s₁, h₁, h₂⟩ := Option.bind_eq_some_iff.mp h
    have hrec := ih (hP s l s₁ hs h₁) h₂
    have hlt := hμ s l s₁ hs h₁
    rw [List.length_cons]
    omega

/-- **A machine that does not get stuck has a schedule to its end**: where
every invariant state is final or has a step, and steps lower a measure, a
final state can be reached from every invariant one. -/
theorem exists_run_to {P final : σ → Prop} (μ : σ → ℕ)
    (hP : ∀ s l s', P s → M.step s l = some s' → P s')
    (hμ : ∀ s l s', P s → M.step s l = some s' → μ s' < μ s)
    (hprog : ∀ s, P s → final s ∨ ∃ l s', M.step s l = some s')
    {s : σ} (hs : P s) : ∃ ls s', M.runFrom s ls = some s' ∧ final s' := by
  induction hn : μ s using Nat.strong_induction_on generalizing s with
  | _ n ih =>
    rcases hprog s hs with hf | ⟨l, s₁, h₁⟩
    · exact ⟨[], s, rfl, hf⟩
    · obtain ⟨ls, s₂, h₂, hf⟩ :=
        ih (μ s₁) (hn ▸ hμ s l s₁ hs h₁) (hP s l s₁ hs h₁) rfl
      exact ⟨l :: ls, s₂, by rw [runFrom_cons, h₁]; exact h₂, hf⟩

/-- **The same with the steps of one kind**: where every invariant state is
final or has a step that meets the condition, and such steps keep the
invariant and lower a measure, there is a schedule of such steps to a final
state. -/
theorem exists_meets_to {c : σ → ℓ → Prop} {P Q : σ → Prop} (μ : σ → ℕ)
    (hP : ∀ s l s', P s → c s l → M.step s l = some s' → P s')
    (hμ : ∀ s l s', P s → c s l → M.step s l = some s' → μ s' < μ s)
    (hprog : ∀ s, P s → Q s ∨ ∃ l s', c s l ∧ M.step s l = some s')
    {s : σ} (hs : P s) :
    ∃ ls s', M.runFrom s ls = some s' ∧ M.Meets c s ls ∧ P s' ∧ Q s' := by
  induction hn : μ s using Nat.strong_induction_on generalizing s with
  | _ n ih =>
    rcases hprog s hs with hf | ⟨l, s₁, hc, h₁⟩
    · exact ⟨[], s, rfl, trivial, hs, hf⟩
    · obtain ⟨ls, s₂, h₂, hm, hp, hf⟩ :=
        ih (μ s₁) (hn ▸ hμ s l s₁ hs hc h₁) (hP s l s₁ hs hc h₁) rfl
      refine ⟨l :: ls, s₂, ?_, ⟨hc, fun s' hs' => ?_⟩, hp, hf⟩
      · rw [runFrom_cons, h₁]
        exact h₂
      · obtain rfl : s₁ = s' := Option.some.inj (h₁.symm.trans hs')
        exact hm

end Machine
