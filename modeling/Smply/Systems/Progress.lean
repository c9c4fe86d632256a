import Mathlib

namespace Systems

variable {budget : Nat} {S C : Type}

def follow (step : S → C → S) (start : S) (choices : Nat → C) : Nat → S
  | 0 => start
  | time + 1 => step (follow step start choices time) (choices time)

section
variable {step : S → C → S} {start : S} {choices : Nat → C} {Allowed : S → C → Prop} {Within : Nat → S → Prop}
  {Done : S → Prop}

/-- A state within a budget stays so at the end, and before it every step spends some of the budget. -/
structure Spends (step : S → C → S) (Allowed : S → C → Prop) (Within : Nat → S → Prop) (Done : S → Prop) : Prop where
  rests : ∀ {budget state choice}, Within budget state → Done state → step state choice = state
  spends : ∀ {budget state choice}, Within budget state → ¬ Done state → Allowed state choice →
    ∃ left < budget, Within left (step state choice)

section
variable (spends : Spends step Allowed Within Done) (initial : Within budget start)
include spends initial

theorem Spends.within (time : Nat) (allowed : ∀ earlier < time, Allowed (follow step start choices earlier)
    (choices earlier)) : ∃ left, Within left (follow step start choices time) := by
  induction time with
  | zero => exact ⟨budget, initial⟩
  | succ time ih =>
    obtain ⟨left, here⟩ := ih fun earlier before => allowed earlier (Nat.lt_succ_of_lt before)
    by_cases done : Done (follow step start choices time)
    · refine ⟨left, ?_⟩
      rw [follow, spends.rests here done]
      exact here
    · obtain ⟨less, _, next⟩ := spends.spends here done (allowed time (Nat.lt_succ_self time))
      exact ⟨less, next⟩

section
variable (allowed : ∀ time, Allowed (follow step start choices time) (choices time))
include allowed

theorem Spends.ends : ∃ time ≤ budget, Done (follow step start choices time) := by
  by_contra never
  have running (time : Nat) (early : time ≤ budget) : ¬ Done (follow step start choices time) :=
    fun done => never ⟨time, early, done⟩
  -- After as many steps as the budget allows, less than nothing would be left.
  have left (time : Nat) (early : time ≤ budget) : ∃ left, left + time ≤ budget ∧ Within left (follow step start choices time) := by
    induction time with
    | zero => exact ⟨budget, Nat.le_refl _, initial⟩
    | succ time ih =>
      obtain ⟨left, bound, here⟩ := ih (by omega)
      obtain ⟨less, below, next⟩ := spends.spends here (running time (by omega)) (allowed time)
      exact ⟨less, by omega, next⟩
  obtain ⟨rest, bound, here⟩ := left budget (Nat.le_refl _)
  obtain ⟨less, below, _⟩ := spends.spends here (running budget (Nat.le_refl _)) (allowed budget)
  omega

theorem Spends.settles : ∃ last ≤ budget, ∀ time ≥ last, Done (follow step start choices time) := by
  obtain ⟨last, bound, done⟩ := spends.ends initial allowed
  refine ⟨last, bound, fun time after => ?_⟩
  induction after with
  | refl => exact done
  | @step time after ih =>
    obtain ⟨left, here⟩ := spends.within initial time fun earlier _ => allowed earlier
    rw [follow, spends.rests here ih]
    exact ih

end

end

end

end Systems
