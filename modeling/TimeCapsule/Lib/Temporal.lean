import Mathlib.Init
import Mathlib.Order.WellFounded

/-!
# Infinite runs

Properties of the moments of a run: what ends at some step, and what comes about sooner or later.
-/

namespace TimeCapsule.Lib

variable {P : Nat → Prop} {i j : Nat}

/-- Between a moment that has a property and a later one that has it not, there is a step that
ends it. -/
theorem exists_last (hij : i ≤ j) (hi : P i) (hj : ¬ P j) :
    ∃ k, i ≤ k ∧ k < j ∧ P k ∧ ¬ P (k + 1) := by
  induction hij with
  | refl => exact absurd hi hj
  | @step j hij ih =>
    by_cases hlast : P j
    · exact ⟨j, hij, Nat.lt_succ_self j, hlast, hj⟩
    · obtain ⟨k, hik, hkj, hk⟩ := ih hlast
      exact ⟨k, hik, Nat.lt_succ_of_lt hkj, hk⟩

/-- A rank that falls again and again, as long as the property does not hold, brings it about. -/
theorem eventually_of_rank (rank : Nat → Nat)
    (h : ∀ k, i ≤ k → ∃ j, k ≤ j ∧ (P j ∨ rank j < rank k)) : ∃ j, i ≤ j ∧ P j := by
  generalize hn : rank i = n
  induction n using Nat.strongRecOn generalizing i with
  | ind n ih =>
    obtain ⟨j, hij, hj | hlt⟩ := h i (Nat.le_refl i)
    · exact ⟨j, hij, hj⟩
    · obtain ⟨k, hjk, hk⟩ := ih (rank j) (hn ▸ hlt) (fun k hk => h k (hij.trans hk)) rfl
      exact ⟨k, hij.trans hjk, hk⟩

end TimeCapsule.Lib
