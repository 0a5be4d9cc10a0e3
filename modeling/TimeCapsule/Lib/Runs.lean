import Mathlib.Logic.Relation

/-!
# Runs of steps

A system whose steps have names: what a step does is a function, and whether it may be made a
predicate.
-/

namespace TimeCapsule.Lib

variable {σ α : Type*} {after : σ → α → σ} {may : σ → α → Prop} {s s' : σ}

/-- The steps may be made one after another. -/
def MayMake (after : σ → α → σ) (may : σ → α → Prop) : σ → List α → Prop
  | _, [] => True
  | s, step :: rest => may s step ∧ MayMake after may (after s step) rest

instance decidableMayMake [∀ s step, Decidable (may s step)] :
    ∀ (s : σ) (steps : List α), Decidable (MayMake after may s steps)
  | _, [] => isTrue trivial
  | s, step :: rest =>
      have := decidableMayMake (after s step) rest
      inferInstanceAs (Decidable (may s step ∧ MayMake after may (after s step) rest))

end TimeCapsule.Lib
