import Mathlib.Data.List.Basic

/-!
# Updates of fields

A record seen through its fields, and changes that set some of them: to the same values whatever the
record was.  After a list of changes a field has what the last change that sets it gives.
-/

namespace TimeCapsule.Fields

variable {ρ ι : Type*} {Value : ι → Type*}

/-- A change sets some fields of a record and leaves the others alone. -/
structure Sets (value : (f : ι) → ρ → Value f) (sets : ι → Bool) (change : ρ → ρ) : Prop where
  kept : ∀ f x, sets f = false → value f (change x) = value f x
  set : ∀ f x y, sets f = true → value f (change x) = value f (change y)

section
variable {value : (f : ι) → ρ → Value f} {sets : ι → Bool} {change : ρ → ρ} {f : ι} {x y : ρ}

theorem Sets.congr (h : Sets value sets change) (hxy : value f x = value f y) :
    value f (change x) = value f (change y) := by
  cases hset : sets f with
  | true => exact h.set f x y hset
  | false => rw [h.kept f x hset, h.kept f y hset, hxy]

theorem Sets.eq_iff (h : Sets value sets change) :
    value f (change x) = value f (change y) ↔ sets f = true ∨ value f x = value f y := by
  cases hset : sets f with
  | true => exact iff_of_true (h.set f x y hset) (.inl rfl)
  | false => simp [h.kept f x hset, h.kept f y hset]

end

section
variable {α : Type*} {value : (f : ι) → ρ → Value f} {sets : α → ι → Bool} {change : α → ρ → ρ}

/-- A list of changes sets what one of them sets. -/
theorem sets_foldl (h : ∀ a, Sets value (sets a) (change a)) (changes : List α) :
    Sets value (fun f => changes.any fun a => sets a f) fun x =>
      changes.foldl (fun x a => change a x) x := by
  induction changes with
  | nil => exact ⟨fun _ _ _ => rfl, fun f x y hset => absurd hset (by simp)⟩
  | cons a changes ih =>
    constructor
    · intro f x hset
      simp only [List.any_cons, Bool.or_eq_false_iff] at hset
      rw [List.foldl_cons, ih.kept f _ hset.2, (h a).kept f x hset.1]
    · intro f x y hset
      simp only [List.any_cons, Bool.or_eq_true] at hset
      rw [List.foldl_cons, List.foldl_cons, ih.eq_iff]
      exact hset.symm.imp_right fun hset => (h a).set f x y hset

end

end TimeCapsule.Fields
