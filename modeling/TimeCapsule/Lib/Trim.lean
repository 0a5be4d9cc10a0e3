import Mathlib.Data.List.DropRight

/-!
# Trimming lists

What trimming at the ends leaves alone: elements that are not trimmed, with their number, and everything
on the other side of one of them.
-/

namespace TimeCapsule.Lib

variable {α : Type*} {p : α → Bool} {a : α} {l u v : List α}

theorem count_dropWhile [BEq α] [LawfulBEq α] (ha : p a = false) :
    (l.dropWhile p).count a = l.count a := by
  induction l with
  | nil => rfl
  | cons b l ih =>
    by_cases hb : p b = true
    · have hne : b ≠ a := by
        rintro rfl
        rw [hb] at ha
        exact nomatch ha
      rw [List.dropWhile_cons_of_pos hb, ih, List.count_cons_of_ne hne]
    · rw [List.dropWhile_cons_of_neg hb]

theorem count_rdropWhile [BEq α] [LawfulBEq α] (ha : p a = false) :
    (l.rdropWhile p).count a = l.count a := by
  rw [List.rdropWhile, List.count_reverse, count_dropWhile ha, List.count_reverse]

theorem mem_of_mem_dropWhile (h : a ∈ l.dropWhile p) : a ∈ l := (List.dropWhile_suffix p).subset h

theorem mem_of_mem_rdropWhile (h : a ∈ l.rdropWhile p) : a ∈ l := (List.rdropWhile_prefix p l).subset h

/-- The first element that is left is not trimmed. -/
theorem head?_dropWhile_neg (h : (l.dropWhile p).head? = some a) : p a = false := by
  induction l with
  | nil => exact nomatch h
  | cons b l ih =>
    by_cases hb : p b = true
    · rw [List.dropWhile_cons_of_pos hb] at h
      exact ih h
    · rw [List.dropWhile_cons_of_neg hb] at h
      obtain rfl := Option.some.inj h
      simpa using hb

theorem head?_rdropWhile (h : (l.rdropWhile p).head? = some a) : l.head? = some a := by
  obtain ⟨rest, hrest⟩ := List.rdropWhile_prefix p l
  cases hr : l.rdropWhile p with
  | nil => rw [hr] at h; exact nomatch h
  | cons b bs =>
    rw [hr] at h hrest
    rw [← hrest]
    exact h

theorem dropWhile_eq_self (h : ∀ b, l.head? = some b → p b = false) : l.dropWhile p = l := by
  cases l with
  | nil => rfl
  | cons b l => exact List.dropWhile_cons_of_neg (by simp [h b rfl])

end TimeCapsule.Lib
