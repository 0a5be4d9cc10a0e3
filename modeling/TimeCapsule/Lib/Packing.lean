import Mathlib.Data.List.Basic

/-!
# Packing groups into packets

Groups of items are put into packets in order.  A group that no longer fits the packet being filled
makes it be sent, and starts the next one.  Packing ends early when a packet is not accepted, or
when a group does not fit a packet of its own.
-/

namespace TimeCapsule.Lib

section Packing

variable {α : Type*} (fits accepts : List α → Bool)

/-- The packets handed over, the last one included; `current` is the packet being filled. -/
def pack : (current : List α) → (groups : List (List α)) → List (List α)
  | current, [] => if current = [] then [] else [current]
  | current, group :: groups =>
      if fits (current ++ group) then pack (current ++ group) groups
      else if current = [] then []
      else if accepts current && fits group then current :: pack group groups
      else [current]

/-- The packets that are full before the groups are placed. -/
def flushes : (current : List α) → (groups : List (List α)) → List (List α)
  | _, [] => []
  | current, group :: groups =>
      if fits (current ++ group) then flushes (current ++ group) groups
      else if current = [] then flushes group groups
      else current :: flushes group groups

/-- Every group fits a packet of its own, and every packet that is full before is accepted. -/
def Packs (current : List α) (groups : List (List α)) : Prop :=
  (∀ group ∈ groups, fits group) ∧ ∀ packet ∈ flushes fits current groups, accepts packet

variable {fits accepts} {current : List α} {groups : List (List α)} {x : α}

theorem mem_pack_of_mem (h : x ∈ current) : x ∈ (pack fits accepts current groups).flatten := by
  induction groups generalizing current with
  | nil =>
    unfold pack
    rw [if_neg (List.ne_nil_of_mem h)]
    simpa using h
  | cons group groups ih =>
    have hne : current ≠ [] := List.ne_nil_of_mem h
    unfold pack
    split
    · exact ih (List.mem_append_left group h)
    split <;> simp [h]

/-- Nothing else is placed. -/
theorem mem_of_mem_pack (h : x ∈ (pack fits accepts current groups).flatten) :
    x ∈ current ∨ ∃ group ∈ groups, x ∈ group := by
  induction groups generalizing current with
  | nil =>
    left
    unfold pack at h
    split at h
    · simp at h
    · simpa using h
  | cons group groups ih =>
    unfold pack at h
    split at h
    · rcases ih h with h | ⟨g, hg, hx⟩
      · rcases List.mem_append.mp h with h | h
        · exact Or.inl h
        · exact Or.inr ⟨group, List.mem_cons_self, h⟩
      · exact Or.inr ⟨g, List.mem_cons_of_mem _ hg, hx⟩
    split at h
    · simp at h
    split at h
    · rw [List.flatten_cons, List.mem_append] at h
      rcases h with h | h
      · exact Or.inl h
      rcases ih h with h | ⟨g, hg, hx⟩
      · exact Or.inr ⟨group, List.mem_cons_self, h⟩
      · exact Or.inr ⟨g, List.mem_cons_of_mem _ hg, hx⟩
    · left
      simpa using h

/-- An item that only one group has is placed if the groups up to it can be packed, and only then. -/
theorem mem_pack_iff (hfits : ∀ a b, fits (a ++ b) → fits a ∧ fits b) {group : List α}
    {before after : List (List α)} (hx : x ∈ group) (hcurrent : x ∉ current)
    (hbefore : ∀ g ∈ before, x ∉ g) :
    x ∈ (pack fits accepts current (before ++ group :: after)).flatten ↔
      Packs fits accepts current (before ++ [group]) := by
  induction before generalizing current with
  | nil =>
    rw [List.nil_append, List.nil_append]
    unfold pack Packs flushes
    by_cases hfit : fits (current ++ group)
    · rw [if_pos hfit, if_pos hfit]
      have hplaced : x ∈ (pack fits accepts (current ++ group) after).flatten :=
        mem_pack_of_mem (List.mem_append_right current hx)
      simp [hplaced, (hfits _ _ hfit).2, flushes]
    rw [if_neg hfit, if_neg hfit]
    by_cases hempty : current = []
    · subst hempty
      rw [if_pos rfl, if_pos rfl]
      rw [List.nil_append] at hfit
      simp [hfit]
    rw [if_neg hempty, if_neg hempty]
    by_cases haccepted : accepts current && fits group
    · rw [if_pos haccepted]
      rw [Bool.and_eq_true] at haccepted
      have hplaced : x ∈ (pack fits accepts group after).flatten := mem_pack_of_mem hx
      simp [hplaced, haccepted.1, haccepted.2, flushes]
    · rw [if_neg haccepted]
      rw [Bool.and_eq_true, not_and] at haccepted
      simp only [List.flatten_cons, List.flatten_nil, List.append_nil, hcurrent, false_iff]
      rintro ⟨hfit', haccept⟩
      exact haccepted (haccept current List.mem_cons_self) (hfit' group List.mem_cons_self)
  | cons first before ih =>
    obtain ⟨hfirst, hbefore⟩ := List.forall_mem_cons.mp hbefore
    rw [List.cons_append, List.cons_append]
    unfold pack Packs flushes
    by_cases hfit : fits (current ++ first)
    · rw [if_pos hfit, if_pos hfit, ih (by simp [hcurrent, hfirst]) hbefore]
      unfold Packs
      simp [(hfits _ _ hfit).2]
    rw [if_neg hfit, if_neg hfit]
    by_cases hempty : current = []
    · subst hempty
      rw [if_pos rfl, if_pos rfl]
      rw [List.nil_append] at hfit
      simp [hfit]
    rw [if_neg hempty, if_neg hempty]
    by_cases haccepted : accepts current && fits first
    · rw [if_pos haccepted, List.flatten_cons, List.mem_append, ih hfirst hbefore]
      rw [Bool.and_eq_true] at haccepted
      unfold Packs
      simp [hcurrent, haccepted.1, haccepted.2]
    · rw [if_neg haccepted]
      rw [Bool.and_eq_true, not_and] at haccepted
      simp only [List.flatten_cons, List.flatten_nil, List.append_nil, hcurrent, false_iff]
      rintro ⟨hfit', haccept⟩
      exact haccepted (haccept current List.mem_cons_self) (hfit' first List.mem_cons_self)

/-! ## Every group in one packet -/

end Packing

end TimeCapsule.Lib
