import TimeCapsule.Lib.Bytes
import Mathlib.Data.List.Infix

/-!
# Searching a string

`find` is the search for the first occurrence in a window, `findAll` the loop that restarts it one
position after every hit.  The loop visits exactly the positions where the pattern occurs, in order
(`findAll_eq_filter`).  The second half is about a string part of which is replaced: a pattern that
cannot straddle the border of the replaced region occurs outside of it where it occurred before, or
inside of it.
-/

namespace TimeCapsule.Lib

variable {α : Type*}

/-- `pat` occurs in `data` at position `i`. -/
def OccursAt (pat data : List α) (i : Nat) : Prop := pat <+: data.drop i

instance [DecidableEq α] (pat data : List α) (i : Nat) : Decidable (OccursAt pat data i) :=
  inferInstanceAs (Decidable (pat <+: data.drop i))

theorem OccursAt.le_length {pat data : List α} {i : Nat} (h : OccursAt pat data i)
    (hp : pat ≠ []) : i + pat.length ≤ data.length := by
  have hlen := h.length_le
  have := List.length_pos_iff.mpr hp
  rw [List.length_drop] at hlen
  omega

section Search

variable [DecidableEq α]

def findFrom (pat : List α) (stop : Nat) : List α → Nat → Option Nat
  | [], _ => none
  | x :: xs, i =>
      if i + pat.length ≤ stop ∧ pat <+: x :: xs then some i else findFrom pat stop xs (i + 1)

/-- `data.find(pat, start, stop)` for a pattern that is not empty. -/
def find (data pat : List α) (start stop : Nat) : Option Nat :=
  findFrom pat stop (data.drop start) start

def findAllFrom (data pat : List α) (stop : Nat) : (fuel start : Nat) → List Nat
  | 0, _ => []
  | fuel + 1, start =>
      match find data pat start stop with
      | none => []
      | some i => i :: findAllFrom data pat stop fuel (i + 1)

/-- The offsets visited by `offset = data.find(pat, start, stop)`, `start = offset + 1`, repeated
while the offset is not negative. -/
def findAll (data pat : List α) (stop : Nat) : List Nat :=
  findAllFrom data pat stop (data.length + 1) 0

/-- The positions a search may report. -/
def Hit (data pat : List α) (stop i : Nat) : Prop := i + pat.length ≤ stop ∧ OccursAt pat data i

instance (data pat : List α) (stop i : Nat) : Decidable (Hit data pat stop i) :=
  inferInstanceAs (Decidable (_ ∧ _))

theorem findFrom_eq_find? (data pat : List α) (stop n : Nat) : ∀ start, data.length = start + n →
    findFrom pat stop (data.drop start) start =
      (List.range' start n).find? fun i => decide (Hit data pat stop i) := by
  induction n with
  | zero =>
    intro start h
    rw [List.drop_eq_nil_of_le (by omega)]
    rfl
  | succ n ih =>
    intro start h
    have hstart : start < data.length := by omega
    have hcons := List.drop_eq_getElem_cons hstart
    have hnext := ih (start + 1) (by omega)
    rw [List.range'_succ, List.find?_cons, hcons, findFrom, ← hcons, hnext]
    by_cases hit : Hit data pat stop start
    · rw [decide_eq_true hit]
      exact if_pos hit
    · rw [decide_eq_false hit]
      exact if_neg hit

theorem find_eq_find? (data pat : List α) (start stop : Nat) :
    find data pat start stop =
      (List.range' start (data.length - start)).find? fun i => decide (Hit data pat stop i) := by
  by_cases h : start ≤ data.length
  · exact findFrom_eq_find? data pat stop _ start (by omega)
  · rw [find, List.drop_eq_nil_of_le (by omega), Nat.sub_eq_zero_of_le (by omega)]
    rfl

theorem filter_range'_of_find? (P : Nat → Bool) (n : Nat) : ∀ {start i : Nat},
    (List.range' start n).find? P = some i →
    start ≤ i ∧ i < start + n ∧
      (List.range' start n).filter P = i :: (List.range' (i + 1) (start + n - (i + 1))).filter P := by
  induction n with
  | zero => intro start i h; simp at h
  | succ n ih =>
    intro start i h
    rw [List.range'_succ, List.find?_cons] at h
    rw [List.range'_succ, List.filter_cons]
    cases hp : P start with
    | true =>
      rw [hp] at h
      obtain rfl : start = i := by simpa using h
      refine ⟨le_rfl, by omega, ?_⟩
      rw [if_pos rfl, show start + (n + 1) - (start + 1) = n by omega]
    | false =>
      rw [hp] at h
      obtain ⟨hle, hlt, heq⟩ := ih h
      refine ⟨by omega, by omega, ?_⟩
      rw [if_neg (by simp), heq, show start + 1 + n = start + (n + 1) by omega]

theorem findAllFrom_eq_filter (data pat : List α) (stop fuel : Nat) : ∀ start,
    data.length < start + fuel →
    findAllFrom data pat stop fuel start =
      (List.range' start (data.length - start)).filter fun i => decide (Hit data pat stop i) := by
  induction fuel with
  | zero =>
    intro start h
    rw [Nat.sub_eq_zero_of_le (by omega)]
    rfl
  | succ fuel ih =>
    intro start h
    rw [findAllFrom, find_eq_find?]
    rcases hf : (List.range' start (data.length - start)).find? _ with _ | i
    · rw [List.find?_eq_none] at hf
      exact (List.filter_eq_nil_iff.mpr hf).symm
    · obtain ⟨hle, hlt, heq⟩ := filter_range'_of_find? _ _ hf
      rw [heq, show start + (data.length - start) - (i + 1) = data.length - (i + 1) by omega]
      exact congrArg (i :: ·) (ih (i + 1) (by omega))

/-- The search loop visits the hits, each once and in increasing order. -/
theorem findAll_eq_filter (data pat : List α) (stop : Nat) :
    findAll data pat stop =
      (List.range data.length).filter fun i => decide (Hit data pat stop i) := by
  rw [findAll, findAllFrom_eq_filter _ _ _ _ _ (by omega), List.range_eq_range', Nat.sub_zero]

theorem mem_findAll {data pat : List α} {stop i : Nat} (hp : pat ≠ []) :
    i ∈ findAll data pat stop ↔ Hit data pat stop i := by
  rw [findAll_eq_filter, List.mem_filter, List.mem_range, decide_eq_true_iff]
  refine ⟨fun h => h.2, fun h => ⟨?_, h⟩⟩
  have := h.2.le_length hp
  have := List.length_pos_iff.mpr hp
  omega

theorem nodup_findAll (data pat : List α) (stop : Nat) : (findAll data pat stop).Nodup := by
  rw [findAll_eq_filter]
  exact List.nodup_range.filter _

end Search

/-! ## Lists with a single element -/

theorem eq_singleton_iff_of_nodup {l : List α} {a : α} (hl : l.Nodup) :
    l = [a] ↔ ∀ b, b ∈ l ↔ b = a := by
  constructor
  · rintro rfl b
    exact List.mem_singleton
  · intro h
    cases l with
    | nil => simpa using (h a).mpr rfl
    | cons b t =>
      obtain rfl := (h b).mp List.mem_cons_self
      cases t with
      | nil => rfl
      | cons c t =>
        obtain rfl := (h c).mp (by simp)
        simp at hl

/-! ## A string with a replaced region -/

/-- One string continues the other. -/
def Compatible (xs ys : List α) : Prop := xs <+: ys ∨ ys <+: xs

instance [DecidableEq α] (xs ys : List α) : Decidable (Compatible xs ys) :=
  inferInstanceAs (Decidable (_ ∨ _))

theorem Compatible.of_prefix {xs ys zs : List α} (hx : xs <+: zs) (hy : ys <+: zs) :
    Compatible xs ys :=
  List.prefix_or_prefix_of_prefix hx hy

section Region

variable {pat a r r' b : List α} {i : Nat}

/-- An occurrence that ends before the region is one of the string before the replacement. -/
theorem OccursAt.of_before (h : OccursAt pat (a ++ r ++ b) i) (hi : i + pat.length ≤ a.length) :
    OccursAt pat (a ++ r' ++ b) i := by
  have hdrop : ∀ r : List α, (a ++ r ++ b).drop i = a.drop i ++ (r ++ b) := fun r => by
    rw [List.append_assoc, List.drop_append_of_le_length (by omega)]
  rw [OccursAt, hdrop] at h ⊢
  have hpre : pat <+: a.drop i :=
    List.prefix_of_prefix_length_le h (List.prefix_append _ _) (by rw [List.length_drop]; omega)
  exact hpre.trans (List.prefix_append _ _)

theorem OccursAt.of_after (h : OccursAt pat (a ++ r ++ b) i) (hr : r.length = r'.length)
    (hi : a.length + r.length ≤ i) : OccursAt pat (a ++ r' ++ b) i := by
  have hdrop : ∀ r : List α, a.length + r.length ≤ i →
      (a ++ r ++ b).drop i = b.drop (i - (a.length + r.length)) := fun r hr => by
    rw [List.drop_append, List.drop_eq_nil_of_le (by rw [List.length_append]; omega),
      List.nil_append, List.length_append]
  rw [OccursAt, hdrop r hi] at h
  rw [OccursAt, hdrop r' (by omega), ← hr]
  exact h

/-- An occurrence that runs into the region from the left: its tail meets the region's start. -/
theorem OccursAt.enters (h : OccursAt pat (a ++ r ++ b) i) (hi : i < a.length)
    (hpat : a.length < i + pat.length) (hfit : pat.length ≤ r.length) :
    pat.drop (a.length - i) <+: r := by
  have hd : (a ++ r ++ b).drop a.length = r ++ b := by
    rw [List.append_assoc, List.drop_left]
  have htail : pat.drop (a.length - i) <+: r ++ b := by
    have := h.drop (a.length - i)
    rwa [List.drop_drop, Nat.add_sub_cancel' hi.le, hd] at this
  exact List.prefix_of_prefix_length_le htail (List.prefix_append _ _)
    (by rw [List.length_drop]; omega)

/-- An occurrence that starts in the region agrees with the region's tail as far as both go. -/
theorem OccursAt.starts_inside (h : OccursAt pat (a ++ r ++ b) i) (hi : a.length ≤ i)
    (hr : i ≤ a.length + r.length) : Compatible pat (r.drop (i - a.length)) := by
  have hd : (a ++ r ++ b).drop i = r.drop (i - a.length) ++ b := by
    rw [List.append_assoc, List.drop_append, List.drop_eq_nil_of_le hi, List.nil_append,
      List.drop_append_of_le_length (by omega)]
  rw [OccursAt, hd] at h
  exact Compatible.of_prefix h (List.prefix_append _ _)

/-- No copy of `pat` straddles the left border of the region `r`, or starts in it after its first
position. -/
def Unbordered (pat r : List α) : Prop :=
  (∀ k < pat.length, 0 < k → ¬ pat.drop k <+: r) ∧
    ∀ k < r.length, 0 < k → ¬ Compatible pat (r.drop k)

/-- Replacing a region by `r'` creates an occurrence of an unbordered pattern at the region's start
or nowhere. -/
theorem OccursAt.of_replaced (h : OccursAt pat (a ++ r' ++ b) i) (hr : r'.length = r.length)
    (hfit : pat.length ≤ r'.length) (hu : Unbordered pat r') :
    OccursAt pat (a ++ r ++ b) i ∧ (i + pat.length ≤ a.length ∨ a.length + r.length ≤ i) ∨
      i = a.length ∧ Compatible pat r' := by
  by_cases hbefore : i + pat.length ≤ a.length
  · exact Or.inl ⟨h.of_before hbefore, Or.inl hbefore⟩
  by_cases hafter : a.length + r'.length ≤ i
  · exact Or.inl ⟨h.of_after hr hafter, Or.inr (by omega)⟩
  right
  rcases Nat.lt_trichotomy i a.length with hlt | heq | hgt
  · exact absurd (h.enters hlt (by omega) hfit) (hu.1 (a.length - i) (by omega) (by omega))
  · refine ⟨heq, ?_⟩
    have := h.starts_inside heq.ge (by omega)
    rwa [heq, Nat.sub_self, List.drop_zero] at this
  · exact absurd (h.starts_inside hgt.le (by omega)) (hu.2 (i - a.length) (by omega) (by omega))

/-- No `x` in the list stands in front of a `y` or at the end. -/
def NoMark (x y : α) : List α → Prop
  | [] => True
  | [a] => a ≠ x
  | a :: b :: l => ¬ (a = x ∧ b = y) ∧ NoMark x y (b :: l)

instance decidableNoMark [DecidableEq α] (x y : α) : (l : List α) → Decidable (NoMark x y l)
  | [] => inferInstanceAs (Decidable True)
  | [a] => if h : a = x then isFalse (absurd h) else isTrue h
  | _ :: b :: l =>
      have := decidableNoMark x y (b :: l)
      inferInstanceAs (Decidable (_ ∧ _))

theorem NoMark.drop {x y : α} (k : Nat) : ∀ {l : List α}, NoMark x y l → NoMark x y (l.drop k) := by
  induction k with
  | zero => exact fun h => h
  | succ k ih =>
    intro l h
    match l, h with
    | [], _ => exact trivial
    | [_], _ => rw [List.drop_succ_cons, List.drop_nil]; exact trivial
    | a :: b :: l, h => exact ih h.2

theorem NoMark.not_isPrefix {x y : α} {l m : List α} (h : NoMark x y l) (hl : l ≠ []) :
    ¬ l <+: x :: y :: m := by
  match l, h, hl with
  | [a], h, _ => exact fun hpre => h (List.cons_prefix_cons.mp hpre).1
  | a :: b :: l, h, _ =>
    intro hpre
    obtain ⟨ha, hpre⟩ := List.cons_prefix_cons.mp hpre
    exact h.1 ⟨ha, (List.cons_prefix_cons.mp hpre).1⟩

/-- Two strings that start with a pair of symbols found nowhere else in them. -/
theorem unbordered_of_noMark {x y : α} {pt rt : List α} (hp : NoMark x y (y :: pt))
    (hr : NoMark x y (y :: rt)) : Unbordered (x :: y :: pt) (x :: y :: rt) := by
  have cut : ∀ {t m : List α} (k : Nat), NoMark x y (y :: t) → 0 < k →
      k < (x :: y :: t).length → ¬ (x :: y :: t).drop k <+: x :: y :: m := by
    intro t m k ht hk hlt
    obtain ⟨k, rfl⟩ := Nat.exists_eq_succ_of_ne_zero hk.ne'
    refine (ht.drop k).not_isPrefix (List.ne_nil_of_length_pos ?_)
    rw [List.length_drop]
    simp only [List.length_cons] at hlt ⊢
    omega
  refine ⟨fun k hlt hk => cut k hp hk hlt, fun k hlt hk hc => ?_⟩
  rcases hc with hc | hc
  · obtain ⟨m, hm⟩ := hc
    refine cut (m := pt ++ m) k hr hk hlt ?_
    rw [← hm]
    exact List.prefix_refl _
  · exact cut k hr hk hlt hc

end Region

end TimeCapsule.Lib
