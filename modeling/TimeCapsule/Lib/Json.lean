import TimeCapsule.Lib.Text
import Mathlib.Data.List.Basic

/-!
# JSON values

Python dictionaries as association lists, and the JSON values kept in them.  Whole numbers are the
only numbers.
-/

namespace TimeCapsule.Lib

/-! ## Dictionaries -/

section Dict

variable {κ υ : Type} [DecidableEq κ]

/-- `d[key] = value` -/
def dictSet : List (κ × υ) → κ → υ → List (κ × υ)
  | [], key, value => [(key, value)]
  | entry :: rest, key, value =>
      if entry.1 = key then (key, value) :: rest else entry :: dictSet rest key value

/-- `d.update(other)` -/
def dictUpdate (d other : List (κ × υ)) : List (κ × υ) :=
  other.foldl (fun d entry => dictSet d entry.1 entry.2) d

variable [BEq κ] [LawfulBEq κ] {d other : List (κ × υ)} {key key' : κ} {value : υ}

theorem lookup_cons_eq_ite {entry : κ × υ} :
    (entry :: d).lookup key = if key = entry.1 then some entry.2 else d.lookup key := by
  by_cases h : key = entry.1
  · rw [List.lookup_cons, if_pos h, beq_iff_eq.mpr h]
  · rw [List.lookup_cons, if_neg h, beq_eq_false_iff_ne.mpr h]

theorem lookup_dictSet :
    (dictSet d key value).lookup key' = if key' = key then some value else d.lookup key' := by
  induction d with
  | nil => exact lookup_cons_eq_ite
  | cons entry rest ih =>
    rw [dictSet]
    by_cases hentry : entry.1 = key
    · rw [if_pos hentry, lookup_cons_eq_ite, lookup_cons_eq_ite, hentry]
      split <;> rfl
    · rw [if_neg hentry, lookup_cons_eq_ite, lookup_cons_eq_ite, ih]
      by_cases h : key' = key
      · rw [if_pos h, if_pos h, if_neg fun heq => hentry (heq.symm.trans h)]
      · rw [if_neg h, if_neg h]

theorem lookup_dictSet_self : (dictSet d key value).lookup key = some value := by
  rw [lookup_dictSet, if_pos rfl]

theorem lookup_dictSet_of_ne (h : key' ≠ key) :
    (dictSet d key value).lookup key' = d.lookup key' := by
  rw [lookup_dictSet, if_neg h]

/-- Updating leaves the other keys alone. -/
theorem lookup_dictUpdate_of_notMem (h : key ∉ other.map Prod.fst) :
    (dictUpdate d other).lookup key = d.lookup key := by
  induction other generalizing d with
  | nil => rfl
  | cons entry rest ih =>
    rw [List.map_cons, List.mem_cons, not_or] at h
    rw [dictUpdate, List.foldl_cons, ← dictUpdate, ih h.2, lookup_dictSet_of_ne h.1]

/-- The last value given for a key is the one kept. -/
theorem lookup_dictUpdate_append (before : List (κ × υ)) {after : List (κ × υ)} (h : key ∉ after.map Prod.fst) :
    (dictUpdate d (before ++ (key, value) :: after)).lookup key = some value := by
  rw [dictUpdate, List.foldl_append, List.foldl_cons, ← dictUpdate,
    lookup_dictUpdate_of_notMem h, lookup_dictSet_self]

end Dict

/-! ## Values -/

inductive Json where
  | null
  | bool (value : Bool)
  | int (value : Int)
  | str (value : String)
  | list (items : List Json)
  | obj (members : List (String × Json))

abbrev JsonObject := List (String × Json)

namespace Json

/-- `isinstance(value, dict)` -/
def toObj? : Json → Option JsonObject
  | .obj members => some members
  | _ => none

/-- `isinstance(value, list)` -/
def toList? : Json → Option (List Json)
  | .list items => some items
  | _ => none

/-- `isinstance(value, str)` -/
def toStr? : Json → Option String
  | .str value => some value
  | _ => none

/-- `isinstance(value, bool)` -/
def toBool? : Json → Option Bool
  | .bool value => some value
  | _ => none

/-- `bool(value)` -/
def truthy : Json → Bool
  | .null => false
  | .bool value => value
  | .int value => value ≠ 0
  | .str value => value ≠ ""
  | .list items => !items.isEmpty
  | .obj members => !members.isEmpty

/-- `str(value)`, given what `repr` prints for lists and dictionaries. -/
def pyStr (container : Json → String) : Json → String
  | .null => "None"
  | .bool true => "True"
  | .bool false => "False"
  | .int value => toString value
  | .str value => value
  | value => container value

def ofOption {α : Type} (f : α → Json) (value : Option α) : Json := value.elim .null f

end Json

end TimeCapsule.Lib
