import TimeCapsule.Lib.Trim
import TimeCapsule.Net.Target
import TimeCapsule.Storage.Inventory
import Mathlib.Tactic.IntervalCases

/-!
# What the written lines say

A line with a key and a value gives the value for its own key and nothing for another.
-/

namespace TimeCapsule.Storage

open Lib
open Net (Text stripText stripText_of_head)

variable {c q : Char} {t u v key key' line : Text}

/-! ## Trimming -/

theorem stripText_eq_self (hhead : ∀ c, t.head? = some c → isPySpace c = false)
    (hlast : ∀ c, t.getLast? = some c → isPySpace c = false) : stripText t = t := by
  rw [stripText_of_head hhead, List.rdropWhile_eq_self_iff]
  intro hne
  simp [hlast _ (List.getLast?_eq_some_getLast hne)]

/-- A character that is no part of a tail. -/
def NoTail (c : Char) : Prop := isPySpace c = false ∧ c ≠ ';' ∧ c ≠ ','

theorem isTail_eq_false (hq : NoTail q) (hmem : q ∈ t) : isTail t = false := by
  have hdrop : ∀ {l : Text}, q ∈ l → q ∈ l.dropWhile isPySpace := by
    intro l hl
    rw [← List.one_le_count_iff] at hl ⊢
    rwa [count_dropWhile hq.1]
  have h1 := hdrop hmem
  have h2 : q ∈ (if (t.dropWhile isPySpace).head? = some ';' then (t.dropWhile isPySpace).tail
      else t.dropWhile isPySpace) := by
    split_ifs with hsemi
    · cases hl : t.dropWhile isPySpace with
      | nil => rw [hl] at hsemi; exact nomatch hsemi
      | cons c l =>
        rw [hl] at h1 hsemi
        obtain rfl := Option.some.inj hsemi
        exact (List.mem_cons.mp h1).resolve_left hq.2.1
    · exact h1
  have h3 := hdrop h2
  rw [isTail, Bool.or_eq_false_iff, decide_eq_false_iff_not, decide_eq_false_iff_not]
  constructor
  · intro hnil
    rw [hnil] at h3
    exact absurd h3 List.not_mem_nil
  · intro hcomma
    rw [hcomma] at h3
    exact hq.2.2 (List.mem_singleton.mp h3)

theorem beforeTail_append (hq : NoTail q) (u : Text) : beforeTail (u ++ [q] ++ [';']) = u ++ [q] := by
  induction u with
  | nil => rfl
  | cons c u ih =>
    rw [List.cons_append, List.cons_append, beforeTail, isTail_eq_false hq (by simp),
      if_neg Bool.false_ne_true, ih]

/-- A value that is read as it stands between the equals sign and the semicolon. -/
structure PlainValue (v : Text) : Prop where
  ne_nil : v ≠ []
  head : ∀ c, v.head? = some c → isPySpace c = false
  last : ∀ c, v.getLast? = some c → NoTail c

theorem PlainValue.trimmed (hv : PlainValue v) : stripText v = v :=
  stripText_eq_self hv.head fun c hc => (hv.last c hc).1

theorem PlainValue.beforeTail (hv : PlainValue v) : beforeTail (v ++ [';']) = v := by
  have hsnoc := List.dropLast_append_getLast hv.ne_nil
  rw [← hsnoc]
  exact beforeTail_append (hv.last _ (List.getLast?_eq_some_getLast hv.ne_nil)) _

def escaped (t : Text) : Text := t.flatMap fun c => if c = '\\' ∨ c = '"' then ['\\', c] else [c]

namespace Env

variable (env : Env)

end Env

end TimeCapsule.Storage
