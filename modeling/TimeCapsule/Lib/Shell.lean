import Mathlib.Data.List.DropRight
import TimeCapsule.Lib.Bytes

/-!
# Texts of a shell

The lines of a here-document, `read` with a tab as its only separator, the output of a command
substitution, and the arguments `echo` prints.  Texts are byte strings: the scripts run in the C
locale.
-/

namespace TimeCapsule.Lib

def newline : UInt8 := 10

def tab : UInt8 := 9

/-- The lines `while read` gets from a here-document with `text`. -/
def hereLines (text : Bytes) : List Bytes := text.splitOn newline

/-- The first field of a line for `IFS="$TC_TAB" read`, and what is left for the next variables.
A tab is white space for the splitting: a run of tabs is one separator. -/
def readField (line : Bytes) : Bytes × Bytes :=
  let line := line.dropWhile (· == tab)
  (line.takeWhile (· != tab), line.dropWhile (· != tab))

/-- The last variable of `read` gets the rest of the line without the tabs around it. -/
def readRest (line : Bytes) : Bytes := (line.dropWhile (· == tab)).rdropWhile (· == tab)

/-- `$(…)`: an output without the newlines at its end. -/
def substitution (out : Bytes) : Bytes := out.rdropWhile (· == newline)

/-- What `echo` prints of one argument, without the newline: `-n` and `-e` are its options. -/
def echo (arg : Bytes) : Bytes :=
  if arg = ascii "-n" ∨ arg = ascii "-e" then [] else arg

/-- The pattern `*"$part"*` of a `case` word. -/
def hasPart (part text : Bytes) : Bool := text.tails.any part.isPrefixOf

/-- A number in decimal notation. -/
def decimal (n : Nat) : Bytes := (Nat.toDigits 10 n).map fun c => UInt8.ofNat c.toNat

/-! ## Lines -/

section Lines

variable {text line : Bytes} {b : UInt8}

theorem not_mem_of_mem_splitOn {sep : UInt8} (h : line ∈ text.splitOn sep) :
    sep ∉ line ∧ ∀ b ∈ line, b ∈ text := by
  induction text generalizing line with
  | nil => simp_all
  | cons c rest ih =>
    obtain ⟨first, others, hsplit⟩ := List.exists_cons_of_ne_nil (List.splitOn_ne_nil sep rest)
    have hrest : ∀ l ∈ first :: others, sep ∉ l ∧ ∀ b ∈ l, b ∈ c :: rest := fun l hl => by
      rw [← hsplit] at hl
      exact ⟨(ih hl).1, fun b hb => List.mem_cons_of_mem _ ((ih hl).2 b hb)⟩
    rw [List.splitOn_cons_eq_if_modifyHead, hsplit] at h
    by_cases hc : (c == sep) = true
    · rw [if_pos hc, List.mem_cons] at h
      rcases h with rfl | h
      · simp
      · exact hrest line h
    · rw [if_neg hc, List.modifyHead_cons, List.mem_cons] at h
      rcases h with rfl | h
      · have hne : sep ≠ c := fun h => hc (by simp [h])
        obtain ⟨hsep, hmem⟩ := hrest first List.mem_cons_self
        refine ⟨by simpa [hne] using hsep, fun b hb => ?_⟩
        rcases List.mem_cons.mp hb with rfl | hb
        · exact List.mem_cons_self
        · exact hmem b hb
      · exact hrest line (List.mem_cons_of_mem _ h)

theorem newline_not_mem_of_mem_hereLines (h : line ∈ hereLines text) : newline ∉ line :=
  (not_mem_of_mem_splitOn h).1

theorem mem_of_mem_readField (h : b ∈ (readField line).1) : b ∈ line ∧ b ≠ tab := by
  have hne : b ≠ tab := by simpa using List.mem_takeWhile_imp h
  exact ⟨List.dropWhile_subset _ (List.takeWhile_subset _ h), hne⟩

theorem mem_of_mem_readField_rest (h : b ∈ (readField line).2) : b ∈ line :=
  List.dropWhile_subset _ (List.dropWhile_subset _ h)

theorem mem_of_mem_readRest (h : b ∈ readRest line) : b ∈ line :=
  List.dropWhile_subset _ ((List.rdropWhile_prefix _ _).subset h)

end Lines

/-! ## Trimming -/

section Trimming

variable {α : Type*} {p : α → Bool} {l : List α} {a : α}

/-- A text that is trimmed on both sides does not begin with what is trimmed. -/
theorem trimmed_head? (h : ((l.dropWhile p).rdropWhile p).head? = some a) : p a = false := by
  obtain ⟨tail, htail⟩ : (l.dropWhile p).rdropWhile p <+: l.dropWhile p := List.rdropWhile_prefix p _
  have hhead : (l.dropWhile p).head? = some a := by
    rw [← htail, List.head?_append, h]
    rfl
  have hne : l.dropWhile p ≠ [] := by
    intro hnil
    simp [hnil] at hhead
  have := List.head_dropWhile_not p hne
  rw [List.head?_eq_some_head hne, Option.some.injEq] at hhead
  exact hhead ▸ this

theorem trimmed_getLast? (h : ((l.dropWhile p).rdropWhile p).getLast? = some a) :
    p a = false := by
  have hne : (l.dropWhile p).rdropWhile p ≠ [] := by
    intro hnil
    simp [hnil] at h
  have := List.rdropWhile_last_not p (l.dropWhile p) hne
  rw [List.getLast?_eq_some_getLast hne, Option.some.injEq] at h
  simpa [h] using this

/-- A text that neither begins nor ends with what is trimmed stays as it is. -/
theorem trimmed_eq_self (hhead : ∀ a, l.head? = some a → p a = false)
    (hlast : ∀ a, l.getLast? = some a → p a = false) : (l.dropWhile p).rdropWhile p = l := by
  have hdrop : l.dropWhile p = l := by
    cases l with
    | nil => rfl
    | cons c rest => rw [List.dropWhile_cons_of_neg (by simp [hhead c rfl])]
  rw [hdrop, List.rdropWhile_eq_self_iff]
  intro hne
  rw [hlast _ (List.getLast?_eq_some_getLast hne)]
  simp

end Trimming

end TimeCapsule.Lib
