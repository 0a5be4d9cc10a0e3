import TimeCapsule.Lib.Bytes

/-!
# Lines of a stream

A stream that arrives in pieces is split at its newlines: the lines that are complete, and what has come
of the next one.
-/

namespace TimeCapsule.Lib

def lineFeed : UInt8 := 0x0A

/-- The complete lines, and the rest. -/
def splitLines : Bytes → List Bytes × Bytes
  | [] => ([], [])
  | byte :: bytes =>
      let (lines, rest) := splitLines bytes
      if byte = lineFeed then ([] :: lines, rest)
      else
        match lines with
        | [] => ([], byte :: rest)
        | line :: lines => ((byte :: line) :: lines, rest)

section

variable {a b line : Bytes}

theorem splitLines_of_notMem (h : lineFeed ∉ a) : splitLines a = ([], a) := by
  induction a with
  | nil => rfl
  | cons byte a ih =>
    rw [List.mem_cons, not_or] at h
    rw [splitLines, ih h.2]
    exact if_neg (Ne.symm h.1)

/-- A stream may be split where it has got to, and then go on from what is left. -/
theorem splitLines_append (a b : Bytes) :
    splitLines (a ++ b) =
      ((splitLines a).1 ++ (splitLines ((splitLines a).2 ++ b)).1,
        (splitLines ((splitLines a).2 ++ b)).2) := by
  induction a with
  | nil => rfl
  | cons byte a ih =>
    rw [List.cons_append, splitLines, splitLines, ih]
    by_cases hbyte : byte = lineFeed
    · simp only [if_pos hbyte, List.cons_append]
    · simp only [if_neg hbyte]
      cases hlines : (splitLines a).1 with
      | nil =>
        simp only [List.nil_append, List.cons_append, splitLines, if_neg hbyte]
      | cons line lines => simp only [List.cons_append]

theorem splitLines_line (h : lineFeed ∉ line) (b : Bytes) :
    splitLines (line ++ lineFeed :: b) = (line :: (splitLines b).1, (splitLines b).2) := by
  induction line with
  | nil => rfl
  | cons byte line ih =>
    rw [List.mem_cons, not_or] at h
    rw [List.cons_append, splitLines, ih h.2]
    exact if_neg (Ne.symm h.1)

theorem lineFeed_notMem_rest (a : Bytes) : lineFeed ∉ (splitLines a).2 := by
  induction a with
  | nil => exact List.not_mem_nil
  | cons byte a ih =>
    rw [splitLines]
    by_cases hbyte : byte = lineFeed
    · simpa only [if_pos hbyte] using ih
    · simp only [if_neg hbyte]
      cases (splitLines a).1 with
      | nil => exact fun hmem => (List.mem_cons.mp hmem).elim (fun heq => hbyte heq.symm) ih
      | cons line lines => exact ih

/-- What is printed line by line is read line by line. -/
theorem splitLines_flatMap {lines : List Bytes} (h : ∀ line ∈ lines, lineFeed ∉ line) :
    splitLines (lines.flatMap (· ++ [lineFeed])) = (lines, []) := by
  induction lines with
  | nil => rfl
  | cons line lines ih =>
    rw [List.flatMap_cons, List.append_assoc, List.singleton_append,
      splitLines_line (h line List.mem_cons_self),
      ih fun line hline => h line (List.mem_cons_of_mem _ hline)]

end

end TimeCapsule.Lib
