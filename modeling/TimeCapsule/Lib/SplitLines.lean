import Mathlib.Data.List.Basic

/-!
# Lines of a text

`str.splitlines`, which ends a line at every Unicode line boundary, and the newlines of a file that is
read as text.
-/

namespace TimeCapsule.Lib

/-- The characters that end a line in `str.splitlines`. -/
def isLineBoundary (c : Char) : Bool :=
  let n := c.toNat
  (10 ≤ n && n ≤ 13) || (28 ≤ n && n ≤ 30) || n == 0x85 || n == 0x2028 || n == 0x2029

/-- `text.splitlines()` -/
def splitlines : List Char → List (List Char)
  | [] => []
  | '\r' :: '\n' :: t => [] :: splitlines t
  | c :: t =>
      if isLineBoundary c then [] :: splitlines t
      else
        match splitlines t with
        | [] => [[c]]
        | line :: lines => (c :: line) :: lines

/-- The text of a file in which every newline is `\n`. -/
def universalNewlines : List Char → List Char
  | [] => []
  | '\r' :: '\n' :: t => '\n' :: universalNewlines t
  | c :: t => (if c = '\r' then '\n' else c) :: universalNewlines t

variable {c : Char} {t l : List Char}

theorem splitlines_cons (hc : isLineBoundary c = false) : splitlines (c :: t) =
    match splitlines t with
    | [] => [[c]]
    | line :: lines => (c :: line) :: lines := by
  rw [splitlines, hc]
  · simp
  · rintro _ rfl _
    exact absurd hc (by decide)

example : splitlines "a\r\nb\rc".toList = ["a".toList, "b".toList, "c".toList] := by decide +kernel

theorem splitlines_append_newline (hl : ∀ c ∈ l, isLineBoundary c = false) (t : List Char) :
    splitlines (l ++ '\n' :: t) = l :: splitlines t := by
  induction l with
  | nil =>
    rw [List.nil_append, splitlines]
    · rfl
    · exact fun _ h => absurd h (by decide)
  | cons c l ih =>
    rw [List.cons_append, splitlines_cons (hl c List.mem_cons_self),
      ih fun d hd => hl d (List.mem_cons_of_mem c hd)]

/-- No line has a character that ends one. -/
theorem splitlines_chars (h : l ∈ splitlines t) : ∀ c ∈ l, isLineBoundary c = false := by
  induction t using splitlines.induct generalizing l with
  | case1 => exact absurd h List.not_mem_nil
  | case2 t ih =>
    rw [splitlines] at h
    rcases List.mem_cons.mp h with rfl | h
    · exact fun c hc => absurd hc List.not_mem_nil
    · exact ih h
  | case3 c t hcr hc ih =>
    rw [splitlines, if_pos hc] at h
    · rcases List.mem_cons.mp h with rfl | h
      · exact fun c hc => absurd hc List.not_mem_nil
      · exact ih h
    · exact hcr
  | case4 c t hcr hc hrest ih =>
    rw [splitlines_cons (by simpa using hc), hrest] at h
    obtain rfl := List.mem_singleton.mp h
    intro d hd
    rw [List.mem_singleton.mp hd]
    simpa using hc
  | case5 c t hcr hc line lines hrest ih =>
    rw [splitlines_cons (by simpa using hc), hrest] at h
    rw [hrest] at ih
    rcases List.mem_cons.mp h with rfl | h
    · intro d hd
      rcases List.mem_cons.mp hd with rfl | hd
      · simpa using hc
      · exact ih List.mem_cons_self d hd
    · exact ih (List.mem_cons_of_mem line h)

/-! ## Lines put together -/

theorem universalNewlines_append_newline (hl : ∀ c ∈ l, isLineBoundary c = false) (t : List Char) :
    universalNewlines (l ++ '\n' :: t) = l ++ '\n' :: universalNewlines t := by
  induction l with
  | nil =>
    rw [List.nil_append, universalNewlines]
    · simp
    · exact fun _ h => absurd h (by decide)
  | cons c l ih =>
    have hc : c ≠ '\r' := by
      rintro rfl
      exact absurd (hl _ List.mem_cons_self) (by decide)
    rw [List.cons_append, universalNewlines, if_neg hc, ih fun d hd => hl d (List.mem_cons_of_mem c hd)]
    · rfl
    · exact fun _ h => absurd h hc

/-- Lines that are joined with a newline behind each are read back. -/
theorem splitlines_join {lines : List (List Char)}
    (h : ∀ l ∈ lines, ∀ c ∈ l, isLineBoundary c = false) :
    splitlines (universalNewlines (List.intercalate ['\n'] (lines ++ [[]]))) = lines := by
  induction lines with
  | nil => rfl
  | cons l lines ih =>
    have hjoin : List.intercalate ['\n'] (l :: lines ++ [[]]) =
        l ++ '\n' :: List.intercalate ['\n'] (lines ++ [[]]) := by
      cases lines with
      | nil => simp [List.intercalate_cons_cons]
      | cons l' lines => simp [List.intercalate_cons_cons]
    have hl := h l List.mem_cons_self
    rw [hjoin, universalNewlines_append_newline hl, splitlines_append_newline hl,
      ih fun l' hl' => h l' (List.mem_cons_of_mem l hl')]

end TimeCapsule.Lib
