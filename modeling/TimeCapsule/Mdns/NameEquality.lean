import Mathlib.Data.List.Forall2
import TimeCapsule.Mdns.Names

/-!
# Which decoded names are equal

`name_equals` compares texts: a decoded name ends at its first zero byte, and the dots at its end do
not count.  Escaping keeps the labels apart otherwise, also where a label ends with a dot.
-/

namespace TimeCapsule.Mdns

open Lib

/-- As many labels, equal in pairs but for the case of ASCII letters. -/
def SameLabels (labels labels' : List Bytes) : Prop :=
  List.Forall₂ (fun label label' => label.map asciiLower = label'.map asciiLower) labels labels'

theorem sameLabels_iff {labels labels' : List Bytes} :
    SameLabels labels labels' ↔
      labels.map (List.map asciiLower) = labels'.map (List.map asciiLower) := by
  rw [← List.forall₂_eq_eq_eq, List.forall₂_map_left_iff, List.forall₂_map_right_iff]
  exact Iff.rfl

instance (labels labels' : List Bytes) : Decidable (SameLabels labels labels') :=
  decidable_of_iff _ sameLabels_iff.symm

/-- The labels up to the first zero byte, and what the label with that byte has before it. -/
def cutAtZero : List Bytes → List Bytes
  | [] => []
  | label :: rest =>
      if label.contains 0 then
        if label.takeWhile (· != 0) = [] then [] else [label.takeWhile (· != 0)]
      else label :: cutAtZero rest

/-! ## The dots at the end -/

theorem withoutTrailingDots_eq_nil_append {a b : Bytes} (h : withoutTrailingDots b = []) :
    withoutTrailingDots (a ++ b) = withoutTrailingDots a := by
  unfold withoutTrailingDots at h ⊢
  rw [List.reverse_eq_nil_iff] at h
  rw [List.reverse_append, List.dropWhile_append, h]
  simp

theorem withoutTrailingDots_dot_cons {b : Bytes} (h : withoutTrailingDots b = []) :
    withoutTrailingDots (dot :: b) = [] := by
  have happend := withoutTrailingDots_eq_nil_append (a := [dot]) h
  rw [List.singleton_append] at happend
  rw [happend]
  rfl

/-- The text of one label without the dots at its end. -/
def stripped (label : Bytes) : Bytes := withoutTrailingDots (escapeLabel label)

theorem stripped_cons {ch : UInt8} {label : Bytes} (h : stripped label ≠ []) :
    stripped (ch :: label) =
      (if ch = dot || ch = backslash then [backslash, ch] else [ch]) ++ stripped label := by
  rw [stripped, escapeLabel_cons, withoutTrailingDots_append h]
  rfl

theorem stripped_singleton (ch : UInt8) : stripped [ch] =
    if ch = dot then [backslash] else if ch = backslash then [backslash, backslash] else [ch] := by
  by_cases hdot : ch = dot
  · rw [hdot]
    rfl
  · by_cases hback : ch = backslash
    · rw [hback]
      rfl
    · simp [stripped, escapeLabel, withoutTrailingDots, hdot, hback]

theorem stripped_ne_nil {label : Bytes} (h : label ≠ []) : stripped label ≠ [] := by
  induction label with
  | nil => exact absurd rfl h
  | cons ch rest ih =>
    by_cases hrest : rest = []
    · rw [hrest, stripped_singleton]
      split
      · simp
      · split <;> simp
    · rw [stripped_cons (ih hrest)]
      simp [ih hrest]

/-- Reads a label back; a backslash at the end has lost its dot. -/
def unescape : Bytes → Bytes
  | [] => []
  | [ch] => if ch = backslash then [dot] else [ch]
  | ch :: next :: rest =>
      if ch = backslash then next :: unescape rest else ch :: unescape (next :: rest)

theorem unescape_stripped {label : Bytes} (h : label ≠ []) : unescape (stripped label) = label := by
  induction label with
  | nil => exact absurd rfl h
  | cons ch rest ih =>
    by_cases hrest : rest = []
    · rw [hrest, stripped_singleton]
      by_cases hdot : ch = dot
      · simp [hdot, unescape]
      · by_cases hback : ch = backslash
        · simp [hback, unescape, show backslash ≠ dot by decide]
        · simp [hdot, hback, unescape]
    · have hne := stripped_ne_nil hrest
      rw [stripped_cons hne]
      by_cases hs : ch = dot || ch = backslash
      · rw [if_pos hs]
        show unescape (backslash :: ch :: stripped rest) = ch :: rest
        rw [unescape, if_pos rfl, ih hrest]
      · rw [if_neg hs]
        obtain ⟨next, tail, htail⟩ := List.exists_cons_of_ne_nil hne
        rw [Bool.or_eq_true, decide_eq_true_eq, decide_eq_true_eq, not_or] at hs
        show unescape (ch :: stripped rest) = ch :: rest
        rw [htail, unescape, if_neg hs.2, ← htail, ih hrest]

/-- No dot in the text of one label stands by itself. -/
theorem parentName_stripped {label : Bytes} (h : label ≠ []) : parentName (stripped label) = [] := by
  induction label with
  | nil => exact absurd rfl h
  | cons ch rest ih =>
    by_cases hrest : rest = []
    · rw [hrest, stripped_singleton]
      by_cases hdot : ch = dot
      · rw [if_pos hdot]
        decide
      · rw [if_neg hdot]
        by_cases hback : ch = backslash
        · rw [if_pos hback]
          decide
        · rw [if_neg hback]
          simp [parentName, parentName.go, hdot]
    · have hparent := ih hrest
      unfold parentName at hparent ⊢
      rw [stripped_cons (stripped_ne_nil hrest)]
      by_cases hs : ch = dot || ch = backslash
      · rw [if_pos hs]
        show parentName.go false (backslash :: ch :: stripped rest) = []
        rw [parentName.go, if_neg (by decide)]
        simpa [parentName.go] using hparent
      · rw [if_neg hs]
        rw [Bool.or_eq_true, decide_eq_true_eq, decide_eq_true_eq, not_or] at hs
        show parentName.go false (ch :: stripped rest) = []
        rw [parentName.go, if_neg hs.1, decide_eq_false hs.2]
        exact hparent

/-! ## The canonical text of labels -/

theorem map_asciiLower_withoutTrailingDots (name : Bytes) :
    (withoutTrailingDots name).map asciiLower = withoutTrailingDots (name.map asciiLower) := by
  have hdot : (fun ch => asciiLower ch == dot) = fun ch => ch == dot := by
    funext ch
    rw [Bool.eq_iff_iff, beq_iff_eq, beq_iff_eq]
    exact asciiLower_eq_dot ch
  unfold withoutTrailingDots
  rw [← List.map_reverse, List.dropWhile_map, List.map_reverse]
  simp only [Function.comp_def, hdot]

theorem canonicalName_escapeLabel (label : Bytes) :
    canonicalName (escapeLabel label) = stripped (label.map asciiLower) := by
  rw [canonicalName, map_asciiLower_withoutTrailingDots, map_asciiLower_escapeLabel]
  rfl

theorem lower_ne_nil {label : Bytes} (h : label ≠ []) : label.map asciiLower ≠ [] := by
  simpa using h

theorem canonicalName_joinLabels_ne_nil {labels : List Bytes} (hne : labels ≠ [])
    (h : ∀ l ∈ labels, l ≠ []) : canonicalName (joinLabels labels) ≠ [] := by
  induction labels with
  | nil => exact absurd rfl hne
  | cons label rest ih =>
    by_cases hrest : rest = []
    · rw [hrest]
      show canonicalName (escapeLabel label) ≠ []
      rw [canonicalName_escapeLabel]
      exact stripped_ne_nil (lower_ne_nil (h label List.mem_cons_self))
    · have hcanonical := ih hrest fun l hl => h l (List.mem_cons_of_mem _ hl)
      rw [joinLabels_cons label hrest, canonicalName_dotted hcanonical, dotted]
      simp

/-- The canonical text tells the labels apart, but for their case. -/
theorem canonicalName_joinLabels_inj {labels labels' : List Bytes} (h : ∀ l ∈ labels, l ≠ [])
    (h' : ∀ l ∈ labels', l ≠ []) (heq : canonicalName (joinLabels labels) =
      canonicalName (joinLabels labels')) :
    labels.map (List.map asciiLower) = labels'.map (List.map asciiLower) := by
  induction labels generalizing labels' with
  | nil =>
    by_cases hne : labels' = []
    · rw [hne]
    · exact absurd heq.symm (canonicalName_joinLabels_ne_nil hne h')
  | cons label rest ih =>
    cases labels' with
    | nil => exact absurd heq (canonicalName_joinLabels_ne_nil (List.cons_ne_nil _ _) h)
    | cons label' rest' =>
      have hlabel := lower_ne_nil (h label List.mem_cons_self)
      have hlabel' := lower_ne_nil (h' label' List.mem_cons_self)
      have htail : ∀ l ∈ rest, l ≠ [] := fun l hl => h l (List.mem_cons_of_mem _ hl)
      have htail' : ∀ l ∈ rest', l ≠ [] := fun l hl => h' l (List.mem_cons_of_mem _ hl)
      -- A text with a dot that stands by itself has more than one label.
      have hone : ∀ {l l' : Bytes} {r' : List Bytes}, l ≠ [] → r' ≠ [] → (∀ x ∈ r', x ≠ []) →
          stripped l ≠ dotted l' (canonicalName (joinLabels r')) := by
        intro l l' r' hl hr' hvalid heq
        have hparent := parentName_stripped hl
        rw [heq, parentName_dotted] at hparent
        exact canonicalName_joinLabels_ne_nil hr' hvalid hparent
      by_cases hrest : rest = []
      · by_cases hrest' : rest' = []
        · rw [hrest, hrest'] at heq ⊢
          change canonicalName (escapeLabel label) = canonicalName (escapeLabel label') at heq
          rw [canonicalName_escapeLabel, canonicalName_escapeLabel] at heq
          have hback := congrArg unescape heq
          rw [unescape_stripped hlabel, unescape_stripped hlabel'] at hback
          rw [List.map_singleton, List.map_singleton, hback]
        · rw [hrest, joinLabels_cons label' hrest', canonicalName_dotted
            (canonicalName_joinLabels_ne_nil hrest' htail')] at heq
          change canonicalName (escapeLabel label) = _ at heq
          rw [canonicalName_escapeLabel] at heq
          exact absurd heq (hone hlabel hrest' htail')
      · by_cases hrest' : rest' = []
        · rw [hrest', joinLabels_cons label hrest, canonicalName_dotted
            (canonicalName_joinLabels_ne_nil hrest htail)] at heq
          change _ = canonicalName (escapeLabel label') at heq
          rw [canonicalName_escapeLabel] at heq
          exact absurd heq.symm (hone hlabel' hrest htail)
        · rw [joinLabels_cons label hrest, joinLabels_cons label' hrest', canonicalName_dotted
            (canonicalName_joinLabels_ne_nil hrest htail), canonicalName_dotted
            (canonicalName_joinLabels_ne_nil hrest' htail')] at heq
          have hparent := congrArg parentName heq
          rw [parentName_dotted, parentName_dotted] at hparent
          rw [hparent, dotted, dotted] at heq
          have hescaped := congrArg unescape (congrArg withoutTrailingDots
            (List.append_cancel_right heq))
          change unescape (stripped _) = unescape (stripped _) at hescaped
          rw [unescape_stripped hlabel, unescape_stripped hlabel'] at hescaped
          rw [List.map_cons, List.map_cons, hescaped, ih htail htail' hparent]

theorem canonicalName_joinLabels_congr {labels labels' : List Bytes} (h : ∀ l ∈ labels, l ≠ [])
    (h' : ∀ l ∈ labels', l ≠ [])
    (heq : labels.map (List.map asciiLower) = labels'.map (List.map asciiLower)) :
    canonicalName (joinLabels labels) = canonicalName (joinLabels labels') := by
  induction labels generalizing labels' with
  | nil => rw [List.map_eq_nil_iff.mp heq.symm]
  | cons label rest ih =>
    cases labels' with
    | nil => cases heq
    | cons label' rest' =>
      obtain ⟨hlabel, hrest⟩ := List.cons.inj heq
      have htail : ∀ l ∈ rest, l ≠ [] := fun l hl => h l (List.mem_cons_of_mem _ hl)
      have htail' : ∀ l ∈ rest', l ≠ [] := fun l hl => h' l (List.mem_cons_of_mem _ hl)
      by_cases hne : rest = []
      · have hne' : rest' = [] := by
          rw [hne] at hrest
          exact List.map_eq_nil_iff.mp hrest.symm
        rw [hne, hne']
        show canonicalName (escapeLabel label) = canonicalName (escapeLabel label')
        rw [canonicalName_escapeLabel, canonicalName_escapeLabel, hlabel]
      · have hne' : rest' ≠ [] := by
          intro hnil
          rw [hnil] at hrest
          exact hne (List.map_eq_nil_iff.mp hrest)
        rw [joinLabels_cons label hne, joinLabels_cons label' hne', canonicalName_dotted
          (canonicalName_joinLabels_ne_nil hne htail), canonicalName_dotted
          (canonicalName_joinLabels_ne_nil hne' htail'), hlabel, ih htail htail' hrest]

/-! ## A decoded text ends at its first zero byte -/

theorem cutAtZero_ne_nil {labels : List Bytes} (h : ∀ l ∈ labels, l ≠ []) :
    ∀ l ∈ cutAtZero labels, l ≠ [] := by
  induction labels with
  | nil => exact h
  | cons label rest ih =>
    intro l hl
    unfold cutAtZero at hl
    by_cases hzero : label.contains 0
    · rw [if_pos hzero] at hl
      by_cases hempty : label.takeWhile (· != 0) = []
      · rw [if_pos hempty] at hl
        cases hl
      · rw [if_neg hempty] at hl
        rwa [List.mem_singleton.mp hl]
    · rw [if_neg hzero] at hl
      rcases List.mem_cons.mp hl with rfl | hl
      · exact h l List.mem_cons_self
      · exact ih (fun l hl => h l (List.mem_cons_of_mem _ hl)) l hl

/-- Labels that are the same stay so when both lists are cut. -/
theorem map_cutAtZero (labels : List Bytes) :
    (cutAtZero labels).map (List.map asciiLower) =
      cutAtZero (labels.map (List.map asciiLower)) := by
  have hzero : ∀ ch : UInt8, asciiLower ch = 0 ↔ ch = 0 := by
    unfold asciiLower
    grind
  have hne : (fun ch => asciiLower ch != 0) = fun ch => ch != 0 := by
    funext ch
    rw [Bool.eq_iff_iff, bne_iff_ne, bne_iff_ne, Ne, hzero]
  induction labels with
  | nil => rfl
  | cons label rest ih =>
    have hmem : (label.map asciiLower).contains 0 ↔ label.contains 0 := by
      rw [List.contains_iff_mem, List.contains_iff_mem, List.mem_map]
      constructor
      · rintro ⟨ch, hch, hlower⟩
        exact (hzero ch).mp hlower ▸ hch
      · intro hmem
        exact ⟨0, hmem, rfl⟩
    have htake : (label.map asciiLower).takeWhile (· != 0) =
        (label.takeWhile (· != 0)).map asciiLower := by
      rw [List.takeWhile_map]
      simp only [Function.comp_def, hne]
    rw [List.map_cons, cutAtZero, cutAtZero]
    by_cases h : label.contains 0
    · rw [if_pos h, if_pos (hmem.mpr h), htake]
      by_cases hempty : label.takeWhile (· != 0) = []
      · rw [if_pos hempty, hempty]
        rfl
      · rw [if_neg hempty, if_neg (List.map_eq_nil_iff.not.mpr hempty)]
        rfl
    · rw [if_neg h, if_neg (hmem.not.mpr h), List.map_cons, ih]

theorem takeWhile_escapeLabel (label : Bytes) :
    (escapeLabel label).takeWhile (· != 0) = escapeLabel (label.takeWhile (· != 0)) := by
  induction label with
  | nil => rfl
  | cons ch rest ih =>
    rw [escapeLabel_cons]
    by_cases hzero : ch = 0
    · rw [hzero]
      rfl
    · have hkeep : (ch != 0) = true := bne_iff_ne.mpr hzero
      have hback : (backslash != 0) = true := rfl
      rw [List.takeWhile_cons, if_pos hkeep, escapeLabel_cons, ← ih]
      split <;> simp [hzero, show backslash ≠ 0 by decide]

theorem mem_escapeLabel_of_mem {ch : UInt8} {label : Bytes} (h : ch ∈ label) :
    ch ∈ escapeLabel label := by
  unfold escapeLabel
  refine List.mem_flatMap.mpr ⟨ch, h, ?_⟩
  split <;> simp

/-- What is left of the text is the text of what is left of the labels, the dots at its end aside. -/
theorem canonicalName_takeWhile_joinLabels {labels : List Bytes} (h : ∀ l ∈ labels, l ≠ []) :
    canonicalName ((joinLabels labels).takeWhile (· != 0)) =
      canonicalName (joinLabels (cutAtZero labels)) := by
  induction labels with
  | nil => rfl
  | cons label rest ih =>
    have htail : ∀ l ∈ rest, l ≠ [] := fun l hl => h l (List.mem_cons_of_mem _ hl)
    have hrec := ih htail
    rw [cutAtZero]
    by_cases hzero : label.contains 0
    · rw [if_pos hzero]
      have htext : (joinLabels (label :: rest)).takeWhile (· != 0) =
          escapeLabel (label.takeWhile (· != 0)) := by
        rw [← takeWhile_escapeLabel]
        by_cases hrest : rest = []
        · rw [hrest]
          rfl
        · have hshort : ((escapeLabel label).takeWhile (· != 0)).length ≠
              (escapeLabel label).length := by
            intro hlength
            have hall := List.takeWhile_eq_self_iff.mp
              ((List.takeWhile_prefix _).eq_of_length hlength)
            exact absurd (hall 0 (mem_escapeLabel_of_mem (List.contains_iff_mem.mp hzero))) (by decide)
          rw [joinLabels_cons label hrest, dotted, List.takeWhile_append, if_neg hshort]
      rw [htext]
      by_cases hempty : label.takeWhile (· != 0) = []
      · rw [if_pos hempty, hempty]
        rfl
      · rw [if_neg hempty]
        rfl
    · rw [if_neg hzero]
      have hlabel : ∀ ch ∈ escapeLabel label, (ch != 0) = true := by
        intro ch hch
        rw [bne_iff_ne]
        intro heq
        rcases mem_escapeLabel hch with hback | hmem
        · rw [hback] at heq
          exact absurd heq (by decide)
        · exact hzero (List.contains_iff_mem.mpr (heq ▸ hmem))
      by_cases hrest : rest = []
      · rw [hrest]
        show canonicalName ((escapeLabel label).takeWhile (· != 0)) = canonicalName (escapeLabel label)
        rw [List.takeWhile_eq_self_iff.mpr hlabel]
      · rw [joinLabels_cons label hrest, dotted, List.takeWhile_append_of_pos hlabel,
          List.takeWhile_cons_of_pos (by decide)]
        by_cases hcut : cutAtZero rest = []
        · -- The labels behind this one leave no byte but dots.
          rw [hcut] at hrec ⊢
          have hdots : withoutTrailingDots ((joinLabels rest).takeWhile (· != 0)) = [] :=
            List.map_eq_nil_iff.mp hrec
          show canonicalName _ = canonicalName (escapeLabel label)
          rw [canonicalName, withoutTrailingDots_eq_nil_append (withoutTrailingDots_dot_cons hdots),
            canonicalName]
        · have hne := canonicalName_joinLabels_ne_nil hcut (cutAtZero_ne_nil htail)
          rw [joinLabels_cons label hcut, canonicalName_dotted hne, ← hrec]
          exact canonicalName_dotted (hrec ▸ hne)

theorem canonicalName_takeWhile_presentation {labels : List Bytes} (h : ∀ l ∈ labels, l ≠ []) :
    canonicalName ((presentation labels).takeWhile (· != 0)) =
      canonicalName (joinLabels (cutAtZero labels)) := by
  by_cases hne : labels = []
  · rw [hne]
    rfl
  · rw [presentation, if_neg hne, canonicalName_takeWhile_joinLabels h]

/-! ## Decoded names -/

/-- Two decoded names are equal when their labels are the same up to the first zero byte. -/
theorem nameEquals_decoded {packet packet' name name' : Bytes}
    {cursor cursor' outLen outLen' next next' : Nat} {labels labels' : List Bytes}
    (hname : decodeName packet cursor outLen = some (name, next))
    (hname' : decodeName packet' cursor' outLen' = some (name', next'))
    (hlabels : Reaches packet cursor labels) (hlabels' : Reaches packet' cursor' labels') :
    nameEquals name name' = true ↔ SameLabels (cutAtZero labels) (cutAtZero labels') := by
  obtain ⟨reached, hreach, rfl⟩ := decodeName_reaches hname
  obtain ⟨reached', hreach', rfl⟩ := decodeName_reaches hname'
  obtain rfl := hreach.unique hlabels
  obtain rfl := hreach'.unique hlabels'
  have hvalid : ∀ l ∈ reached, l ≠ [] := fun l hl => (hreach.valid l hl).1
  have hvalid' : ∀ l ∈ reached', l ≠ [] := fun l hl => (hreach'.valid l hl).1
  rw [nameEquals_iff, canonicalName_takeWhile_presentation hvalid,
    canonicalName_takeWhile_presentation hvalid', sameLabels_iff]
  constructor
  · exact canonicalName_joinLabels_inj (cutAtZero_ne_nil hvalid) (cutAtZero_ne_nil hvalid')
  · exact canonicalName_joinLabels_congr (cutAtZero_ne_nil hvalid) (cutAtZero_ne_nil hvalid')

theorem SameLabels.cutAtZero {labels labels' : List Bytes} (h : SameLabels labels labels') :
    SameLabels (cutAtZero labels) (cutAtZero labels') := by
  rw [sameLabels_iff] at h ⊢
  rw [map_cutAtZero, map_cutAtZero, h]

/-- The comparison goes wrong for different names which are the same up to the first zero byte. -/
theorem name_equals_iff_same_labels {packet packet' name name' : Bytes}
    {cursor cursor' outLen outLen' next next' : Nat} {labels labels' : List Bytes}
    (hname : decodeName packet cursor outLen = some (name, next))
    (hname' : decodeName packet' cursor' outLen' = some (name', next'))
    (hlabels : Reaches packet cursor labels) (hlabels' : Reaches packet' cursor' labels') :
    (nameEquals name name' = true ↔ SameLabels labels labels') ↔
      (SameLabels labels labels' ∨ ¬SameLabels (cutAtZero labels) (cutAtZero labels')) := by
  rw [nameEquals_decoded hname hname' hlabels hlabels']
  constructor
  · intro hiff
    by_cases h : SameLabels labels labels'
    · exact Or.inl h
    · exact Or.inr (hiff.not.mpr h)
  · rintro (h | h)
    · exact iff_of_true h.cutAtZero h
    · exact iff_of_false h fun hsame => h hsame.cutAtZero

/-- The labels `A.` and `local`, the second behind a pointer. -/
def upperPacket : Bytes := ascii "\x05local\x00\x02A." ++ [0xC0, 0]

/-- The labels `a.` and `LOCAL`. -/
def lowerPacket : Bytes := ascii "\x02a.\x05LOCAL\x00"

theorem name_equals_at_escaped_dots :
    decodeName upperPacket 7 maxName = some (ascii "A\\..local", 12) ∧
    decodeName lowerPacket 0 maxName = some (ascii "a\\..LOCAL", 10) ∧
    ((nameEquals (ascii "A\\..local") (ascii "a\\..LOCAL") = true ↔
        SameLabels [ascii "A.", ascii "local"] [ascii "a.", ascii "LOCAL"]) ↔
      (SameLabels [ascii "A.", ascii "local"] [ascii "a.", ascii "LOCAL"] ∨
        ¬SameLabels (cutAtZero [ascii "A.", ascii "local"])
          (cutAtZero [ascii "a.", ascii "LOCAL"]))) := by
  have hname : decodeName upperPacket 7 maxName = some (ascii "A\\..local", 12) := by decide
  have hname' : decodeName lowerPacket 0 maxName = some (ascii "a\\..LOCAL", 10) := by decide
  have hreach : Reaches upperPacket 7 [ascii "A.", ascii "local"] := by
    have hlabel : upperPacket[7]? = some 2 := by decide
    have hpointer : upperPacket[10]? = some 0xC0 := by decide
    have hlow : upperPacket[11]? = some 0 := by decide
    have htarget : upperPacket[0]? = some 5 := by decide
    have hend : upperPacket[6]? = some 0 := by decide
    apply Reaches.label hlabel (by decide) (by decide) (by decide)
    apply Reaches.pointer hpointer (by decide) hlow
    apply Reaches.label htarget (by decide) (by decide) (by decide)
    exact Reaches.root hend
  have hreach' : Reaches lowerPacket 0 [ascii "a.", ascii "LOCAL"] := by
    have hlabel : lowerPacket[0]? = some 2 := by decide
    have hlabel' : lowerPacket[3]? = some 5 := by decide
    have hend : lowerPacket[9]? = some 0 := by decide
    apply Reaches.label hlabel (by decide) (by decide) (by decide)
    apply Reaches.label hlabel' (by decide) (by decide) (by decide)
    exact Reaches.root hend
  exact ⟨hname, hname', name_equals_iff_same_labels hname hname' hreach hreach'⟩

/-- A query for `a` with a zero byte behind it is taken for one for `a`. -/
theorem name_equals_at_zero_byte :
    ∃ (packet packet' name name' : Bytes) (next next' : Nat) (labels labels' : List Bytes),
      decodeName packet 0 maxName = some (name, next) ∧
      decodeName packet' 0 maxName = some (name', next') ∧
      Reaches packet 0 labels ∧ Reaches packet' 0 labels' ∧
      ¬(nameEquals name name' = true ↔ SameLabels labels labels') := by
  refine ⟨ascii "\x03a\x00b\x00", ascii "\x01a\x00", ascii "a", ascii "a", 5, 3,
    [ascii "a\x00b"], [ascii "a"], by decide, by decide, ?_, ?_, by decide⟩
  · have hlabel : (ascii "\x03a\x00b\x00")[0]? = some 3 := by decide
    have hend : (ascii "\x03a\x00b\x00")[4]? = some 0 := by decide
    exact Reaches.label hlabel (by decide) (by decide) (by decide) (Reaches.root hend)
  · have hlabel : (ascii "\x01a\x00")[0]? = some 1 := by decide
    have hend : (ascii "\x01a\x00")[2]? = some 0 := by decide
    exact Reaches.label hlabel (by decide) (by decide) (by decide) (Reaches.root hend)

end TimeCapsule.Mdns
