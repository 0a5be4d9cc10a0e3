import Mathlib.Data.List.TakeWhile
import TimeCapsule.Mdns.Service

/-!
# Names on the wire and as text

The labels of a name, their wire form and their presentation: each label escaped, with dots between
them.  The encoder and the decoder are inverse to each other on labels without zero bytes, also when
the decoder reaches the labels through pointers.
-/

namespace TimeCapsule.Mdns

open Lib

/-- A label that has a wire form. -/
def ValidLabel (label : Bytes) : Prop := label ≠ [] ∧ label.length ≤ maxLabel

/-- The uncompressed wire form: the labels behind their lengths, and the root. -/
def wireLabels (labels : List Bytes) : Bytes :=
  labels.flatMap (fun label => UInt8.ofNat label.length :: label) ++ [0]

/-- The escaped labels with dots between them. -/
def joinLabels : List Bytes → Bytes
  | [] => []
  | [label] => escapeLabel label
  | label :: labels => dotted label (joinLabels labels)

/-- The root is a single dot. -/
def presentation (labels : List Bytes) : Bytes := if labels = [] then [dot] else joinLabels labels

/-- The labels a reader of the packet comes across from a position on, following pointers. -/
inductive Reaches (packet : Bytes) : (pos : Nat) → (labels : List Bytes) → Prop where
  | root {pos : Nat} (h : packet[pos]? = some 0) : Reaches packet pos []
  | label {pos : Nat} {len : UInt8} {labels : List Bytes} (h : packet[pos]? = some len)
      (hpos : 0 < len.toNat) (hle : len.toNat ≤ maxLabel)
      (hfit : pos + 1 + len.toNat ≤ packet.length)
      (hrest : Reaches packet (pos + 1 + len.toNat) labels) :
      Reaches packet pos (slice packet (pos + 1) (pos + 1 + len.toNat) :: labels)
  | pointer {pos : Nat} {len low : UInt8} {labels : List Bytes} (h : packet[pos]? = some len)
      (htag : len &&& 0xC0 = 0xC0) (hlow : packet[pos + 1]? = some low)
      (hrest : Reaches packet ((len &&& 0x3F).toNat * 256 + low.toNat) labels) :
      Reaches packet pos labels

/-! ## Encoding a presentation -/

theorem wireLabels_cons (label : Bytes) (labels : List Bytes) :
    wireLabels (label :: labels) = (UInt8.ofNat label.length :: label) ++ wireLabels labels := by
  simp [wireLabels]

theorem joinLabels_cons (label : Bytes) {labels : List Bytes} (h : labels ≠ []) :
    joinLabels (label :: labels) = dotted label (joinLabels labels) := by
  cases labels with
  | nil => exact absurd rfl h
  | cons next rest => rfl

theorem presentation_cons (label : Bytes) (labels : List Bytes) :
    presentation (label :: labels) = joinLabels (label :: labels) := if_neg (List.cons_ne_nil _ _)

theorem escapeLabel_ne_nil {label : Bytes} (h : label ≠ []) : escapeLabel label ≠ [] := by
  cases label with
  | nil => exact absurd rfl h
  | cons ch rest =>
    rw [escapeLabel_cons]
    split <;> simp

theorem joinLabels_ne_nil {labels : List Bytes} (hne : labels ≠ [])
    (h : ∀ l ∈ labels, ValidLabel l) : joinLabels labels ≠ [] := by
  cases labels with
  | nil => exact absurd rfl hne
  | cons label rest =>
    have hlabel := escapeLabel_ne_nil (h label List.mem_cons_self).1
    by_cases hrest : rest = []
    · rw [hrest]
      exact hlabel
    · rw [joinLabels_cons label hrest]
      unfold dotted
      simp

/-- The encoder's loop finds the labels of their presentation. -/
theorem wireNameFrom_joinLabels {labels : List Bytes} (hne : labels ≠ [])
    (h : ∀ l ∈ labels, ValidLabel l) :
    wireNameFrom (joinLabels labels) false [] = some (wireLabels labels) := by
  induction labels with
  | nil => exact absurd rfl hne
  | cons label rest ih =>
    have hlabel := h label List.mem_cons_self
    have hstart : ([] : Bytes).length + label.length ≤ maxLabel := by
      rw [List.length_nil, Nat.zero_add]
      exact hlabel.2
    by_cases hrest : rest = []
    · have hend := wireNameFrom_escapeLabel [] hstart
      rw [List.append_nil, List.nil_append, wireNameFrom, if_neg hlabel.1] at hend
      rw [hrest]
      show wireNameFrom (escapeLabel label) false [] = _
      rw [hend]
      simp [wireLabels]
    · have htail := ih hrest fun l hl => h l (List.mem_cons_of_mem _ hl)
      rw [joinLabels_cons label hrest, dotted, wireNameFrom_escapeLabel _ hstart, List.nil_append,
        wireNameFrom, if_neg (by decide), if_pos rfl, if_neg hlabel.1, htail, Option.map_some,
        wireLabels_cons]

theorem wireName_presentation {labels : List Bytes} (h : ∀ l ∈ labels, ValidLabel l) :
    wireName (presentation labels) = some (wireLabels labels) := by
  cases labels with
  | nil => decide
  | cons label rest =>
    unfold wireName
    rw [presentation_cons, if_neg (joinLabels_ne_nil (List.cons_ne_nil _ _) h),
      wireNameFrom_joinLabels (List.cons_ne_nil _ _) h]

/-! ## What the decoder collects -/

/-- The text behind one more label: the decoder separates it from what it already has. -/
def addLabel (out label : Bytes) : Bytes := (if out = [] then [] else out ++ [dot]) ++ escapeLabel label

/-- The text behind the labels. -/
def addLabels (out : Bytes) (labels : List Bytes) : Bytes := labels.foldl addLabel out

theorem addLabel_ne_nil {out label : Bytes} (h : label ≠ []) : addLabel out label ≠ [] := by
  unfold addLabel
  simp [escapeLabel_ne_nil h]

theorem addLabels_of_ne {out : Bytes} (hout : out ≠ []) {labels : List Bytes} (hne : labels ≠ [])
    (h : ∀ l ∈ labels, ValidLabel l) : addLabels out labels = out ++ dot :: joinLabels labels := by
  induction labels generalizing out with
  | nil => exact absurd rfl hne
  | cons label rest ih =>
    have hnext : addLabel out label = out ++ dot :: escapeLabel label := by
      unfold addLabel
      rw [if_neg hout]
      simp
    have hstep : addLabels out (label :: rest) = addLabels (addLabel out label) rest := rfl
    by_cases hrest : rest = []
    · rw [hstep, hrest, hnext]
      rfl
    · rw [hstep, ih (addLabel_ne_nil (h label List.mem_cons_self).1) hrest
        fun l hl => h l (List.mem_cons_of_mem _ hl), hnext, joinLabels_cons label hrest, dotted]
      simp

theorem addLabels_nil {labels : List Bytes} (h : ∀ l ∈ labels, ValidLabel l) :
    addLabels [] labels = joinLabels labels := by
  cases labels with
  | nil => rfl
  | cons label rest =>
    have hfirst : addLabels [] (label :: rest) = addLabels (escapeLabel label) rest := rfl
    by_cases hrest : rest = []
    · rw [hfirst, hrest]
      rfl
    · rw [hfirst, addLabels_of_ne (escapeLabel_ne_nil (h label List.mem_cons_self).1) hrest
        fun l hl => h l (List.mem_cons_of_mem _ hl), joinLabels_cons label hrest, dotted]

theorem length_addLabels_le (out : Bytes) (labels : List Bytes) :
    out.length ≤ (addLabels out labels).length := by
  induction labels generalizing out with
  | nil => exact Nat.le_refl _
  | cons label rest ih =>
    have hstep : out.length ≤ (addLabel out label).length := by
      unfold addLabel
      by_cases hout : out = []
      · rw [hout]
        simp
      · rw [if_neg hout]
        simp only [List.length_append]
        omega
    exact hstep.trans (ih (addLabel out label))

/-- The decoder escapes a label as the configuration does. -/
theorem copyLabel_eq (outLen : Nat) (label out : Bytes) :
    decodeNameFrom.copyLabel outLen label (some out) = escapeDnsLabel.go outLen label out := by
  induction label generalizing out with
  | nil => rfl
  | cons ch label ih =>
    unfold decodeNameFrom.copyLabel escapeDnsLabel.go
    rw [ih, ih]

/-- One label of the decoder's loop: the separator and the escaped bytes, if the text fits. -/
theorem copyLabel_separated {outLen : Nat} {label out : Bytes} (hlabel : label ≠ [])
    (h : (addLabel out label).length < outLen) :
    decodeNameFrom.copyLabel outLen label
        (if out = [] then some out
        else if outLen ≤ out.length + 1 then none else some (out ++ [dot])) =
      some (addLabel out label) := by
  unfold addLabel at h ⊢
  by_cases hout : out = []
  · rw [if_pos hout, List.nil_append] at h
    rw [if_pos hout, if_pos hout, copyLabel_eq, hout,
      escapeDnsLabel_go (by simpa using h), List.nil_append]
  · rw [if_neg hout, List.length_append, List.length_append, List.length_singleton] at h
    have hescaped := List.length_pos_iff.mpr (escapeLabel_ne_nil hlabel)
    rw [if_neg hout, if_neg hout, if_neg (by omega), copyLabel_eq, escapeDnsLabel_go]
    rw [List.length_append, List.length_singleton]
    exact h

theorem copyLabel_separated_eq {outLen : Nat} {label out next : Bytes}
    (h : decodeNameFrom.copyLabel outLen label
        (if out = [] then some out
        else if outLen ≤ out.length + 1 then none else some (out ++ [dot])) = some next) :
    next = addLabel out label := by
  unfold addLabel
  by_cases hout : out = []
  · rw [if_pos hout, copyLabel_eq] at h
    rw [if_pos hout, escapeDnsLabel_go_eq h, hout]
  · rw [if_neg hout] at h ⊢
    by_cases hfull : outLen ≤ out.length + 1
    · rw [if_pos hfull] at h
      cases label <;> cases h
    · rw [if_neg hfull, copyLabel_eq] at h
      exact escapeDnsLabel_go_eq h

/-- The text of a name that is complete. -/
def finishName (out : Bytes) : Bytes := if out = [] then [dot] else out

theorem finishName_addLabels {labels : List Bytes} (h : ∀ l ∈ labels, ValidLabel l) :
    finishName (addLabels [] labels) = presentation labels := by
  unfold finishName presentation
  rw [addLabels_nil h]
  by_cases hne : labels = []
  · rw [hne]
    rfl
  · rw [if_neg (joinLabels_ne_nil hne h), if_neg hne]

theorem Reaches.valid {packet : Bytes} {pos : Nat} {labels : List Bytes}
    (h : Reaches packet pos labels) : ∀ l ∈ labels, ValidLabel l := by
  induction h with
  | root _ =>
    intro l hl
    cases hl
  | @label pos _ _ _ hpos hle hfit _ ih =>
    intro l hl
    rcases List.mem_cons.mp hl with rfl | hl
    · have hlen := length_slice (i := pos + 1) hfit
      unfold ValidLabel
      rw [← List.length_pos_iff, hlen]
      omega
    · exact ih l hl
  | pointer _ _ _ _ ih => exact ih

/-- A length byte is no pointer. -/
theorem length_not_pointer {len : UInt8} (h : len.toNat ≤ maxLabel) : len &&& 0xC0 ≠ 0xC0 := by
  intro htag
  have hval : len.toNat &&& 192 = 192 := by
    rw [← UInt8.toNat_inj, UInt8.toNat_and] at htag
    exact htag
  have hle : len.toNat &&& 192 ≤ len.toNat := Nat.and_le_left
  unfold maxLabel at h
  omega

/-- A position leads to one list of labels only. -/
theorem Reaches.unique {packet : Bytes} {pos : Nat} {labels labels' : List Bytes}
    (h : Reaches packet pos labels) (h' : Reaches packet pos labels') : labels = labels' := by
  induction h generalizing labels' with
  | root h =>
    cases h' with
    | root _ => rfl
    | label h₂ hpos _ _ _ =>
      rw [h] at h₂
      cases h₂
      cases hpos
    | pointer h₂ htag _ _ =>
      rw [h] at h₂
      cases h₂
      exact absurd htag (by decide)
  | label h hpos hle hfit hrest ih =>
    cases h' with
    | root h₂ =>
      rw [h] at h₂
      cases h₂
      cases hpos
    | label h₂ _ _ _ hrest₂ =>
      rw [h] at h₂
      cases h₂
      rw [ih hrest₂]
    | pointer h₂ htag _ _ =>
      rw [h] at h₂
      cases h₂
      exact absurd htag (length_not_pointer hle)
  | pointer h htag hlow hrest ih =>
    cases h' with
    | root h₂ =>
      rw [h] at h₂
      cases h₂
      exact absurd htag (by decide)
    | label h₂ _ hle _ _ =>
      rw [h] at h₂
      cases h₂
      exact absurd htag (length_not_pointer hle)
    | pointer h₂ _ hlow₂ hrest₂ =>
      rw [h] at h₂
      cases h₂
      rw [hlow] at hlow₂
      cases hlow₂
      exact ih hrest₂

/-- A decoder that succeeds has read the labels that its position leads to. -/
theorem decodeNameFrom_reaches {packet : Bytes} {outLen fuel pos jumps : Nat} {next : Option Nat}
    {out : Bytes} {found : Bytes × Nat}
    (h : decodeNameFrom packet outLen fuel pos jumps next out = some found) :
    ∃ labels, Reaches packet pos labels ∧ found.1 = finishName (addLabels out labels) := by
  induction fuel generalizing pos jumps next out with
  | zero =>
    unfold decodeNameFrom at h
    cases h
  | succ fuel ih =>
    unfold decodeNameFrom at h
    cases hlen : packet[pos]? with
    | none =>
      rw [hlen] at h
      cases h
    | some len =>
      rw [hlen] at h
      dsimp only at h
      by_cases hroot : len = 0
      · rw [if_pos hroot] at h
        refine ⟨[], Reaches.root (hroot ▸ hlen), ?_⟩
        unfold finishName addLabels
        rw [List.foldl_nil]
        by_cases hout : out = []
        · rw [if_pos hout] at h ⊢
          split at h
          · cases h
          · cases h
            rfl
        · rw [if_neg hout] at h ⊢
          cases h
          rfl
      rw [if_neg hroot] at h
      by_cases htag : len &&& 0xC0 = 0xC0
      · rw [if_pos htag] at h
        cases hlow : packet[pos + 1]? with
        | none =>
          rw [hlow] at h
          cases h
        | some low =>
          rw [hlow] at h
          dsimp only at h
          split at h
          · cases h
          · obtain ⟨labels, hreach, hfound⟩ := ih h
            exact ⟨labels, Reaches.pointer hlen htag hlow hreach, hfound⟩
      rw [if_neg htag] at h
      split at h
      · cases h
      · next hbounds =>
        rw [Bool.or_eq_true, decide_eq_true_eq, decide_eq_true_eq, not_or] at hbounds
        split at h
        · cases h
        · next out' hcopy =>
          obtain ⟨labels, hreach, hfound⟩ := ih h
          have hpos : 0 < len.toNat := by
            rw [Nat.pos_iff_ne_zero]
            intro hzero
            exact hroot (UInt8.toNat_inj.mp hzero)
          refine ⟨_, Reaches.label hlen hpos (by omega) (by omega) hreach, ?_⟩
          rw [hfound, copyLabel_separated_eq hcopy]
          rfl

/-! ## Decoding a wire form -/

theorem length_finishName_ge (out : Bytes) : out.length ≤ (finishName out).length := by
  unfold finishName
  by_cases hout : out = []
  · rw [hout]
    simp
  · rw [if_neg hout]

/-- The decoder's loop on uncompressed labels, for a text that fits. -/
theorem decodeNameFrom_wireLabels {labels : List Bytes} (h : ∀ l ∈ labels, ValidLabel l)
    {outLen fuel jumps : Nat} {before after out : Bytes} (hfuel : labels.length < fuel)
    (hfit : (finishName (addLabels out labels)).length < outLen) :
    decodeNameFrom (before ++ (wireLabels labels ++ after)) outLen fuel before.length jumps none out =
      some (finishName (addLabels out labels), before.length + (wireLabels labels).length) := by
  induction labels generalizing before out fuel with
  | nil =>
    cases fuel with
    | zero => exact absurd hfuel (Nat.not_lt_zero _)
    | succ fuel =>
      have hget : (before ++ (wireLabels [] ++ after))[before.length]? = some 0 := by simp [wireLabels]
      unfold decodeNameFrom
      rw [hget]
      dsimp only
      rw [if_pos rfl]
      show _ = some (finishName out, before.length + 1)
      have hfit' : (finishName out).length < outLen := hfit
      unfold finishName at hfit' ⊢
      by_cases hout : out = []
      · rw [if_pos hout, List.length_singleton] at hfit'
        rw [if_pos hout, if_pos hout, if_neg (by omega)]
        rfl
      · rw [if_neg hout, if_neg hout]
        rfl
  | cons label rest ih =>
    cases fuel with
    | zero => exact absurd hfuel (Nat.not_lt_zero _)
    | succ fuel =>
      have hlabel := h label List.mem_cons_self
      have hpos := List.length_pos_iff.mpr hlabel.1
      have hle := hlabel.2
      have hlen : (UInt8.ofNat label.length).toNat = label.length := by
        unfold maxLabel at hle
        rw [UInt8.toNat_ofNat']
        omega
      have hnz : UInt8.ofNat label.length ≠ 0 := by
        intro hzero
        rw [hzero, UInt8.toNat_zero] at hlen
        omega
      -- The packet, cut behind the length and behind the label.
      have hpacket : before ++ (wireLabels (label :: rest) ++ after) =
          (before ++ (UInt8.ofNat label.length :: label)) ++ (wireLabels rest ++ after) := by
        rw [wireLabels_cons]
        simp
      have hget : (before ++ (wireLabels (label :: rest) ++ after))[before.length]? =
          some (UInt8.ofNat label.length) := by
        rw [wireLabels_cons]
        simp
      have hslice : slice (before ++ (wireLabels (label :: rest) ++ after)) (before.length + 1)
          (before.length + 1 + label.length) = label := by
        rw [slice_add, wireLabels_cons, ← List.drop_drop]
        simp
      have hbehind : (before ++ (UInt8.ofNat label.length :: label)).length =
          before.length + 1 + label.length := by
        rw [List.length_append, List.length_cons]
        omega
      have hroom : before.length + 1 + label.length ≤
          (before ++ (wireLabels (label :: rest) ++ after)).length := by
        rw [hpacket, List.length_append, hbehind]
        omega
      have htext : (addLabel out label).length < outLen :=
        Nat.lt_of_le_of_lt
          ((length_addLabels_le (addLabel out label) rest).trans (length_finishName_ge _)) hfit
      unfold decodeNameFrom
      rw [hget]
      dsimp only
      have hbounds : ¬(maxLabel < label.length || (before ++ (wireLabels (label :: rest) ++
          after)).length < before.length + 1 + label.length) := by
        rw [Bool.or_eq_true, decide_eq_true_eq, decide_eq_true_eq]
        omega
      rw [if_neg hnz, if_neg (length_not_pointer (hlen.symm ▸ hle)), hlen, if_neg hbounds, hslice,
        copyLabel_separated hlabel.1 htext]
      dsimp only
      rw [hpacket, ← hbehind, ih (fun l hl => h l (List.mem_cons_of_mem _ hl))
        (by simpa using hfuel) hfit, hbehind, wireLabels_cons, List.length_append, List.length_cons]
      congr 2
      omega

/-- More fuel than visits changes nothing: between two pointers the position only grows. -/
theorem decodeNameFrom_fuel {packet : Bytes} {outLen fuel pos jumps : Nat} {next : Option Nat}
    {out : Bytes} (hjumps : jumps ≤ 17)
    (hfuel : (17 - jumps) * (packet.length + 1) + (packet.length - pos) < fuel) (more : Nat) :
    decodeNameFrom packet outLen (fuel + more) pos jumps next out =
      decodeNameFrom packet outLen fuel pos jumps next out := by
  induction fuel generalizing pos jumps next out with
  | zero => exact absurd hfuel (Nat.not_lt_zero _)
  | succ fuel ih =>
    rw [Nat.succ_add_eq_add_succ]
    unfold decodeNameFrom
    cases hlen : packet[pos]? with
    | none => rfl
    | some len =>
      dsimp only
      have hpos : pos < packet.length := (List.getElem?_eq_some_iff.mp hlen).1
      by_cases hroot : len = 0
      · rw [if_pos hroot, if_pos hroot]
      rw [if_neg hroot, if_neg hroot]
      by_cases htag : len &&& 0xC0 = 0xC0
      · rw [if_pos htag, if_pos htag]
        cases packet[pos + 1]? with
        | none => rfl
        | some low =>
          dsimp only
          by_cases hptr : packet.length ≤ (len &&& 0x3F).toNat * 256 + low.toNat || 16 < jumps
          · rw [if_pos hptr, if_pos hptr]
          · rw [if_neg hptr, if_neg hptr]
            rw [Bool.or_eq_true, decide_eq_true_eq, decide_eq_true_eq, not_or] at hptr
            have hjump : (17 - jumps) * (packet.length + 1) =
                (17 - (jumps + 1)) * (packet.length + 1) + (packet.length + 1) := by
              have hsucc : 17 - jumps = (17 - (jumps + 1)) + 1 := by omega
              rw [hsucc, Nat.succ_mul]
            exact ih (by omega) (by omega)
      rw [if_neg htag, if_neg htag]
      by_cases hbounds : maxLabel < len.toNat || packet.length < pos + 1 + len.toNat
      · rw [if_pos hbounds, if_pos hbounds]
      · rw [if_neg hbounds, if_neg hbounds]
        cases decodeNameFrom.copyLabel outLen (slice packet (pos + 1) (pos + 1 + len.toNat))
            (if out = [] then some out
            else if outLen ≤ out.length + 1 then none else some (out ++ [dot])) with
        | none => rfl
        | some out' => exact ih hjumps (by omega)

/-- The decoder's fuel never runs out. -/
theorem decodeName_of_fuel {packet : Bytes} {cursor outLen fuel : Nat}
    (h : 18 * (packet.length + 1) ≤ fuel) :
    decodeName packet cursor outLen =
      (decodeNameFrom packet outLen fuel cursor 0 none []).map fun found =>
        (found.1.takeWhile (· != 0), found.2) := by
  unfold decodeName
  rw [← Nat.add_sub_cancel' h, decodeNameFrom_fuel (by omega) (by omega)]

/-! ## Round trips -/

theorem mem_escapeLabel {ch : UInt8} {label : Bytes} (h : ch ∈ escapeLabel label) :
    ch = backslash ∨ ch ∈ label := by
  unfold escapeLabel at h
  obtain ⟨c, hc, h⟩ := List.mem_flatMap.mp h
  split at h
  · rcases List.mem_cons.mp h with h | h
    · exact Or.inl h
    · exact Or.inr (List.mem_singleton.mp h ▸ hc)
  · exact Or.inr (List.mem_singleton.mp h ▸ hc)

theorem zero_not_mem_joinLabels {labels : List Bytes} (h : ∀ l ∈ labels, (0 : UInt8) ∉ l) :
    (0 : UInt8) ∉ joinLabels labels := by
  have hescaped : ∀ l ∈ labels, (0 : UInt8) ∉ escapeLabel l := by
    intro l hl hzero
    rcases mem_escapeLabel hzero with hb | hmem
    · exact absurd hb (by decide)
    · exact h l hl hmem
  induction labels with
  | nil => simp [joinLabels]
  | cons label rest ih =>
    by_cases hrest : rest = []
    · rw [hrest]
      exact hescaped label List.mem_cons_self
    · rw [joinLabels_cons label hrest, dotted, List.mem_append, List.mem_cons, not_or, not_or]
      refine ⟨hescaped label List.mem_cons_self, by decide, ?_⟩
      exact ih (fun l hl => h l (List.mem_cons_of_mem _ hl))
        fun l hl => hescaped l (List.mem_cons_of_mem _ hl)

theorem takeWhile_presentation {labels : List Bytes} (h : ∀ l ∈ labels, (0 : UInt8) ∉ l) :
    (presentation labels).takeWhile (· != 0) = presentation labels := by
  unfold presentation
  by_cases hne : labels = []
  · rw [if_pos hne]
    rfl
  · rw [if_neg hne, List.takeWhile_eq_self_iff]
    intro ch hch
    rw [bne_iff_ne]
    intro hzero
    exact zero_not_mem_joinLabels h (hzero ▸ hch)

/-- Every label takes at least one step of the decoder and one byte of the packet. -/
theorem length_le_wireLabels (labels : List Bytes) : labels.length < (wireLabels labels).length := by
  induction labels with
  | nil => decide
  | cons label rest ih =>
    rw [wireLabels_cons, List.length_append, List.length_cons, List.length_cons]
    omega

theorem decodeName_wireLabels {labels : List Bytes} (h : ∀ l ∈ labels, ValidLabel l)
    (hzero : ∀ l ∈ labels, (0 : UInt8) ∉ l) {outLen : Nat}
    (hfit : (presentation labels).length < outLen) (before after : Bytes) :
    decodeName (before ++ (wireLabels labels ++ after)) before.length outLen =
      some (presentation labels, before.length + (wireLabels labels).length) := by
  have hfuel := length_le_wireLabels labels
  unfold decodeName
  rw [decodeNameFrom_wireLabels h (by simp; omega) (by rw [finishName_addLabels h]; exact hfit),
    Option.map_some, finishName_addLabels h, takeWhile_presentation hzero]

theorem decodeName_reaches {packet name : Bytes} {cursor outLen next : Nat}
    (h : decodeName packet cursor outLen = some (name, next)) :
    ∃ labels, Reaches packet cursor labels ∧ name = (presentation labels).takeWhile (· != 0) := by
  unfold decodeName at h
  obtain ⟨found, hfound, heq⟩ := Option.map_eq_some_iff.mp h
  obtain ⟨labels, hreach, htext⟩ := decodeNameFrom_reaches hfound
  refine ⟨labels, hreach, ?_⟩
  rw [← finishName_addLabels hreach.valid, ← htext]
  exact (congrArg Prod.fst heq).symm

theorem encodeName_presentation {labels : List Bytes} (h : ∀ l ∈ labels, ValidLabel l) {cap : Nat}
    {out : Bytes} (hout : out.length ≤ cap) :
    encodeName cap (presentation labels) out = appendBytes cap (wireLabels labels) out := by
  rw [renders_encodeName cap _ out hout, wireName_presentation h, Option.bind_some]

/-- Labels that are encoded are decoded again, and decoded labels are encoded as they were reached. -/
theorem names_round_trip :
    (∀ (labels : List Bytes), (∀ l ∈ labels, l ≠ [] ∧ l.length ≤ maxLabel ∧ (0 : UInt8) ∉ l) →
      (presentation labels).length < maxName →
      ∀ (cap : Nat) (out : Bytes), out.length + (wireLabels labels).length ≤ cap →
        encodeName cap (presentation labels) out = some (out ++ wireLabels labels) ∧
        ∀ after, decodeName (out ++ wireLabels labels ++ after) out.length maxName =
          some (presentation labels, (out ++ wireLabels labels).length)) ∧
    (∀ (packet : Bytes) (cursor outLen : Nat) (name : Bytes) (next : Nat),
      decodeName packet cursor outLen = some (name, next) →
      ∃ labels, Reaches packet cursor labels ∧
        ((∀ l ∈ labels, (0 : UInt8) ∉ l) →
          name = presentation labels ∧
          ∀ (cap : Nat) (out : Bytes), out.length + (wireLabels labels).length ≤ cap →
            encodeName cap name out = some (out ++ wireLabels labels))) := by
  constructor
  · intro labels h hfit cap out hcap
    have hvalid : ∀ l ∈ labels, ValidLabel l := fun l hl => ⟨(h l hl).1, (h l hl).2.1⟩
    constructor
    · rw [encodeName_presentation hvalid (by omega), appendBytes_eq_some]
      exact ⟨hcap, rfl⟩
    · intro after
      rw [List.append_assoc, List.length_append]
      exact decodeName_wireLabels hvalid (fun l hl => (h l hl).2.2) hfit out after
  · intro packet cursor outLen name next h
    obtain ⟨labels, hreach, hname⟩ := decodeName_reaches h
    refine ⟨labels, hreach, ?_⟩
    intro hzero
    rw [takeWhile_presentation hzero] at hname
    refine ⟨hname, ?_⟩
    intro cap out hcap
    rw [hname, encodeName_presentation hreach.valid (by omega), appendBytes_eq_some]
    exact ⟨hcap, rfl⟩

/-- The packet of the example below: a name, and one that ends in a pointer to it. -/
def pointerPacket : Bytes := ascii "\x03a.b\x00\x01c" ++ [0xC0, 0]

theorem pointerPacket_reaches : Reaches pointerPacket 5 [ascii "c", ascii "a.b"] := by
  have hname : pointerPacket[0]? = some 3 := by decide
  have hend : pointerPacket[4]? = some 0 := by decide
  have hlabel : pointerPacket[5]? = some 1 := by decide
  have htag : pointerPacket[7]? = some 0xC0 := by decide
  have hlow : pointerPacket[8]? = some 0 := by decide
  apply Reaches.label hlabel (by decide) (by decide) (by decide)
  apply Reaches.pointer htag (by decide) hlow
  apply Reaches.label hname (by decide) (by decide) (by decide)
  exact Reaches.root hend

/-- A label with a dot and one with a backslash, and a name reached through a pointer. -/
theorem dot_and_backslash_round_trip :
    (encodeName 1500 (ascii "a\\.b.c\\\\") [] = some ([] ++ wireLabels [ascii "a.b", ascii "c\\"]) ∧
      decodeName ([] ++ wireLabels [ascii "a.b", ascii "c\\"] ++ [7]) 0 maxName =
        some (ascii "a\\.b.c\\\\", 8)) ∧
    decodeName pointerPacket 5 maxName = some (ascii "c.a\\.b", 9) ∧
    encodeName 1500 (ascii "c.a\\.b") [] = some ([] ++ wireLabels [ascii "c", ascii "a.b"]) := by
  have hlabels : ∀ l ∈ [ascii "a.b", ascii "c\\"],
      l ≠ [] ∧ l.length ≤ maxLabel ∧ (0 : UInt8) ∉ l := by decide
  have hthere := names_round_trip.1 [ascii "a.b", ascii "c\\"] hlabels (by decide) 1500 []
    (by decide)
  have hdecoded : decodeName pointerPacket 5 maxName = some (ascii "c.a\\.b", 9) := by decide
  obtain ⟨labels, hreach, hback⟩ := names_round_trip.2 _ _ _ _ _ hdecoded
  obtain rfl := hreach.unique pointerPacket_reaches
  have hencoded := (hback (by decide)).2 1500 [] (by decide)
  exact ⟨⟨hthere.1, hthere.2 [7]⟩, hdecoded, hencoded⟩

end TimeCapsule.Mdns
