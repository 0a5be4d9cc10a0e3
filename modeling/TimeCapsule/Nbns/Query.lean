import TimeCapsule.Nbns.Protocol

/-!
# Queries on the wire

A query is the datagram that encodes it: the header, one question, and what is behind it.  The parser
finds a question where one is encoded, and only there.
-/

namespace TimeCapsule.Nbns

open Lib

/-! ## Encoded names -/

/-- The letter of four bits of a name. -/
def half (n : UInt8) : UInt8 := 0x41 + n

def halves (b : UInt8) : Bytes := [half (b >>> 4), half (b &&& 0x0F)]

/-- A label of the scope has a length that is no pointer and not the end of the name. -/
def ValidLabel (label : Bytes) : Prop := 0 < label.length ∧ label.length ≤ 63

def encodeLabels (labels : List Bytes) : Bytes :=
  (labels.flatMap fun label => UInt8.ofNat label.length :: label) ++ [0]

/-- The question of a query: a name of 15 bytes, its suffix and its scope. -/
structure Question where
  name : Bytes
  suffix : UInt8
  scope : List Bytes
  length_name : name.length = 15
  scope_valid : ∀ label ∈ scope, ValidLabel label

/-- The first byte is the length of the encoded name. -/
def Question.encode (q : Question) : Bytes :=
  32 :: ((q.name ++ [q.suffix]).flatMap halves ++ encodeLabels q.scope)

/-! ## The bytes of a name -/

theorem isHalf_iff (ch : UInt8) : isHalf ch ↔ ∃ n < 16, ch = half (UInt8.ofNat n) := by
  simp only [isHalf, half, Bool.and_eq_true, decide_eq_true_eq, UInt8.le_iff_toNat_le]
  constructor
  · intro h
    refine ⟨ch.toNat - 65, by simp at h; omega, UInt8.toNat.inj ?_⟩
    simp at h ⊢
    omega
  · rintro ⟨n, hn, rfl⟩
    simp
    omega

theorem halves_decoded {hi lo : UInt8} (hhi : isHalf hi) (hlo : isHalf lo) :
    halves ((hi - 0x41) <<< 4 ||| (lo - 0x41)) = [hi, lo] := by
  obtain ⟨n, hn, rfl⟩ := (isHalf_iff hi).mp hhi
  obtain ⟨m, hm, rfl⟩ := (isHalf_iff lo).mp hlo
  have hall : ∀ n < 16, ∀ m < 16, halves ((half (UInt8.ofNat n) - 0x41) <<< 4 |||
      (half (UInt8.ofNat m) - 0x41)) = [half (UInt8.ofNat n), half (UInt8.ofNat m)] := by
    decide +kernel
  exact hall n hn m hm

theorem decoded_halves (b : UInt8) :
    isHalf (half (b >>> 4)) ∧ isHalf (half (b &&& 0x0F)) ∧
      ((half (b >>> 4) - 0x41) <<< 4 ||| (half (b &&& 0x0F) - 0x41)) = b := by
  have hall : ∀ n < 256, (fun b : UInt8 => isHalf (half (b >>> 4)) ∧ isHalf (half (b &&& 0x0F)) ∧
      ((half (b >>> 4) - 0x41) <<< 4 ||| (half (b &&& 0x0F) - 0x41)) = b) (UInt8.ofNat n) := by
    decide +kernel
  have hb := hall b.toNat b.toNat_lt
  rwa [UInt8.ofNat_toNat] at hb

theorem length_flatMap_halves (bytes : Bytes) : (bytes.flatMap halves).length = 2 * bytes.length := by
  induction bytes with
  | nil => rfl
  | cons b bytes ih =>
    rw [List.flatMap_cons, List.length_append, ih, List.length_cons]
    show 2 + _ = _
    omega

/-! ## The parser -/

variable {buf : Bytes}

/-- The loop finds the name whose letters are there. -/
theorem finds_decodeHalves {count off : Nat} (h : off + 2 * count ≤ buf.length) :
    Finds (decodeHalves buf count off) fun bytes =>
      bytes.length = count ∧ bytes.flatMap halves <+: buf.drop off := by
  induction count generalizing off with
  | zero =>
    refine finds_some fun bytes => ?_
    rw [List.length_eq_zero_iff, eq_comm]
    exact ⟨fun hnil => ⟨hnil, hnil ▸ List.nil_prefix⟩, fun h => h.1⟩
  | succ count ih =>
    obtain ⟨hi, hhi⟩ := drop_eq_cons (show off < buf.length by omega)
    obtain ⟨lo, hlo⟩ := drop_eq_cons (show off + 1 < buf.length by omega)
    have hboth : buf.drop off = hi :: lo :: buf.drop (off + 2) := by rw [hhi, hlo]
    have hcons : ∀ b rest, (b :: rest).flatMap halves <+: buf.drop off ↔
        half (b >>> 4) = hi ∧ half (b &&& 0x0F) = lo ∧ rest.flatMap halves <+: buf.drop (off + 2) := by
      intro b rest
      rw [hboth, List.flatMap_cons]
      show half (b >>> 4) :: half (b &&& 0x0F) :: rest.flatMap halves <+: _ ↔ _
      rw [List.cons_prefix_cons, List.cons_prefix_cons]
    rw [decodeHalves, byteAt_eq hhi, ok_bind]
    split
    · next hbad =>
      refine finds_none fun bytes => ?_
      rintro ⟨hlength, hfront⟩
      obtain ⟨b, rest, rfl⟩ := List.exists_cons_of_length_eq_add_one hlength
      have hgood := (decoded_halves b).1
      rw [((hcons b rest).mp hfront).1] at hgood
      rw [hgood] at hbad
      cases hbad
    next hgoodHi =>
    rw [byteAt_eq hlo, ok_bind]
    split
    · next hbad =>
      refine finds_none fun bytes => ?_
      rintro ⟨hlength, hfront⟩
      obtain ⟨b, rest, rfl⟩ := List.exists_cons_of_length_eq_add_one hlength
      have hgood := (decoded_halves b).2.1
      rw [((hcons b rest).mp hfront).2.1] at hgood
      rw [hgood] at hbad
      cases hbad
    next hgoodLo =>
    simp only [Bool.not_eq_true', Bool.not_eq_false] at hgoodHi hgoodLo
    refine (Finds.map (ih (by omega)) _).congr fun bytes => ?_
    constructor
    · rintro ⟨rest, ⟨hlength, hfront⟩, rfl⟩
      have hletters := halves_decoded hgoodHi hgoodLo
      simp only [halves, List.cons.injEq, and_true] at hletters
      exact ⟨congrArg (· + 1) hlength, (hcons _ rest).mpr ⟨hletters.1, hletters.2, hfront⟩⟩
    · rintro ⟨hlength, hfront⟩
      obtain ⟨b, rest, rfl⟩ := List.exists_cons_of_length_eq_add_one hlength
      obtain ⟨rfl, rfl, hrest⟩ := (hcons b rest).mp hfront
      refine ⟨rest, ⟨Nat.succ.inj hlength, hrest⟩, ?_⟩
      rw [(decoded_halves b).2.2]

theorem ofNat_length_eq_zero_iff {label : Bytes} (h : ValidLabel label) : UInt8.ofNat label.length ≠ 0 := by
  obtain ⟨hpos, hle⟩ := h
  intro hzero
  have hnat := congrArg UInt8.toNat hzero
  rw [UInt8.toNat_ofNat'] at hnat
  simp at hnat
  omega

theorem encodeLabels_cons (label : Bytes) (labels : List Bytes) :
    encodeLabels (label :: labels) = UInt8.ofNat label.length :: (label ++ encodeLabels labels) := by
  simp [encodeLabels]

/-- The loop finds the end of the scope that is there. -/
theorem finds_skipLabels {fuel off : Nat} (h : buf.length - off ≤ fuel) :
    Finds (skipLabels buf fuel off) fun endOff =>
      ∃ labels, (∀ label ∈ labels, ValidLabel label) ∧ encodeLabels labels <+: buf.drop off ∧
        endOff = off + (encodeLabels labels).length := by
  have hend : ∀ {off}, buf.length ≤ off → ∀ labels, ¬encodeLabels labels <+: buf.drop off := by
    intro off hoff labels hfront
    rw [List.drop_eq_nil_of_le hoff, List.prefix_nil] at hfront
    simp [encodeLabels] at hfront
  induction fuel generalizing off with
  | zero =>
    refine finds_none fun endOff => ?_
    rintro ⟨labels, -, hfront, -⟩
    exact hend (by omega) labels hfront
  | succ fuel ih =>
    rw [skipLabels]
    split
    · next hoff =>
      refine finds_none fun endOff => ?_
      rintro ⟨labels, -, hfront, -⟩
      exact hend hoff labels hfront
    next hoff =>
    obtain ⟨b, hb⟩ := drop_eq_cons (show off < buf.length by omega)
    rw [byteAt_eq hb, ok_bind, hb]
    -- the first byte is the end of the name, or the length of its first label
    split
    · next hzero =>
      refine finds_some fun endOff => ⟨?_, ?_⟩
      · rintro rfl
        exact ⟨[], by simp, by simp [encodeLabels, hzero], rfl⟩
      · rintro ⟨labels, hvalid, hfront, rfl⟩
        cases labels with
        | nil => rfl
        | cons label labels =>
          rw [encodeLabels_cons, List.cons_prefix_cons] at hfront
          exact absurd (hfront.1.trans hzero) (ofNat_length_eq_zero_iff (hvalid label (by simp)))
    next hnonzero =>
    have hcons : ∀ labels, (∀ label ∈ labels, ValidLabel label) →
        encodeLabels labels <+: b :: buf.drop (off + 1) → ∃ label rest, labels = label :: rest ∧
          label.length = b.toNat ∧ label ++ encodeLabels rest <+: buf.drop (off + 1) := by
      intro labels hvalid hfront
      cases labels with
      | nil => exact absurd (List.cons_prefix_cons.mp hfront).1.symm hnonzero
      | cons label rest =>
        rw [encodeLabels_cons, List.cons_prefix_cons] at hfront
        have hlabel := hvalid label (by simp)
        refine ⟨label, rest, rfl, ?_, hfront.2⟩
        rw [← hfront.1, UInt8.toNat_ofNat']
        have hle := hlabel.2
        omega
    split
    · next hbad =>
      refine finds_none fun endOff => ?_
      rintro ⟨labels, hvalid, hfront, -⟩
      obtain ⟨label, rest, rfl, hlength, hrest⟩ := hcons labels hvalid hfront
      have hle := (hvalid label (by simp)).2
      have hfits := hrest.length_le
      rw [List.length_append, List.length_drop] at hfits
      have hsmall : ∀ n < 64, UInt8.ofNat n &&& 0xC0 = 0 := by decide +kernel
      have hmask := hsmall b.toNat (by omega)
      rw [UInt8.ofNat_toNat] at hmask
      simp only [hmask, ne_eq, not_true_eq_false, decide_false, Bool.false_or, Bool.or_eq_true,
        decide_eq_true_eq, UInt8.lt_iff_toNat_lt] at hbad
      simp at hbad
      omega
    next hgood =>
    simp only [Bool.or_eq_true, decide_eq_true_eq, UInt8.lt_iff_toNat_lt, not_or, not_lt] at hgood
    obtain ⟨⟨-, hle⟩, hfits⟩ := hgood
    have hpos : 0 < b.toNat := by
      refine Nat.pos_of_ne_zero fun hzero => hnonzero (UInt8.toNat.inj hzero)
    refine (ih (by omega)).congr fun endOff => ⟨?_, ?_⟩
    · rintro ⟨labels, hvalid, hfront, rfl⟩
      have hlength : ((buf.drop (off + 1)).take b.toNat).length = b.toNat := by
        rw [List.length_take, List.length_drop]
        omega
      refine ⟨(buf.drop (off + 1)).take b.toNat :: labels, ?_, ?_, ?_⟩
      · exact List.forall_mem_cons.mpr ⟨⟨by omega, by rw [hlength]; exact hle⟩, hvalid⟩
      · rw [encodeLabels_cons, hlength, UInt8.ofNat_toNat, List.cons_prefix_cons, append_isPrefix_iff,
          hlength, List.drop_drop]
        exact ⟨rfl, List.take_prefix _ _, hfront⟩
      · rw [encodeLabels_cons, List.length_cons, List.length_append, hlength]
        omega
    · rintro ⟨labels, hvalid, hfront, rfl⟩
      obtain ⟨label, rest, rfl, hlength, hrest⟩ := hcons labels hvalid hfront
      rw [append_isPrefix_iff, List.drop_drop, hlength] at hrest
      refine ⟨rest, fun l hl => hvalid l (List.mem_cons_of_mem _ hl), hrest.2, ?_⟩
      rw [encodeLabels_cons, List.length_cons, List.length_append, hlength]
      omega

/-- The parser finds the question that is encoded at the offset. -/
theorem finds_parseQuestionName (off : Nat) :
    Finds (parseQuestionName buf off) fun r =>
      ∃ q : Question, q.encode <+: buf.drop off ∧ r = ⟨q.name, q.suffix, off + q.encode.length⟩ := by
  have hlength : ∀ q : Question,
      ((q.name ++ [q.suffix]).flatMap halves).length = 32 := by
    intro q
    rw [length_flatMap_halves, List.length_append, q.length_name]
    rfl
  rw [parseQuestionName]
  split
  · next hoff =>
    refine finds_none fun r => ?_
    rintro ⟨q, hfront, -⟩
    rw [List.drop_eq_nil_of_le hoff, List.prefix_nil] at hfront
    cases hfront
  next hoff =>
  obtain ⟨b, hb⟩ := drop_eq_cons (show off < buf.length by omega)
  have hencode : ∀ q : Question, q.encode <+: buf.drop off ↔ 32 = b ∧
      (q.name ++ [q.suffix]).flatMap halves <+: buf.drop (off + 1) ∧
        encodeLabels q.scope <+: buf.drop (off + 33) := by
    intro q
    rw [Question.encode, hb, List.cons_prefix_cons, append_isPrefix_iff, hlength, List.drop_drop]
  rw [byteAt_eq hb, ok_bind]
  split
  · next hfirst =>
    refine finds_none fun r => ?_
    rintro ⟨q, hfront, -⟩
    exact hfirst ((hencode q).mp hfront).1.symm
  next hfirst =>
  rw [ne_eq, not_not] at hfirst
  split
  · next hshort =>
    refine finds_none fun r => ?_
    rintro ⟨q, hfront, -⟩
    have hle := ((hencode q).mp hfront).2.1.length_le
    rw [hlength, List.length_drop] at hle
    omega
  next hlong =>
  obtain ⟨r, hdecode, hfound⟩ := @finds_decodeHalves buf 16 (off + 1) (by omega)
  rw [decodeNetbiosQuestionName, if_neg (by simp), hdecode]
  cases r with
  | none =>
    refine finds_none fun r => ?_
    rintro ⟨q, hfront, -⟩
    have hname := (hfound (q.name ++ [q.suffix])).mpr
      ⟨by rw [List.length_append, q.length_name]; rfl, ((hencode q).mp hfront).2.1⟩
    cases hname
  | some bytes =>
    obtain ⟨hbytes, hfront⟩ := (hfound bytes).mp rfl
    show Finds ((skipLabels buf (buf.length - (off + 33)) (off + 33)).map
      (·.map fun endOff => (⟨bytes.take 15, bytes.getD 15 0, endOff⟩ : QuestionName))) _
    have hsplit : bytes.take 15 ++ [bytes.getD 15 0] = bytes := by
      have hlast : bytes.drop 15 = [bytes.getD 15 0] := by
        rw [List.drop_eq_getElem_cons (by omega), List.drop_eq_nil_of_le (by omega),
          List.getD_eq_getElem?_getD, List.getElem?_eq_getElem (by omega)]
        rfl
      rw [← hlast, List.take_append_drop]
    refine ((finds_skipLabels le_rfl).map _).congr fun r => ⟨?_, ?_⟩
    · rintro ⟨endOff, ⟨labels, hvalid, hlabels, rfl⟩, rfl⟩
      refine ⟨⟨bytes.take 15, bytes.getD 15 0, labels, by simp [hbytes], hvalid⟩, ?_, ?_⟩
      · rw [hencode]
        exact ⟨hfirst.symm, by rw [hsplit]; exact hfront, hlabels⟩
      · rw [Question.encode, List.length_cons, List.length_append, hlength]
        simp only [QuestionName.mk.injEq, true_and]
        omega
    · rintro ⟨q, hq, rfl⟩
      obtain ⟨-, hname, hscope⟩ := (hencode q).mp hq
      have hsame : bytes = q.name ++ [q.suffix] := Option.some_inj.mp
        ((hfound (q.name ++ [q.suffix])).mpr ⟨by rw [List.length_append, q.length_name]; rfl, hname⟩)
      refine ⟨off + 33 + (encodeLabels q.scope).length, ⟨q.scope, q.scope_valid, hscope, rfl⟩, ?_⟩
      rw [Question.encode, List.length_cons, List.length_append, hlength, hsame,
        List.take_left' q.length_name, List.getD_eq_getElem?_getD,
        List.getElem?_append_right (by rw [q.length_name]), q.length_name]
      simp only [QuestionName.mk.injEq, true_and]
      exact ⟨rfl, by omega⟩

end TimeCapsule.Nbns
