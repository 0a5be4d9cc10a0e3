import Mathlib.Data.List.DropRight
import TimeCapsule.Lib.Bytes

/-!
# UTF-8 texts as byte strings

The encodings of some characters one after another.  A text can be cut before a byte that begins a
character, and nowhere else.
-/

namespace TimeCapsule.Lib

def ValidUtf8 (text : Bytes) : Prop := ∃ chars : List Char, chars.flatMap String.utf8EncodeChar = text

section Rules

variable {a b text : Bytes} {c : Char} {byte : UInt8} {n : Nat}

theorem validUtf8_nil : ValidUtf8 [] := ⟨[], rfl⟩

theorem ValidUtf8.append (ha : ValidUtf8 a) (hb : ValidUtf8 b) : ValidUtf8 (a ++ b) := by
  obtain ⟨chars, rfl⟩ := ha
  obtain ⟨chars', rfl⟩ := hb
  exact ⟨chars ++ chars', List.flatMap_append⟩

theorem validUtf8_encode (c : Char) : ValidUtf8 (String.utf8EncodeChar c) :=
  ⟨[c], List.flatMap_singleton _ _⟩

/-- No encoding of a character begins with another one. -/
theorem encode_append_inj {d : Char} (h : String.utf8EncodeChar c ++ a = String.utf8EncodeChar d ++ b) :
    c = d ∧ a = b := by
  have hchar : c = d := by
    have hbytes := congrArg (fun l : Bytes => l.toByteArray.utf8DecodeChar? 0) h
    simp only [List.toByteArray_append, ByteArray.utf8DecodeChar?_utf8EncodeChar_append,
      Option.some.injEq] at hbytes
    exact hbytes
  rw [hchar] at h
  exact ⟨hchar, List.append_cancel_left h⟩

theorem ValidUtf8.cancel (ha : ValidUtf8 a) (h : ValidUtf8 (a ++ b)) : ValidUtf8 b := by
  obtain ⟨chars, rfl⟩ := ha
  obtain ⟨chars', h⟩ := h
  induction chars generalizing chars' with
  | nil => exact ⟨chars', h⟩
  | cons c rest ih =>
    cases chars' with
    | nil =>
      rw [List.flatMap_cons, List.append_assoc, List.flatMap_nil] at h
      exact absurd (List.append_eq_nil_iff.mp h.symm).1 String.utf8EncodeChar_ne_nil
    | cons d rest' =>
      rw [List.flatMap_cons, List.flatMap_cons, List.append_assoc] at h
      exact ih rest' (encode_append_inj h).2

/-- A text that is not empty begins with the first byte of a character. -/
theorem ValidUtf8.head_first (h : ValidUtf8 text) (hhead : text.head? = some byte) :
    byte.IsUTF8FirstByte := by
  obtain ⟨chars, rfl⟩ := h
  cases chars with
  | nil => cases hhead
  | cons c rest =>
    obtain ⟨first, others, hencode⟩ := List.exists_cons_of_ne_nil (String.utf8EncodeChar_ne_nil (c := c))
    have hfirst : first.IsUTF8FirstByte := by
      have hzero := @UInt8.isUTF8FirstByte_getElem_utf8EncodeChar c 0 (by simp [c.utf8Size_pos])
      simpa [hencode] using hzero
    rw [List.flatMap_cons, hencode] at hhead
    exact Option.some.inj hhead ▸ hfirst

/-- A text can be cut before the first byte of a character. -/
theorem ValidUtf8.split (h : ValidUtf8 (a ++ b))
    (hb : ∀ byte, b.head? = some byte → byte.IsUTF8FirstByte) : ValidUtf8 a ∧ ValidUtf8 b := by
  obtain ⟨chars, h⟩ := h
  induction chars generalizing a with
  | nil =>
    obtain ⟨rfl, rfl⟩ := List.append_eq_nil_iff.mp h.symm
    exact ⟨validUtf8_nil, validUtf8_nil⟩
  | cons c rest ih =>
    rw [List.flatMap_cons, List.append_eq_append_iff] at h
    rcases h with ⟨tail, rfl, hrest⟩ | ⟨tail, hencode, hrest⟩
    · obtain ⟨htail, hb⟩ := ih hrest
      exact ⟨(validUtf8_encode c).append htail, hb⟩
    · cases tail with
      | nil =>
        rw [List.append_nil] at hencode
        rw [List.nil_append] at hrest
        exact ⟨hencode ▸ validUtf8_encode c, hrest ▸ ⟨rest, rfl⟩⟩
      | cons byte tail =>
        have hfirst := hb byte (by rw [hrest]; rfl)
        have hlt : a.length < (String.utf8EncodeChar c).length := by rw [hencode]; simp
        have hget : (String.utf8EncodeChar c)[a.length] = byte := by simp [hencode]
        have hzero := (@UInt8.isUTF8FirstByte_getElem_utf8EncodeChar c a.length hlt).mp (hget ▸ hfirst)
        obtain rfl := List.length_eq_zero_iff.mp hzero
        refine ⟨validUtf8_nil, c :: rest, ?_⟩
        rw [List.flatMap_cons, hencode, hrest, List.nil_append]

theorem validUtf8_take_iff (h : ValidUtf8 text) :
    ValidUtf8 (text.take n) ↔ ∀ byte, text[n]? = some byte → byte.IsUTF8FirstByte := by
  have hhead : (text.drop n).head? = text[n]? := List.head?_drop
  constructor
  · intro htake byte hbyte
    have hdrop : ValidUtf8 (text.drop n) := htake.cancel (by rwa [List.take_append_drop])
    exact hdrop.head_first (hhead.trans hbyte)
  · intro hfirst
    refine (ValidUtf8.split (b := text.drop n) (by rwa [List.take_append_drop]) ?_).1
    intro byte hbyte
    exact hfirst byte (hhead.symm.trans hbyte)

/-! ## ASCII -/

/-- An ASCII byte is a character. -/
theorem validUtf8_singleton (h : byte < 0x80) : ValidUtf8 [byte] := by
  rw [UInt8.lt_iff_toNat_lt] at h
  have h128 : (0x80 : UInt8).toNat = 128 := rfl
  have hvalid : byte.toNat.isValidChar := Or.inl (by omega)
  have hval : (Char.ofNat byte.toNat).val.toNat = byte.toNat := by
    rw [Char.ofNat, dif_pos hvalid]
    rfl
  have hsize : (Char.ofNat byte.toNat).utf8Size = 1 := by
    rw [Char.utf8Size_eq_one_iff, UInt32.le_iff_toNat_le, hval]
    show byte.toNat ≤ 127
    omega
  refine ⟨[Char.ofNat byte.toNat], ?_⟩
  rw [List.flatMap_singleton, String.utf8EncodeChar_eq_singleton hsize]
  congr 1
  rw [← UInt8.toNat_inj, UInt32.toNat_toUInt8, hval]
  omega

theorem isUTF8FirstByte_of_lt (h : byte < 0x80) : byte.IsUTF8FirstByte :=
  (validUtf8_singleton h).head_first rfl

theorem validUtf8_of_ascii (h : ∀ byte ∈ text, byte < 0x80) : ValidUtf8 text := by
  induction text with
  | nil => exact validUtf8_nil
  | cons byte rest ih =>
    exact (validUtf8_singleton (h byte List.mem_cons_self)).append
      (ih fun byte hbyte => h byte (List.mem_cons_of_mem _ hbyte))

/-- An encoding is an ASCII byte, or has none. -/
theorem encode_cases (c : Char) :
    (∃ byte, byte < 0x80 ∧ String.utf8EncodeChar c = [byte]) ∨
      ∀ byte ∈ String.utf8EncodeChar c, 0x80 ≤ byte := by
  have hor : ∀ x y : UInt8, 0x80 ≤ y → 0x80 ≤ x ||| y := by
    intro x y hy
    rw [UInt8.le_iff_toNat_le] at hy ⊢
    rw [UInt8.toNat_or]
    exact hy.trans Nat.right_le_or
  rcases c.utf8Size_eq with h | h | h | h
  · refine .inl ⟨c.val.toUInt8, ?_, String.utf8EncodeChar_eq_singleton h⟩
    rw [Char.utf8Size_eq_one_iff, UInt32.le_iff_toNat_le] at h
    have h127 : (127 : UInt32).toNat = 127 := rfl
    have h128 : (0x80 : UInt8).toNat = 128 := rfl
    rw [UInt8.lt_iff_toNat_lt, UInt32.toNat_toUInt8]
    omega
  · right
    rw [String.utf8EncodeChar_eq_cons_cons h]
    simp only [List.forall_mem_cons, List.not_mem_nil, false_imp_iff, implies_true, and_true]
    exact ⟨hor _ _ (by decide), hor _ _ (by decide)⟩
  · right
    rw [String.utf8EncodeChar_eq_cons_cons_cons h]
    simp only [List.forall_mem_cons, List.not_mem_nil, false_imp_iff, implies_true, and_true]
    exact ⟨hor _ _ (by decide), hor _ _ (by decide), hor _ _ (by decide)⟩
  · right
    rw [String.utf8EncodeChar_eq_cons_cons_cons_cons h]
    simp only [List.forall_mem_cons, List.not_mem_nil, false_imp_iff, implies_true, and_true]
    exact ⟨hor _ _ (by decide), hor _ _ (by decide), hor _ _ (by decide), hor _ _ (by decide)⟩

/-- A map that only turns ASCII bytes into ASCII bytes. -/
theorem ValidUtf8.map {f : UInt8 → UInt8} (h : ValidUtf8 text)
    (hf : ∀ byte, byte < 0x80 → f byte < 0x80) (hkeep : ∀ byte, 0x80 ≤ byte → f byte = byte) :
    ValidUtf8 (text.map f) := by
  obtain ⟨chars, rfl⟩ := h
  induction chars with
  | nil => exact validUtf8_nil
  | cons c rest ih =>
    rw [List.flatMap_cons, List.map_append]
    refine ValidUtf8.append ?_ ih
    obtain ⟨byte, hbyte, hencode⟩ | hhigh := encode_cases c
    · rw [hencode]
      exact validUtf8_singleton (hf byte hbyte)
    · rw [List.map_congr_left fun byte hbyte => hkeep byte (hhigh byte hbyte), List.map_id'']
      · exact validUtf8_encode c
      · exact fun _ => rfl

/-- What is trimmed from both ends are ASCII bytes. -/
theorem ValidUtf8.dropWhile {p : UInt8 → Bool} (h : ValidUtf8 text)
    (hp : ∀ byte, p byte = true → byte < 0x80) : ValidUtf8 (text.dropWhile p) := by
  refine ValidUtf8.cancel (a := text.takeWhile p) (validUtf8_of_ascii fun byte hbyte => ?_) ?_
  · exact hp byte (List.mem_takeWhile_imp hbyte)
  · rwa [List.takeWhile_append_dropWhile]

theorem ValidUtf8.rdropWhile {p : UInt8 → Bool} (h : ValidUtf8 text)
    (hp : ∀ byte, p byte = true → byte < 0x80) : ValidUtf8 (text.rdropWhile p) := by
  refine (ValidUtf8.split (b := text.rtakeWhile p) (by rwa [List.rdropWhile_append_rtakeWhile]) ?_).1
  intro byte hbyte
  exact isUTF8FirstByte_of_lt (hp byte (List.mem_rtakeWhile_imp (List.mem_of_head? hbyte)))

end Rules

end TimeCapsule.Lib
