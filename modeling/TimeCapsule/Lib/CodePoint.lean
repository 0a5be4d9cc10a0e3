import TimeCapsule.Lib.Utf8

/-!
# UTF-8 sequences and their code points

The well-formed sequences of bytes by their values, which are the encodings of the characters.
-/

namespace TimeCapsule.Lib

/-- The value of the well-formed sequences of bytes. -/
def Decodes (v : Nat) : Bytes → Prop
  | [b0] => b0.toNat < 0x80 ∧ v = b0.toNat
  | [b0, b1] => 0xc2 ≤ b0.toNat ∧ b0.toNat ≤ 0xdf ∧ 0x80 ≤ b1.toNat ∧ b1.toNat < 0xc0 ∧
      v = b0.toNat % 32 * 64 + b1.toNat % 64
  | [b0, b1, b2] => 0xe0 ≤ b0.toNat ∧ b0.toNat ≤ 0xef ∧ 0x80 ≤ b1.toNat ∧ b1.toNat < 0xc0 ∧
      0x80 ≤ b2.toNat ∧ b2.toNat < 0xc0 ∧ ¬(b0.toNat = 0xe0 ∧ b1.toNat < 0xa0) ∧
      ¬(b0.toNat = 0xed ∧ 0xa0 ≤ b1.toNat) ∧
      v = (b0.toNat % 16 * 64 + b1.toNat % 64) * 64 + b2.toNat % 64
  | [b0, b1, b2, b3] => 0xf0 ≤ b0.toNat ∧ b0.toNat ≤ 0xf4 ∧ 0x80 ≤ b1.toNat ∧ b1.toNat < 0xc0 ∧
      0x80 ≤ b2.toNat ∧ b2.toNat < 0xc0 ∧ 0x80 ≤ b3.toNat ∧ b3.toNat < 0xc0 ∧
      ¬(b0.toNat = 0xf0 ∧ b1.toNat < 0x90) ∧ ¬(b0.toNat = 0xf4 ∧ 0x90 ≤ b1.toNat) ∧
      v = ((b0.toNat % 8 * 64 + b1.toNat % 64) * 64 + b2.toNat % 64) * 64 + b3.toNat % 64
  | _ => False

theorem exists_char {v : Nat} (h : v < 0xd800 ∨ 0xdfff < v ∧ v < 0x110000) :
    ∃ c : Char, c.val.toNat = v := by
  refine ⟨Char.ofNat v, ?_⟩
  rw [Char.ofNat, dif_pos h]
  rfl

theorem ofNat_eq {n : Nat} {b : UInt8} (h : n = b.toNat) : UInt8.ofNat n = b := by
  rw [h, UInt8.ofNat_toNat]

/-- The well-formed sequences are the encodings of the characters. -/
theorem decodes_iff {v : Nat} {bs : Bytes} :
    Decodes v bs ↔ ∃ c : Char, c.val.toNat = v ∧ String.utf8EncodeChar c = bs := by
  constructor
  · intro h
    have hvalid : v < 0xd800 ∨ 0xdfff < v ∧ v < 0x110000 := by
      unfold Decodes at h
      split at h
      all_goals first | omega | exact h.elim
    obtain ⟨c, hc⟩ := exists_char hvalid
    refine ⟨c, hc, ?_⟩
    unfold String.utf8EncodeChar
    dsimp only
    rw [hc]
    unfold Decodes at h
    split at h
    · next b0 => rw [if_pos (by omega), ofNat_eq (b := b0) (by omega)]
    · next b0 b1 =>
      rw [if_neg (by omega), if_pos (by omega), ofNat_eq (b := b0) (by omega),
        ofNat_eq (b := b1) (by omega)]
    · next b0 b1 b2 =>
      rw [if_neg (by omega), if_neg (by omega), if_pos (by omega), ofNat_eq (b := b0) (by omega),
        ofNat_eq (b := b1) (by omega), ofNat_eq (b := b2) (by omega)]
    · next b0 b1 b2 b3 =>
      rw [if_neg (by omega), if_neg (by omega), if_neg (by omega), ofNat_eq (b := b0) (by omega),
        ofNat_eq (b := b1) (by omega), ofNat_eq (b := b2) (by omega), ofNat_eq (b := b3) (by omega)]
    · exact h.elim
  · rintro ⟨c, rfl, rfl⟩
    have hvalid : c.val.toNat < 0xd800 ∨ 0xdfff < c.val.toNat ∧ c.val.toNat < 0x110000 := c.valid
    unfold String.utf8EncodeChar
    dsimp only
    generalize c.val.toNat = v at hvalid
    split
    · simp only [Decodes, UInt8.toNat_ofNat']
      omega
    split
    · simp only [Decodes, UInt8.toNat_ofNat']
      omega
    split
    · simp only [Decodes, UInt8.toNat_ofNat']
      omega
    · simp only [Decodes, UInt8.toNat_ofNat']
      omega

/-! ## The bits of the bytes -/

section Bits

variable (b : UInt8)

theorem toNat_and_1f : (b &&& 0x1f).toNat = b.toNat % 32 := by
  rw [UInt8.toNat_and]
  exact Nat.and_two_pow_sub_one_eq_mod b.toNat 5

theorem toNat_and_0f : (b &&& 0x0f).toNat = b.toNat % 16 := by
  rw [UInt8.toNat_and]
  exact Nat.and_two_pow_sub_one_eq_mod b.toNat 4

theorem toNat_and_07 : (b &&& 0x07).toNat = b.toNat % 8 := by
  rw [UInt8.toNat_and]
  exact Nat.and_two_pow_sub_one_eq_mod b.toNat 3

theorem toNat_and_3f : (b &&& 0x3f).toNat = b.toNat % 64 := by
  rw [UInt8.toNat_and]
  exact Nat.and_two_pow_sub_one_eq_mod b.toNat 6

theorem continuation_iff : b &&& 0xc0 = 0x80 ↔ 0x80 ≤ b.toNat ∧ b.toNat < 0xc0 := by
  have hall : ∀ n < 256, UInt8.ofNat n &&& 0xc0 = 0x80 ↔ 0x80 ≤ n ∧ n < 0xc0 := by decide +kernel
  have hb := hall b.toNat b.toNat_lt
  rwa [UInt8.ofNat_toNat] at hb

end Bits

end TimeCapsule.Lib
