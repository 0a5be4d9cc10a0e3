import TimeCapsule.Lib.CodePoint
import TimeCapsule.NtHash.Md4

/-!
# The NT hash of a password

`tc_nt_hash_utf8` reads UTF-8 character by character and feeds MD4 with UTF-16.
-/

namespace TimeCapsule.NtHash

open Lib

/-! ## The program -/

/-- The code point at the offset, and the offset behind it. -/
def utf8NextCodepoint (input : Bytes) (offset : Nat) : Option (UInt32 × Nat) :=
  if input.length ≤ offset then none
  else
    let c0 := input.getD offset 0
    let c1 := input.getD (offset + 1) 0
    let c2 := input.getD (offset + 2) 0
    let c3 := input.getD (offset + 3) 0
    if c0 < 0x80 then some (c0.toUInt32, offset + 1)
    else if 0xc2 ≤ c0 ∧ c0 ≤ 0xdf then
      if input.length ≤ offset + 1 then none
      else if c1 &&& 0xc0 ≠ 0x80 then none
      else some ((c0 &&& 0x1f).toUInt32 <<< 6 ||| (c1 &&& 0x3f).toUInt32, offset + 2)
    else if 0xe0 ≤ c0 ∧ c0 ≤ 0xef then
      if input.length ≤ offset + 2 then none
      else if c1 &&& 0xc0 ≠ 0x80 ∨ c2 &&& 0xc0 ≠ 0x80 then none
      else if c0 = 0xe0 ∧ c1 < 0xa0 ∨ c0 = 0xed ∧ 0xa0 ≤ c1 then none
      else
        let cp := (c0 &&& 0x0f).toUInt32 <<< 12 ||| (c1 &&& 0x3f).toUInt32 <<< 6 |||
          (c2 &&& 0x3f).toUInt32
        if 0xd800 ≤ cp ∧ cp ≤ 0xdfff then none else some (cp, offset + 3)
    else if 0xf0 ≤ c0 ∧ c0 ≤ 0xf4 then
      if input.length ≤ offset + 3 then none
      else if c1 &&& 0xc0 ≠ 0x80 ∨ c2 &&& 0xc0 ≠ 0x80 ∨ c3 &&& 0xc0 ≠ 0x80 then none
      else if c0 = 0xf0 ∧ c1 < 0x90 ∨ c0 = 0xf4 ∧ 0x90 ≤ c1 then none
      else
        let cp := (c0 &&& 0x07).toUInt32 <<< 18 ||| (c1 &&& 0x3f).toUInt32 <<< 12 |||
          (c2 &&& 0x3f).toUInt32 <<< 6 ||| (c3 &&& 0x3f).toUInt32
        if 0x10ffff < cp then none else some (cp, offset + 4)
    else none

def md4UpdateUtf16leUnit (ctx : Md4Ctx) (unit : UInt16) : Md4Ctx :=
  md4Update ctx [(unit &&& 0xff).toUInt8, (unit >>> 8 &&& 0xff).toUInt8]

/-- The body of the loop, behind a code point. -/
def md4UpdateCodepoint (ctx : Md4Ctx) (cp : UInt32) : Md4Ctx :=
  if cp ≤ 0xffff then md4UpdateUtf16leUnit ctx cp.toUInt16
  else
    let shifted := cp - 0x10000
    let high := ((0xd800 : UInt32) + (shifted >>> 10)).toUInt16
    let low := ((0xdc00 : UInt32) + (shifted &&& 0x3ff)).toUInt16
    md4UpdateUtf16leUnit (md4UpdateUtf16leUnit ctx high) low

/-- The loop of `tc_nt_hash_utf8`; a code point takes at least one byte. -/
def ntHashLoop (input : Bytes) : (fuel offset : Nat) → Md4Ctx → Option Md4Ctx
  | 0, _, ctx => some ctx
  | fuel + 1, offset, ctx =>
      if input.length ≤ offset then some ctx
      else (utf8NextCodepoint input offset).bind fun next =>
        ntHashLoop input fuel next.2 (md4UpdateCodepoint ctx next.1)

/-- The digest; the context is not initialised before. -/
def ntHashUtf8 (ctx : Md4Ctx) (input : Bytes) : Option Bytes :=
  (ntHashLoop input input.length 0 (md4Init ctx)).map md4Final

/-! ## The decoder -/

/-- The bits of `y` behind those of `x`. -/
theorem or_eq_add {x y : UInt32} {k m n : Nat} (hx : x.toNat = 2 ^ k * m) (hy : y.toNat = n)
    (hn : n < 2 ^ k) : (x ||| y).toNat = 2 ^ k * m + n := by
  rw [UInt32.toNat_or, hx, hy, ← Nat.two_pow_add_eq_or_of_lt hn]

theorem toNat_shift {x : UInt32} {s : UInt32} {m k : Nat} (hx : x.toNat = m) (hs : s.toNat % 32 = k)
    (hm : m * 2 ^ k < 2 ^ 32) : (x <<< s).toNat = 2 ^ k * m := by
  rw [UInt32.toNat_shiftLeft, hx, hs, Nat.shiftLeft_eq, Nat.mod_eq_of_lt hm, Nat.mul_comm]

theorem toNat_two (b0 b1 : UInt8) :
    ((b0 &&& 0x1f).toUInt32 <<< 6 ||| (b1 &&& 0x3f).toUInt32).toNat =
      b0.toNat % 32 * 64 + b1.toNat % 64 := by
  have h0 : ((b0 &&& 0x1f).toUInt32).toNat = b0.toNat % 32 := by
    rw [UInt8.toNat_toUInt32, toNat_and_1f]
  have h1 : ((b1 &&& 0x3f).toUInt32).toNat = b1.toNat % 64 := by
    rw [UInt8.toNat_toUInt32, toNat_and_3f]
  rw [or_eq_add (toNat_shift h0 (s := 6) (k := 6) rfl (by omega)) h1 (by omega)]
  omega

theorem toNat_three (b0 b1 b2 : UInt8) :
    ((b0 &&& 0x0f).toUInt32 <<< 12 ||| (b1 &&& 0x3f).toUInt32 <<< 6 ||| (b2 &&& 0x3f).toUInt32).toNat =
      (b0.toNat % 16 * 64 + b1.toNat % 64) * 64 + b2.toNat % 64 := by
  have h0 : ((b0 &&& 0x0f).toUInt32).toNat = b0.toNat % 16 := by
    rw [UInt8.toNat_toUInt32, toNat_and_0f]
  have h1 : ((b1 &&& 0x3f).toUInt32).toNat = b1.toNat % 64 := by
    rw [UInt8.toNat_toUInt32, toNat_and_3f]
  have h2 : ((b2 &&& 0x3f).toUInt32).toNat = b2.toNat % 64 := by
    rw [UInt8.toNat_toUInt32, toNat_and_3f]
  have hfirst := or_eq_add (toNat_shift h0 (s := 12) (k := 12) rfl (by omega))
    (toNat_shift h1 (s := 6) (k := 6) rfl (by omega)) (by omega)
  have hfactor : 2 ^ 12 * (b0.toNat % 16) + 2 ^ 6 * (b1.toNat % 64) =
      2 ^ 6 * (b0.toNat % 16 * 64 + b1.toNat % 64) := by omega
  rw [or_eq_add (hfirst.trans hfactor) h2 (by omega)]
  omega

theorem toNat_four (b0 b1 b2 b3 : UInt8) :
    ((b0 &&& 0x07).toUInt32 <<< 18 ||| (b1 &&& 0x3f).toUInt32 <<< 12 ||| (b2 &&& 0x3f).toUInt32 <<< 6 |||
      (b3 &&& 0x3f).toUInt32).toNat =
      ((b0.toNat % 8 * 64 + b1.toNat % 64) * 64 + b2.toNat % 64) * 64 + b3.toNat % 64 := by
  have h0 : ((b0 &&& 0x07).toUInt32).toNat = b0.toNat % 8 := by
    rw [UInt8.toNat_toUInt32, toNat_and_07]
  have h1 : ((b1 &&& 0x3f).toUInt32).toNat = b1.toNat % 64 := by
    rw [UInt8.toNat_toUInt32, toNat_and_3f]
  have h2 : ((b2 &&& 0x3f).toUInt32).toNat = b2.toNat % 64 := by
    rw [UInt8.toNat_toUInt32, toNat_and_3f]
  have h3 : ((b3 &&& 0x3f).toUInt32).toNat = b3.toNat % 64 := by
    rw [UInt8.toNat_toUInt32, toNat_and_3f]
  have hfirst := or_eq_add (toNat_shift h0 (s := 18) (k := 18) rfl (by omega))
    (toNat_shift h1 (s := 12) (k := 12) rfl (by omega)) (by omega)
  have hfactor : 2 ^ 18 * (b0.toNat % 8) + 2 ^ 12 * (b1.toNat % 64) =
      2 ^ 12 * (b0.toNat % 8 * 64 + b1.toNat % 64) := by omega
  have hsecond := or_eq_add (hfirst.trans hfactor) (toNat_shift h2 (s := 6) (k := 6) rfl (by omega)) (by omega)
  have hfactor' : 2 ^ 12 * (b0.toNat % 8 * 64 + b1.toNat % 64) + 2 ^ 6 * (b2.toNat % 64) =
      2 ^ 6 * ((b0.toNat % 8 * 64 + b1.toNat % 64) * 64 + b2.toNat % 64) := by omega
  rw [or_eq_add (hsecond.trans hfactor') h3 (by omega)]
  omega

section Decoder

variable {input : Bytes} {off off' v : Nat} {cp : UInt32}

theorem drop_eq_getD_cons (h : off < input.length) :
    input.drop off = input.getD off 0 :: input.drop (off + 1) := by
  rw [List.drop_eq_getElem_cons h, List.getD_eq_getElem?_getD, List.getElem?_eq_getElem h]
  rfl

theorem cons_prefix_drop_iff {b : UInt8} {bs : Bytes} : b :: bs <+: input.drop off ↔
    off < input.length ∧ input.getD off 0 = b ∧ bs <+: input.drop (off + 1) := by
  by_cases h : off < input.length
  · rw [drop_eq_getD_cons h, List.cons_prefix_cons, eq_comm]
    exact (and_iff_right h).symm
  · rw [List.drop_eq_nil_of_le (not_lt.mp h), List.prefix_nil]
    simp [h]

/-- What is decoded at an offset, in terms of the bytes there. -/
theorem decodes_at_iff : (∃ bs, Decodes v bs ∧ bs <+: input.drop off ∧ off' = off + bs.length) ↔
    (off < input.length ∧ (Decodes v [input.getD off 0] ∧ off' = off + 1)) ∨
    (off + 1 < input.length ∧ (Decodes v [input.getD off 0, input.getD (off + 1) 0] ∧ off' = off + 2)) ∨
    (off + 2 < input.length ∧ (Decodes v [input.getD off 0, input.getD (off + 1) 0,
      input.getD (off + 2) 0] ∧ off' = off + 3)) ∨
    (off + 3 < input.length ∧ (Decodes v [input.getD off 0, input.getD (off + 1) 0,
      input.getD (off + 2) 0, input.getD (off + 3) 0] ∧ off' = off + 4)) := by
  constructor
  · rintro ⟨bs, hv, hfront, rfl⟩
    match bs, hv, hfront with
    | [b0], hv, h =>
      obtain ⟨h0, rfl, -⟩ := cons_prefix_drop_iff.mp h
      exact .inl ⟨h0, hv, rfl⟩
    | [b0, b1], hv, h =>
      obtain ⟨-, rfl, h1⟩ := cons_prefix_drop_iff.mp h
      obtain ⟨hlt, rfl, -⟩ := cons_prefix_drop_iff.mp h1
      exact .inr (.inl ⟨hlt, hv, rfl⟩)
    | [b0, b1, b2], hv, h =>
      obtain ⟨-, rfl, h1⟩ := cons_prefix_drop_iff.mp h
      obtain ⟨-, rfl, h2⟩ := cons_prefix_drop_iff.mp h1
      obtain ⟨hlt, rfl, -⟩ := cons_prefix_drop_iff.mp h2
      exact .inr (.inr (.inl ⟨hlt, hv, rfl⟩))
    | [b0, b1, b2, b3], hv, h =>
      obtain ⟨-, rfl, h1⟩ := cons_prefix_drop_iff.mp h
      obtain ⟨-, rfl, h2⟩ := cons_prefix_drop_iff.mp h1
      obtain ⟨-, rfl, h3⟩ := cons_prefix_drop_iff.mp h2
      obtain ⟨hlt, rfl, -⟩ := cons_prefix_drop_iff.mp h3
      exact .inr (.inr (.inr ⟨hlt, hv, rfl⟩))
  · have hfront : ∀ {b bs off}, off < input.length → input.getD off 0 = b →
        bs <+: input.drop (off + 1) → b :: bs <+: input.drop off :=
      fun h hb hbs => cons_prefix_drop_iff.mpr ⟨h, hb, hbs⟩
    rintro (⟨h, hv, rfl⟩ | ⟨h, hv, rfl⟩ | ⟨h, hv, rfl⟩ | ⟨h, hv, rfl⟩)
    · exact ⟨_, hv, hfront h rfl List.nil_prefix, rfl⟩
    · exact ⟨_, hv, hfront (by omega) rfl (hfront h rfl List.nil_prefix), rfl⟩
    · exact ⟨_, hv, hfront (by omega) rfl (hfront (by omega) rfl (hfront h rfl List.nil_prefix)), rfl⟩
    · exact ⟨_, hv, hfront (by omega) rfl (hfront (by omega) rfl (hfront (by omega) rfl
        (hfront h rfl List.nil_prefix))), rfl⟩

/-- The code points that are found are the well-formed sequences. -/
theorem utf8NextCodepoint_iff : utf8NextCodepoint input off = some (cp, off') ↔
    ∃ bs, Decodes cp.toNat bs ∧ bs <+: input.drop off ∧ off' = off + bs.length := by
  rw [decodes_at_iff]
  unfold utf8NextCodepoint
  simp only [Decodes]
  generalize input.getD off 0 = b0, input.getD (off + 1) 0 = b1, input.getD (off + 2) 0 = b2,
    input.getD (off + 3) 0 = b3
  simp only [ne_eq, continuation_iff]
  simp only [UInt8.lt_iff_toNat_lt, UInt8.le_iff_toNat_le, ← UInt8.toNat_inj, UInt32.lt_iff_toNat_lt,
    UInt32.le_iff_toNat_le, toNat_three, toNat_four, UInt8.reduceToNat, UInt32.reduceToNat]
  have hsome : ∀ (x : UInt32) (n : Nat), some (x, off + n) = some (cp, off') ↔
      cp.toNat = x.toNat ∧ off' = off + n := by
    intro x n
    rw [Option.some.injEq, Prod.mk.injEq, ← UInt32.toNat_inj, eq_comm, @eq_comm _ (off + n)]
  constructor
  · intro h
    split_ifs at h
    · rw [hsome, UInt8.toNat_toUInt32] at h
      exact .inl ⟨by omega, ⟨by omega, h.1⟩, h.2⟩
    · rw [hsome, toNat_two] at h
      exact .inr (.inl ⟨by omega, ⟨by omega, by omega, by omega, by omega, h.1⟩, h.2⟩)
    · rw [hsome, toNat_three] at h
      refine .inr (.inr (.inl ⟨by omega, ⟨by omega, by omega, ?_, ?_, ?_, ?_, ?_, ?_, h.1⟩, h.2⟩)) <;>
        omega
    · rw [hsome, toNat_four] at h
      refine .inr (.inr (.inr ⟨by omega, ⟨by omega, by omega, ?_, ?_, ?_, ?_, ?_, ?_, ?_, ?_, h.1⟩,
        h.2⟩)) <;> omega
  · rintro (⟨hlt, h, hoff⟩ | ⟨hlt, h, hoff⟩ | ⟨hlt, h, hoff⟩ | ⟨hlt, h, hoff⟩)
    · rw [if_neg (by omega), if_pos h.1, hsome, UInt8.toNat_toUInt32]
      exact ⟨h.2, hoff⟩
    · rw [if_neg (by omega), if_neg (by omega), if_pos (by omega), if_neg (by omega), if_neg (by omega),
        hsome, toNat_two]
      exact ⟨by omega, hoff⟩
    · rw [if_neg (by omega), if_neg (by omega), if_neg (by omega), if_pos (by omega), if_neg (by omega),
        if_neg (by omega), if_neg (by omega), if_neg (by omega), hsome, toNat_three]
      exact ⟨by omega, hoff⟩
    · rw [if_neg (by omega), if_neg (by omega), if_neg (by omega), if_neg (by omega), if_pos (by omega),
        if_neg (by omega), if_neg (by omega), if_neg (by omega), if_neg (by omega), hsome, toNat_four]
      exact ⟨by omega, hoff⟩

end Decoder

/-! ## The hash -/

/-- The UTF-16 of a character, the low-order byte of each unit first. -/
def utf16le (c : Char) : Bytes :=
  let units : List Nat :=
    if c.val.toNat ≤ 0xffff then [c.val.toNat]
    else [0xd800 + (c.val.toNat - 0x10000) / 1024, 0xdc00 + (c.val.toNat - 0x10000) % 1024]
  units.flatMap fun unit => [UInt8.ofNat unit, UInt8.ofNat (unit / 256)]

theorem unit_bytes {unit : UInt16} {n : Nat} (h : unit.toNat = n) :
    [(unit &&& 0xff).toUInt8, (unit >>> 8 &&& 0xff).toUInt8] = [UInt8.ofNat n, UInt8.ofNat (n / 256)] := by
  have hmask : (0xff : UInt16).toNat = 2 ^ 8 - 1 := rfl
  have hshift : (8 : UInt16).toNat % 16 = 8 := rfl
  subst h
  congr 1
  · rw [← UInt8.toNat_inj, UInt16.toNat_toUInt8, UInt16.toNat_and, hmask,
      Nat.and_two_pow_sub_one_eq_mod, UInt8.toNat_ofNat']
    omega
  congr 1
  rw [← UInt8.toNat_inj, UInt16.toNat_toUInt8, UInt16.toNat_and, hmask, Nat.and_two_pow_sub_one_eq_mod,
    UInt16.toNat_shiftRight, hshift, Nat.shiftRight_eq_div_pow, UInt8.toNat_ofNat']
  omega

theorem Fed.updateCodepoint {ctx : Md4Ctx} {bytes : Bytes} (h : Fed ctx bytes) (c : Char) :
    Fed (md4UpdateCodepoint ctx c.val) (bytes ++ utf16le c) := by
  have hlt : c.val.toNat < 0x110000 := by
    rcases c.valid with hvalid | hvalid <;> omega
  unfold md4UpdateCodepoint utf16le md4UpdateUtf16leUnit
  dsimp only
  have hle : c.val ≤ 0xffff ↔ c.val.toNat ≤ 0xffff := UInt32.le_iff_toNat_le
  by_cases hsmall : c.val.toNat ≤ 0xffff
  · rw [if_pos (hle.mpr hsmall), if_pos hsmall]
    have hunit : c.val.toUInt16.toNat = c.val.toNat := by
      rw [UInt32.toNat_toUInt16]
      omega
    rw [unit_bytes hunit]
    exact h.update _
  · rw [if_neg (hle.not.mpr hsmall), if_neg hsmall]
    have hshifted : (c.val - 0x10000).toNat = c.val.toNat - 0x10000 :=
      UInt32.toNat_sub_of_le _ _ (UInt32.le_iff_toNat_le.mpr (by
        show 0x10000 ≤ c.val.toNat
        omega))
    have hhigh : ((0xd800 : UInt32) + ((c.val - 0x10000) >>> 10)).toUInt16.toNat =
        0xd800 + (c.val.toNat - 0x10000) / 1024 := by
      rw [UInt32.toNat_toUInt16, UInt32.toNat_add, UInt32.toNat_shiftRight, hshifted,
        show (10 : UInt32).toNat % 32 = 10 from rfl, Nat.shiftRight_eq_div_pow,
        show (0xd800 : UInt32).toNat = 0xd800 from rfl]
      omega
    have hlow : ((0xdc00 : UInt32) + ((c.val - 0x10000) &&& 0x3ff)).toUInt16.toNat =
        0xdc00 + (c.val.toNat - 0x10000) % 1024 := by
      rw [UInt32.toNat_toUInt16, UInt32.toNat_add, UInt32.toNat_and, hshifted,
        show (0x3ff : UInt32).toNat = 2 ^ 10 - 1 from rfl, Nat.and_two_pow_sub_one_eq_mod,
        show (0xdc00 : UInt32).toNat = 0xdc00 from rfl]
      omega
    rw [unit_bytes hhigh, unit_bytes hlow, List.flatMap_cons, List.flatMap_cons, List.flatMap_nil,
      List.append_nil, ← List.append_assoc]
    exact (h.update _).update _

section Loop

variable {input bytes : Bytes} {ctx ctx' : Md4Ctx} {fuel off : Nat}

/-- The loop reads the characters that are there. -/
theorem ntHashLoop_chars {chars : List Char} (hfuel : input.length - off ≤ fuel) (hfed : Fed ctx bytes)
    (h : chars.flatMap String.utf8EncodeChar = input.drop off) :
    ∃ after, ntHashLoop input fuel off ctx = some after ∧ Fed after (bytes ++ chars.flatMap utf16le) := by
  induction fuel generalizing off ctx bytes chars with
  | zero =>
    rw [List.drop_eq_nil_of_le (by omega)] at h
    cases chars with
    | nil => exact ⟨ctx, rfl, by rwa [List.flatMap_nil, List.append_nil]⟩
    | cons c rest =>
      rw [List.flatMap_cons] at h
      exact absurd (List.append_eq_nil_iff.mp h).1 String.utf8EncodeChar_ne_nil
  | succ fuel ih =>
    rw [ntHashLoop]
    cases chars with
    | nil =>
      rw [if_pos (List.drop_eq_nil_iff.mp h.symm)]
      exact ⟨ctx, rfl, by rwa [List.flatMap_nil, List.append_nil]⟩
    | cons c rest =>
      have hpos : 0 < (String.utf8EncodeChar c).length := by
        rw [String.length_utf8EncodeChar]
        exact c.utf8Size_pos
      rw [List.flatMap_cons] at h
      have hlength := congrArg List.length h
      rw [List.length_append, List.length_drop] at hlength
      have hnext : utf8NextCodepoint input off = some (c.val, off + (String.utf8EncodeChar c).length) :=
        utf8NextCodepoint_iff.mpr ⟨_, decodes_iff.mpr ⟨c, rfl, rfl⟩, h ▸ List.prefix_append _ _, rfl⟩
      rw [if_neg (by omega), hnext, Option.bind_some, List.flatMap_cons, ← List.append_assoc]
      refine ih (by omega) (hfed.updateCodepoint c) ?_
      rw [← List.drop_drop, ← h, List.drop_left]

/-- The loop gets to the end over characters only. -/
theorem exists_chars_of_ntHashLoop (hfuel : input.length - off ≤ fuel)
    (h : ntHashLoop input fuel off ctx = some ctx') :
    ∃ chars : List Char, chars.flatMap String.utf8EncodeChar = input.drop off := by
  induction fuel generalizing off ctx with
  | zero => exact ⟨[], (List.drop_eq_nil_of_le (by omega)).symm⟩
  | succ fuel ih =>
    rw [ntHashLoop] at h
    split at h
    · next hend => exact ⟨[], (List.drop_eq_nil_of_le hend).symm⟩
    obtain ⟨⟨cp, off'⟩, hnext, hloop⟩ := Option.bind_eq_some_iff.mp h
    obtain ⟨bs, hbs, ⟨tail, htail⟩, rfl⟩ := utf8NextCodepoint_iff.mp hnext
    obtain ⟨c, -, rfl⟩ := decodes_iff.mp hbs
    have hpos : 0 < (String.utf8EncodeChar c).length := by
      rw [String.length_utf8EncodeChar]
      exact c.utf8Size_pos
    obtain ⟨rest, hrest⟩ := ih (by omega) hloop
    refine ⟨c :: rest, ?_⟩
    rw [List.flatMap_cons, hrest, ← htail, ← List.drop_drop, ← htail, List.drop_left]

end Loop

/-- The digest does not depend on the pieces in which a message arrives, and the NT hash of a password
is defined for UTF-8 only and is then the MD4 of its UTF-16. -/
theorem md4_pieces_and_nt_hash :
    (∀ (ctx : Md4Ctx) (pieces : List Bytes), ctx.block.length = 64 →
      md4Final (pieces.foldl md4Update (md4Init ctx)) = md4 pieces.flatten) ∧
    ∀ (ctx : Md4Ctx) (input digest : Bytes), ctx.block.length = 64 →
      (ntHashUtf8 ctx input = some digest ↔ ∃ chars : List Char,
        chars.flatMap String.utf8EncodeChar = input ∧ digest = md4 (chars.flatMap utf16le)) := by
  refine ⟨fun ctx pieces h => md4Final_updates h pieces, fun ctx input digest h => ?_⟩
  have hloop : ∀ chars : List Char, chars.flatMap String.utf8EncodeChar = input →
      ntHashUtf8 ctx input = some (md4 (chars.flatMap utf16le)) := by
    intro chars hchars
    obtain ⟨after, hafter, hfed⟩ := @ntHashLoop_chars input [] (md4Init ctx) input.length 0 chars (by omega)
      (fed_md4Init h) hchars
    rw [ntHashUtf8, hafter, Option.map_some, hfed.final, List.nil_append]
  constructor
  · intro hdigest
    obtain ⟨after, hafter, -⟩ := Option.map_eq_some_iff.mp hdigest
    obtain ⟨chars, hchars⟩ := exists_chars_of_ntHashLoop (by omega) hafter
    exact ⟨chars, hchars, Option.some.inj (hdigest.symm.trans (hloop chars hchars))⟩
  · rintro ⟨chars, hchars, rfl⟩
    exact hloop chars hchars

def freshCtx : Md4Ctx := ⟨initialWords, 0, zeros 64, 0⟩

/-- `abc` in two pieces, and the password `é`. -/
theorem abc_and_accented_password :
    md4Final ([ascii "ab", ascii "c"].foldl md4Update (md4Init freshCtx)) = md4 (ascii "abc") ∧
      ntHashUtf8 freshCtx [0xc3, 0xa9] = some (md4 [0xe9, 0x00]) :=
  ⟨md4_pieces_and_nt_hash.1 freshCtx [ascii "ab", ascii "c"] rfl,
    (md4_pieces_and_nt_hash.2 freshCtx [0xc3, 0xa9] _ rfl).mpr ⟨['é'], by decide, congrArg md4 (by decide)⟩⟩

end TimeCapsule.NtHash
