import TimeCapsule.Lib.Checksum

/-!
# Gzip codecs

A gzip implementation as a pair of functions, what it means for the pair to be correct, and a
correct implementation that stores the data in uncompressed deflate blocks.
-/

namespace TimeCapsule.Lib

/-- What `zlib.decompressobj(16 + MAX_WBITS)` has after `decompress` and `flush`: the output and
the input behind the end of the member. -/
structure Inflated where
  output : Bytes
  unused : Bytes
deriving DecidableEq, Repr

/-- A gzip implementation; `decompress` is `none` where zlib raises an error. -/
structure GzipCodec where
  decompress : Bytes → Option Inflated
  compress : Bytes → Bytes

/-- The first byte of a member that is neither magic nor method: its reserved bits are zero. -/
def HasGzipHeader (z : Bytes) : Prop :=
  ∃ flags rest, z = 0x1f :: 0x8b :: 0x08 :: flags :: rest ∧ flags &&& 0xE0 = 0

/-- Compressed data is one complete member: it is found again in front of any other bytes. -/
structure GzipCodec.Lawful (codec : GzipCodec) : Prop where
  header : ∀ x, HasGzipHeader (codec.compress x)
  decompress_compress : ∀ x rest, codec.decompress (codec.compress x ++ rest) = some ⟨x, rest⟩

/-! ## Stored deflate blocks -/

namespace Stored

def le16 (n : Nat) : Bytes := [UInt8.ofNat n, UInt8.ofNat (n / 256)]

def le32 (n : Nat) : Bytes := le16 n ++ le16 (n / 65536)

/-- One stored block: final bit, length, complemented length, data. -/
def block (final : UInt8) (data : Bytes) : Bytes :=
  final :: (le16 data.length ++ le16 (65535 - data.length)) ++ data

/-- Blocks of at most 65535 bytes, closed by an empty final one. -/
def deflate : (fuel : Nat) → Bytes → Bytes
  | 0, _ => block 1 []
  | _ + 1, [] => block 1 []
  | fuel + 1, x :: xs =>
      block 0 ((x :: xs).take 65535) ++ deflate fuel ((x :: xs).drop 65535)

def inflate : (fuel : Nat) → Bytes → Option Inflated
  | 0, _ => none
  | fuel + 1, final :: l0 :: l1 :: n0 :: n1 :: rest =>
      let len := l0.toNat + 256 * l1.toNat
      if len + (n0.toNat + 256 * n1.toNat) = 65535 ∧ len ≤ rest.length then
        if final = 1 then some ⟨rest.take len, rest.drop len⟩
        else if final = 0 then
          (inflate fuel (rest.drop len)).map fun r => ⟨rest.take len ++ r.output, r.unused⟩
        else none
      else none
  | _ + 1, _ => none

def trailer (x : Bytes) : Bytes := le32 (crc32 x) ++ le32 x.length

def gzip (x : Bytes) : Bytes :=
  [0x1f, 0x8b, 0x08, 0, 0, 0, 0, 0, 0, 0xff] ++ deflate x.length x ++ trailer x

def gunzip : Bytes → Option Inflated
  | 0x1f :: 0x8b :: 0x08 :: 0 :: _ :: _ :: _ :: _ :: _ :: _ :: rest =>
      (inflate rest.length rest).bind fun r =>
        if r.unused.take 8 = trailer r.output then some ⟨r.output, r.unused.drop 8⟩ else none
  | _ => none

theorem inflate_block {final : UInt8} {data rest : Bytes} {fuel : Nat}
    (hlen : data.length ≤ 65535) :
    inflate (fuel + 1) (block final data ++ rest) =
      if final = 1 then some ⟨data, rest⟩
      else if final = 0 then
        (inflate fuel rest).map fun r => ⟨data ++ r.output, r.unused⟩
      else none := by
  have h16 : ∀ n : Nat, n ≤ 65535 →
      (UInt8.ofNat n).toNat + 256 * (UInt8.ofNat (n / 256)).toNat = n := by
    intro n hn
    simp only [UInt8.toNat_ofNat']
    omega
  simp only [block, le16, List.cons_append, List.nil_append, inflate]
  rw [h16 _ hlen, h16 _ (Nat.sub_le _ _), if_pos ⟨by omega, by simp⟩, List.take_left,
    List.drop_left]

theorem inflate_deflate (rest : Bytes) : ∀ (fuel : Nat) (x : Bytes) (fuel' : Nat),
    x.length ≤ fuel → fuel < fuel' → inflate fuel' (deflate fuel x ++ rest) = some ⟨x, rest⟩ := by
  intro fuel
  induction fuel with
  | zero =>
    intro x fuel' hx hlt
    obtain rfl := List.length_eq_zero_iff.mp (Nat.le_zero.mp hx)
    obtain ⟨k, rfl⟩ := Nat.exists_eq_add_of_lt hlt
    exact (inflate_block (by simp)).trans (if_pos rfl)
  | succ fuel ih =>
    intro x fuel' hx hlt
    obtain ⟨k, rfl⟩ := Nat.exists_eq_add_of_lt hlt
    cases x with
    | nil => exact (inflate_block (by simp)).trans (if_pos rfl)
    | cons b xs =>
      rw [deflate, List.append_assoc, inflate_block (by rw [List.length_take]; omega),
        if_neg (by decide), if_pos rfl, ih _ (fuel + 1 + k) ?_ (by omega), Option.map_some,
        List.take_append_drop]
      rw [List.length_drop]
      simp only [List.length_cons] at hx ⊢
      omega

theorem length_deflate (fuel : Nat) : ∀ x : Bytes, x.length ≤ fuel →
    x.length < (deflate fuel x).length := by
  induction fuel with
  | zero =>
    intro x hx
    simp only [deflate, block, le16, List.length_cons, List.length_append, List.length_nil]
    omega
  | succ fuel ih =>
    intro x hx
    cases x with
    | nil => simp [deflate, block]
    | cons b xs =>
      have := ih ((b :: xs).drop 65535) (by rw [List.length_drop, List.length_cons] at *; omega)
      simp only [deflate, block, le16, List.length_append, List.length_cons, List.length_nil,
        List.length_take, List.length_drop] at *
      omega

@[simp] theorem length_trailer (x : Bytes) : (trailer x).length = 8 := rfl

theorem gunzip_gzip (x rest : Bytes) : gunzip (gzip x ++ rest) = some ⟨x, rest⟩ := by
  have hcat : gzip x ++ rest =
      0x1f :: 0x8b :: 0x08 :: 0 :: 0 :: 0 :: 0 :: 0 :: 0 :: 0xff ::
        (deflate x.length x ++ (trailer x ++ rest)) := by
    simp only [gzip, List.cons_append, List.nil_append, List.append_assoc]
  have hfuel : x.length < (deflate x.length x ++ (trailer x ++ rest)).length := by
    have := length_deflate x.length x le_rfl
    rw [List.length_append]
    omega
  rw [hcat, gunzip, inflate_deflate _ _ _ _ le_rfl hfuel, Option.bind_some,
    List.take_left' (length_trailer x), List.drop_left' (length_trailer x), if_pos rfl]

/-- The codec of stored blocks. -/
def codec : GzipCodec := ⟨gunzip, gzip⟩

theorem codec_lawful : codec.Lawful where
  header x := ⟨0, [0, 0, 0, 0, 0, 0xff] ++ deflate x.length x ++ trailer x,
    by simp only [codec, gzip, List.cons_append, List.nil_append], by decide⟩
  decompress_compress := gunzip_gzip

end Stored

end TimeCapsule.Lib
