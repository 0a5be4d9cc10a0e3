import Mathlib.Data.List.Basic
import Mathlib.Tactic.Ring
import Mathlib.Tactic.NormNum

/-!
# Byte strings

Slices, writes into a slice, big-endian words and text.  A write is described by what it leaves
alone: its length, the part before the slice and the part after it.
-/

namespace TimeCapsule.Lib

abbrev Bytes := List UInt8

/-- The bytes of an ASCII literal. -/
def ascii (s : String) : Bytes := s.toByteArray.data.toList

/-- A closed list is checked element by element. -/
theorem forall_mem_of_all {α : Type*} {P : α → Prop} [DecidablePred P] {l : List α}
    (h : (l.all fun a => decide (P a)) = true) : ∀ a ∈ l, P a := by
  intro a ha
  exact of_decide_eq_true (List.all_eq_true.mp h a ha)

def zeros (n : Nat) : Bytes := List.replicate n 0

@[simp] theorem length_zeros (n : Nat) : (zeros n).length = n := List.length_replicate

/-! ## Slices and writes -/

section Slices

variable {α : Type*} {xs ys : List α} {i j k : Nat}

/-- The slice `xs[i:j]`. -/
def slice (xs : List α) (i j : Nat) : List α := (xs.drop i).take (j - i)

/-- The assignment `xs[i:j] = ys`, for `i ≤ j`. -/
def setSlice (xs : List α) (i j : Nat) (ys : List α) : List α := xs.take i ++ ys ++ xs.drop j

theorem length_slice (hj : j ≤ xs.length) : (slice xs i j).length = j - i := by
  rw [slice, List.length_take, List.length_drop]
  omega

theorem slice_add (xs : List α) (i n : Nat) : slice xs i (i + n) = (xs.drop i).take n := by
  rw [slice, Nat.add_sub_cancel_left]

theorem length_setSlice (hij : i ≤ j) (hj : j ≤ xs.length) (hy : ys.length = j - i) :
    (setSlice xs i j ys).length = xs.length := by
  simp only [setSlice, List.length_append, List.length_take, List.length_drop]
  omega

theorem take_setSlice (hi : i ≤ xs.length) (hk : k ≤ i) :
    (setSlice xs i j ys).take k = xs.take k := by
  rw [setSlice, List.append_assoc, List.take_append_of_le_length (by simp; omega), List.take_take,
    Nat.min_eq_left hk]

theorem drop_setSlice (hij : i ≤ j) (hj : j ≤ xs.length) (hy : ys.length = j - i) (hk : j ≤ k) :
    (setSlice xs i j ys).drop k = xs.drop k := by
  have hlen : (xs.take i ++ ys).length = j := by
    rw [List.length_append, List.length_take, hy]
    omega
  rw [setSlice, List.drop_append, hlen, List.drop_eq_nil_of_le (by omega), List.nil_append,
    List.drop_drop]
  congr 1
  omega

theorem drop_setSlice_start (hi : i ≤ xs.length) :
    (setSlice xs i j ys).drop i = ys ++ xs.drop j := by
  rw [setSlice, List.append_assoc, List.drop_append_of_le_length (by simp; omega),
    List.drop_eq_nil_of_le (by simp), List.nil_append]

theorem getElem?_setSlice_lt (hi : i ≤ xs.length) (hk : k < i) :
    (setSlice xs i j ys)[k]? = xs[k]? := by
  have h : ((setSlice xs i j ys).take i)[k]? = (xs.take i)[k]? := by
    rw [take_setSlice hi le_rfl]
  simpa [List.getElem?_take, hk] using h

theorem getElem?_setSlice_ge (hij : i ≤ j) (hj : j ≤ xs.length) (hy : ys.length = j - i)
    (hk : j ≤ k) : (setSlice xs i j ys)[k]? = xs[k]? := by
  have h : ((setSlice xs i j ys).drop k)[0]? = (xs.drop k)[0]? := by
    rw [drop_setSlice hij hj hy hk]
  simpa using h

/-- A write is invisible outside the slice it goes to. -/
theorem getElem?_setSlice_frame (hij : i ≤ j) (hj : j ≤ xs.length) (hy : ys.length = j - i)
    (hk : k < i ∨ j ≤ k) : (setSlice xs i j ys)[k]? = xs[k]? := by
  rcases hk with hk | hk
  · exact getElem?_setSlice_lt (by omega) hk
  · exact getElem?_setSlice_ge hij hj hy hk

theorem slice_setSlice (hij : i ≤ j) (hj : j ≤ xs.length) (hy : ys.length = j - i) :
    slice (setSlice xs i j ys) i j = ys := by
  rw [slice, drop_setSlice_start (by omega), List.take_left' hy]

end Slices

/-! ## Big-endian words -/

/-- The 4 bytes of `struct.pack(">I", n)`. -/
def be32 (n : Nat) : Bytes :=
  [UInt8.ofNat (n / 2 ^ 24), UInt8.ofNat (n / 2 ^ 16), UInt8.ofNat (n / 2 ^ 8), UInt8.ofNat n]

/-- The 2 bytes of `htons(n)`. -/
def be16 (n : Nat) : Bytes := [UInt8.ofNat (n / 2 ^ 8), UInt8.ofNat n]

/-- The value of a big-endian byte string. -/
def ofBe (bs : Bytes) : Nat := bs.foldl (fun n b => n * 256 + b.toNat) 0

/-- `struct.unpack_from(">I", data, off)`, for an offset with four bytes behind it. -/
def be32At (data : Bytes) (off : Nat) : Nat := ofBe (slice data off (off + 4))

@[simp] theorem length_be32 (n : Nat) : (be32 n).length = 4 := rfl

@[simp] theorem length_be16 (n : Nat) : (be16 n).length = 2 := rfl

theorem ofBe_be32 {n : Nat} (h : n < 2 ^ 32) : ofBe (be32 n) = n := by
  simp only [be32, ofBe, List.foldl_cons, List.foldl_nil, UInt8.toNat_ofNat']
  omega

theorem ofBe_be16 {n : Nat} (h : n < 2 ^ 16) : ofBe (be16 n) = n := by
  simp only [be16, ofBe, List.foldl_cons, List.foldl_nil, UInt8.toNat_ofNat']
  omega

theorem ofBe_lt {bs : Bytes} (h : bs.length = 4) : ofBe bs < 2 ^ 32 := by
  match bs, h with
  | [a, b, c, d], _ =>
    have ha := a.toNat_lt
    have hb := b.toNat_lt
    have hc := c.toNat_lt
    have hd := d.toNat_lt
    simp only [ofBe, List.foldl_cons, List.foldl_nil]
    omega

theorem be32_ofBe {bs : Bytes} (h : bs.length = 4) : be32 (ofBe bs) = bs := by
  match bs, h with
  | [a, b, c, d], _ =>
    have ha := a.toNat_lt
    have hb := b.toNat_lt
    have hc := c.toNat_lt
    have hd := d.toNat_lt
    simp only [be32, ofBe, List.foldl_cons, List.foldl_nil, List.cons.injEq, and_true,
      ← UInt8.toNat_inj, UInt8.toNat_ofNat']
    omega

/-! ## Hexadecimal text -/

def hexDigit (n : Nat) : Char := "0123456789abcdef".toList.getD n '0'

/-- `f"0x{n:08x}"` -/
def hex08 (n : Nat) : String :=
  let digits := Nat.toDigits 16 n
  String.ofList ('0' :: 'x' :: (List.replicate (8 - digits.length) '0' ++ digits))

/-- `bytes.hex()` -/
def hexOfBytes (bs : Bytes) : String :=
  String.ofList (bs.flatMap fun b => [hexDigit (b.toNat / 16), hexDigit (b.toNat % 16)])

def hexValue (c : Char) : Nat :=
  if '0' ≤ c ∧ c ≤ '9' then c.toNat - '0'.toNat
  else if 'a' ≤ c ∧ c ≤ 'f' then c.toNat - 'a'.toNat + 10
  else if 'A' ≤ c ∧ c ≤ 'F' then c.toNat - 'A'.toNat + 10
  else 0

/-- `bytes.fromhex` on a string of hexadecimal digits. -/
def bytesOfHexDigits : List Char → Bytes
  | a :: b :: rest => UInt8.ofNat (hexValue a * 16 + hexValue b) :: bytesOfHexDigits rest
  | _ => []

def bytesOfHex (s : String) : Bytes := bytesOfHexDigits s.toList

end TimeCapsule.Lib
