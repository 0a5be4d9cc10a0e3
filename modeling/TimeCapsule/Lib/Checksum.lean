import TimeCapsule.Lib.Bytes

/-!
# Checksums

Adler-32 and CRC-32 as sums over the byte string, and SHA-256.  The two sums evaluate their
accumulator at every byte (`force`), so that they also run on long strings in the kernel.
-/

namespace TimeCapsule.Lib

/-- `k n`, with `n` evaluated first. -/
def force {β : Type*} (n : Nat) (k : Nat → β) : β :=
  match n with
  | 0 => k 0
  | m + 1 => k (m + 1)

@[simp] theorem force_eq {β : Type*} (n : Nat) (k : Nat → β) : force n k = k n := by
  cases n <;> rfl

/-! ## Adler-32 -/

def adlerFrom : Bytes → Nat → Nat → Nat
  | [], a, b => b * 65536 + a
  | x :: xs, a, b =>
      force ((a + x.toNat) % 65521) fun a => force ((b + a) % 65521) fun b => adlerFrom xs a b

/-- `zlib.adler32(data) & 0xFFFFFFFF` -/
def adler32 (data : Bytes) : Nat := adlerFrom data 1 0

theorem adlerFrom_lt (data : Bytes) : ∀ a b : Nat, a < 65521 → b < 65521 →
    adlerFrom data a b < 2 ^ 32 := by
  induction data with
  | nil =>
    intro a b _ _
    rw [adlerFrom]
    omega
  | cons x data ih =>
    intro a b _ _
    rw [adlerFrom, force_eq, force_eq]
    exact ih _ _ (Nat.mod_lt _ (by norm_num)) (Nat.mod_lt _ (by norm_num))

theorem adler32_lt (data : Bytes) : adler32 data < 2 ^ 32 :=
  adlerFrom_lt data 1 0 (by norm_num) (by norm_num)

/-! ## CRC-32 -/

def crcBit (c : Nat) : Nat := if c % 2 = 1 then (c / 2) ^^^ 0xEDB88320 else c / 2

def crcByte (c : Nat) (x : UInt8) : Nat :=
  crcBit (crcBit (crcBit (crcBit (crcBit (crcBit (crcBit (crcBit (c ^^^ x.toNat))))))))

def crcFrom : Bytes → Nat → Nat
  | [], c => c ^^^ 0xFFFFFFFF
  | x :: xs, c => force (crcByte c x) (crcFrom xs)

/-- `zlib.crc32(data) & 0xFFFFFFFF` -/
def crc32 (data : Bytes) : Nat := crcFrom data 0xFFFFFFFF

/-! ## SHA-256 -/

namespace Sha256

def roundConstants : List UInt32 :=
  [0x428a2f98, 0x71374491, 0xb5c0fbcf, 0xe9b5dba5, 0x3956c25b, 0x59f111f1, 0x923f82a4, 0xab1c5ed5,
   0xd807aa98, 0x12835b01, 0x243185be, 0x550c7dc3, 0x72be5d74, 0x80deb1fe, 0x9bdc06a7, 0xc19bf174,
   0xe49b69c1, 0xefbe4786, 0x0fc19dc6, 0x240ca1cc, 0x2de92c6f, 0x4a7484aa, 0x5cb0a9dc, 0x76f988da,
   0x983e5152, 0xa831c66d, 0xb00327c8, 0xbf597fc7, 0xc6e00bf3, 0xd5a79147, 0x06ca6351, 0x14292967,
   0x27b70a85, 0x2e1b2138, 0x4d2c6dfc, 0x53380d13, 0x650a7354, 0x766a0abb, 0x81c2c92e, 0x92722c85,
   0xa2bfe8a1, 0xa81a664b, 0xc24b8b70, 0xc76c51a3, 0xd192e819, 0xd6990624, 0xf40e3585, 0x106aa070,
   0x19a4c116, 0x1e376c08, 0x2748774c, 0x34b0bcb5, 0x391c0cb3, 0x4ed8aa4a, 0x5b9cca4f, 0x682e6ff3,
   0x748f82ee, 0x78a5636f, 0x84c87814, 0x8cc70208, 0x90befffa, 0xa4506ceb, 0xbef9a3f7, 0xc67178f2]

def initialState : List UInt32 :=
  [0x6a09e667, 0xbb67ae85, 0x3c6ef372, 0xa54ff53a, 0x510e527f, 0x9b05688c, 0x1f83d9ab, 0x5be0cd19]

def rotr (x : UInt32) (n : UInt32) : UInt32 := (x >>> n) ||| (x <<< (32 - n))

/-- The message followed by a one bit, zeros and its length in bits. -/
def pad (data : Bytes) : Bytes :=
  let bits := 8 * data.length
  data ++ [0x80] ++ zeros ((119 - data.length % 64) % 64) ++ be32 (bits / 2 ^ 32) ++ be32 bits

/-- The schedule, most recent word first. -/
def schedule : Nat → List UInt32 → List UInt32
  | 0, ws => ws
  | n + 1, ws =>
      let w := fun i => ws.getD (i - 1) 0
      let s0 := rotr (w 15) 7 ^^^ rotr (w 15) 18 ^^^ (w 15 >>> 3)
      let s1 := rotr (w 2) 17 ^^^ rotr (w 2) 19 ^^^ (w 2 >>> 10)
      schedule n ((w 16 + s0 + w 7 + s1) :: ws)

def round : List UInt32 → UInt32 × UInt32 → List UInt32
  | [a, b, c, d, e, f, g, h], (k, w) =>
      let t1 := h + (rotr e 6 ^^^ rotr e 11 ^^^ rotr e 25) + ((e &&& f) ^^^ (~~~e &&& g)) + k + w
      let t2 := (rotr a 2 ^^^ rotr a 13 ^^^ rotr a 22) + ((a &&& b) ^^^ (a &&& c) ^^^ (b &&& c))
      [t1 + t2, a, b, c, d + t1, e, f, g]
  | s, _ => s

def block (state : List UInt32) (data : Bytes) : List UInt32 :=
  let words := (List.range 16).map fun i => UInt32.ofNat (be32At data (4 * i))
  let ws := (schedule 48 words.reverse).reverse
  List.zipWith (· + ·) state ((roundConstants.zip ws).foldl round state)

def digest (data : Bytes) : Bytes :=
  let padded := pad data
  let state := (List.range (padded.length / 64)).foldl
    (fun s i => block s (slice padded (64 * i) (64 * i + 64))) initialState
  state.flatMap fun w => be32 w.toNat

end Sha256

/-- `hashlib.sha256(data).hexdigest()` -/
def sha256Hex (data : Bytes) : String := hexOfBytes (Sha256.digest data)

end TimeCapsule.Lib
