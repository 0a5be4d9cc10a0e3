import TimeCapsule.Lib.Blocks

/-!
# MD4

The MD4 of RFC 1320, and the context of `nt_hash.c` that is fed piece by piece.
-/

namespace TimeCapsule.NtHash

open Lib

/-! ## Words -/

def loadLe32 (p : Bytes) : UInt32 :=
  (p.getD 0 0).toUInt32 ||| (p.getD 1 0).toUInt32 <<< 8 ||| (p.getD 2 0).toUInt32 <<< 16 |||
    (p.getD 3 0).toUInt32 <<< 24

def storeLe32 (value : UInt32) : Bytes :=
  [(value &&& 0xff).toUInt8, (value >>> 8 &&& 0xff).toUInt8, (value >>> 16 &&& 0xff).toUInt8,
    (value >>> 24 &&& 0xff).toUInt8]

def rotl32 (value bits : UInt32) : UInt32 := value <<< bits ||| value >>> (32 - bits)

def md4F (x y z : UInt32) : UInt32 := (x &&& y) ||| (~~~x &&& z)
def md4G (x y z : UInt32) : UInt32 := (x &&& y) ||| (x &&& z) ||| (y &&& z)
def md4H (x y z : UInt32) : UInt32 := x ^^^ y ^^^ z

/-! ## The digest -/

/-- The four words of the state. -/
structure Words where
  a : UInt32
  b : UInt32
  c : UInt32
  d : UInt32
deriving DecidableEq, Repr

def Words.add (v w : Words) : Words := ⟨v.a + w.a, v.b + w.b, v.c + w.c, v.d + w.d⟩

def initialWords : Words := ⟨0x67452301, 0xefcdab89, 0x98badcfe, 0x10325476⟩

/-- One operation of a round; the words change places behind it. -/
def Words.operate (f : UInt32 → UInt32 → UInt32 → UInt32) (constant x shift : UInt32) (w : Words) : Words :=
  ⟨w.d, rotl32 (w.a + f w.b w.c w.d + x + constant) shift, w.b, w.c⟩

/-- A round of 16 operations: the words of the block in the order in which they are taken, with the four
shifts that take turns. -/
def Words.round (f : UInt32 → UInt32 → UInt32 → UInt32) (constant : UInt32) (order : List Nat)
    (shifts : List UInt32) (x : Nat → UInt32) (w : Words) : Words :=
  ((order.map x).zip (shifts ++ shifts ++ shifts ++ shifts)).foldl
    (fun w op => w.operate f constant op.1 op.2) w

def order1 : List Nat := [0, 1, 2, 3, 4, 5, 6, 7, 8, 9, 10, 11, 12, 13, 14, 15]
def order2 : List Nat := [0, 4, 8, 12, 1, 5, 9, 13, 2, 6, 10, 14, 3, 7, 11, 15]
def order3 : List Nat := [0, 8, 4, 12, 2, 10, 6, 14, 1, 9, 5, 13, 3, 11, 7, 15]

def compress (w : Words) (block : Bytes) : Words :=
  let x := fun i => loadLe32 (block.drop (i * 4))
  w.add
    (((w.round md4F 0 order1 [3, 7, 11, 19] x).round md4G 0x5a827999 order2 [3, 5, 9, 13] x).round
      md4H 0x6ed9eba1 order3 [3, 9, 11, 15] x)

/-- The 8 bytes of the number, the low-order byte first. -/
def le64 (n : Nat) : Bytes := (List.range 8).map fun i => UInt8.ofNat (n / 256 ^ i)

/-- A one bit, zeros up to 448 bits of a block, and the number of bits. -/
def pad (message : Bytes) : Bytes :=
  message ++ 0x80 :: zeros ((119 - message.length % 64) % 64) ++ le64 (message.length * 8)

def Words.bytes (w : Words) : Bytes := storeLe32 w.a ++ storeLe32 w.b ++ storeLe32 w.c ++ storeLe32 w.d

/-- MD4, the Message-Digest Algorithm of RFC 1320. -/
def md4 (message : Bytes) : Bytes := ((blocksOf 64 (pad message)).foldl compress initialWords).bytes

/-! ## The context -/

structure Md4Ctx where
  state : Words
  bytes : UInt64
  block : Bytes
  blockLen : Nat
deriving DecidableEq, Repr

/-- What `block` holds before is kept. -/
def md4Init (ctx : Md4Ctx) : Md4Ctx := { ctx with state := initialWords, bytes := 0, blockLen := 0 }

/-- The variables `a`, `b`, `c` and `d` by name. -/
inductive Var where
  | a
  | b
  | c
  | d
deriving DecidableEq, Repr

def Words.get (w : Words) : Var → UInt32
  | .a => w.a
  | .b => w.b
  | .c => w.c
  | .d => w.d

def Words.set (w : Words) (value : UInt32) : Var → Words
  | .a => { w with a := value }
  | .b => { w with b := value }
  | .c => { w with c := value }
  | .d => { w with d := value }

def md4Round1 (p q r t : Var) (x s : UInt32) (w : Words) : Words :=
  w.set (rotl32 (w.get p + md4F (w.get q) (w.get r) (w.get t) + x) s) p

def md4Round2 (p q r t : Var) (x s : UInt32) (w : Words) : Words :=
  w.set (rotl32 (w.get p + md4G (w.get q) (w.get r) (w.get t) + x + 0x5a827999) s) p

def md4Round3 (p q r t : Var) (x s : UInt32) (w : Words) : Words :=
  w.set (rotl32 (w.get p + md4H (w.get q) (w.get r) (w.get t) + x + 0x6ed9eba1) s) p

/-- The lines of `tc_md4_process_block`. -/
def blockLines1 (x : Nat → UInt32) : List (Words → Words) :=
  [md4Round1 .a .b .c .d (x 0) 3, md4Round1 .d .a .b .c (x 1) 7,
    md4Round1 .c .d .a .b (x 2) 11, md4Round1 .b .c .d .a (x 3) 19,
    md4Round1 .a .b .c .d (x 4) 3, md4Round1 .d .a .b .c (x 5) 7,
    md4Round1 .c .d .a .b (x 6) 11, md4Round1 .b .c .d .a (x 7) 19,
    md4Round1 .a .b .c .d (x 8) 3, md4Round1 .d .a .b .c (x 9) 7,
    md4Round1 .c .d .a .b (x 10) 11, md4Round1 .b .c .d .a (x 11) 19,
    md4Round1 .a .b .c .d (x 12) 3, md4Round1 .d .a .b .c (x 13) 7,
    md4Round1 .c .d .a .b (x 14) 11, md4Round1 .b .c .d .a (x 15) 19]

def blockLines2 (x : Nat → UInt32) : List (Words → Words) :=
  [md4Round2 .a .b .c .d (x 0) 3, md4Round2 .d .a .b .c (x 4) 5,
    md4Round2 .c .d .a .b (x 8) 9, md4Round2 .b .c .d .a (x 12) 13,
    md4Round2 .a .b .c .d (x 1) 3, md4Round2 .d .a .b .c (x 5) 5,
    md4Round2 .c .d .a .b (x 9) 9, md4Round2 .b .c .d .a (x 13) 13,
    md4Round2 .a .b .c .d (x 2) 3, md4Round2 .d .a .b .c (x 6) 5,
    md4Round2 .c .d .a .b (x 10) 9, md4Round2 .b .c .d .a (x 14) 13,
    md4Round2 .a .b .c .d (x 3) 3, md4Round2 .d .a .b .c (x 7) 5,
    md4Round2 .c .d .a .b (x 11) 9, md4Round2 .b .c .d .a (x 15) 13]

def blockLines3 (x : Nat → UInt32) : List (Words → Words) :=
  [md4Round3 .a .b .c .d (x 0) 3, md4Round3 .d .a .b .c (x 8) 9,
    md4Round3 .c .d .a .b (x 4) 11, md4Round3 .b .c .d .a (x 12) 15,
    md4Round3 .a .b .c .d (x 2) 3, md4Round3 .d .a .b .c (x 10) 9,
    md4Round3 .c .d .a .b (x 6) 11, md4Round3 .b .c .d .a (x 14) 15,
    md4Round3 .a .b .c .d (x 1) 3, md4Round3 .d .a .b .c (x 9) 9,
    md4Round3 .c .d .a .b (x 5) 11, md4Round3 .b .c .d .a (x 13) 15,
    md4Round3 .a .b .c .d (x 3) 3, md4Round3 .d .a .b .c (x 11) 9,
    md4Round3 .c .d .a .b (x 7) 11, md4Round3 .b .c .d .a (x 15) 15]

def runLines (lines : List (Words → Words)) (w : Words) : Words := lines.foldl (fun w line => line w) w

def md4ProcessBlock (ctx : Md4Ctx) (block : Bytes) : Md4Ctx :=
  let x := fun i => loadLe32 (block.drop (i * 4))
  let w := runLines (blockLines3 x) (runLines (blockLines2 x) (runLines (blockLines1 x) ctx.state))
  { ctx with state := ⟨ctx.state.a + w.a, ctx.state.b + w.b, ctx.state.c + w.c, ctx.state.d + w.d⟩ }

/-- The loop of `tc_md4_update`, which takes at least one byte each time. -/
def md4UpdateLoop : (fuel : Nat) → (data : Bytes) → Md4Ctx → Md4Ctx
  | 0, _, ctx => ctx
  | fuel + 1, data, ctx =>
      if data.length = 0 then ctx
      else
        let take := min (64 - ctx.blockLen) data.length
        let block := setSlice ctx.block ctx.blockLen (ctx.blockLen + take) (data.take take)
        let ctx := { ctx with block := block, blockLen := ctx.blockLen + take }
        md4UpdateLoop fuel (data.drop take)
          (if ctx.blockLen = 64 then { md4ProcessBlock ctx ctx.block with blockLen := 0 } else ctx)

def md4Update (ctx : Md4Ctx) (data : Bytes) : Md4Ctx :=
  md4UpdateLoop data.length data { ctx with bytes := ctx.bytes + UInt64.ofNat data.length }

def md4Final (ctx : Md4Ctx) : Bytes :=
  let bitLen := ctx.bytes * 8
  let padding : Bytes := 0x80 :: zeros 63
  let padLen := if ctx.blockLen < 56 then 56 - ctx.blockLen else 120 - ctx.blockLen
  let ctx := md4Update ctx (padding.take padLen)
  let bitLenBytes := (List.range 8).map fun i => (bitLen >>> UInt64.ofNat (8 * i) &&& 0xff).toUInt8
  let ctx := md4Update ctx bitLenBytes
  storeLe32 ctx.state.a ++ storeLe32 ctx.state.b ++ storeLe32 ctx.state.c ++ storeLe32 ctx.state.d

/-! ## One block -/

/-- The line of a round. -/
def Words.line (f : UInt32 → UInt32 → UInt32 → UInt32) (constant : UInt32) (p q r t : Var)
    (x s : UInt32) (w : Words) : Words :=
  w.set (rotl32 (w.get p + f (w.get q) (w.get r) (w.get t) + x + constant) s) p

/-- The words, one place further. -/
def Words.turn (w : Words) : Words := ⟨w.d, w.a, w.b, w.c⟩

section Lines

variable (f : UInt32 → UInt32 → UInt32 → UInt32) (constant x s : UInt32) (w : Words)

theorem turn_line_a : (w.line f constant .a .b .c .d x s).turn = w.operate f constant x s := rfl

theorem turn_line_d : (w.line f constant .d .a .b .c x s).turn.turn = w.turn.operate f constant x s := rfl

theorem turn_line_c : (w.line f constant .c .d .a .b x s).turn.turn.turn =
    w.turn.turn.operate f constant x s := rfl

theorem turn_line_b : w.line f constant .b .c .d .a x s = w.turn.turn.turn.operate f constant x s := rfl

/-- Four lines, each with the words in other places, are four operations. -/
theorem four_lines (x y z u s t v r : UInt32) :
    ((((w.line f constant .a .b .c .d x s).line f constant .d .a .b .c y t).line f constant .c .d .a .b
      z v).line f constant .b .c .d .a u r) =
      (((w.operate f constant x s).operate f constant y t).operate f constant z v).operate f constant u r := by
  rw [turn_line_b, turn_line_c, turn_line_d, turn_line_a]

end Lines

theorem md4Round1_eq (p q r t : Var) (x s : UInt32) (w : Words) :
    md4Round1 p q r t x s w = w.line md4F 0 p q r t x s := by
  rw [Words.line, UInt32.add_zero]
  rfl

theorem md4Round2_eq (p q r t : Var) (x s : UInt32) (w : Words) :
    md4Round2 p q r t x s w = w.line md4G 0x5a827999 p q r t x s := by
  rw [Words.line, md4Round2]

theorem md4Round3_eq (p q r t : Var) (x s : UInt32) (w : Words) :
    md4Round3 p q r t x s w = w.line md4H 0x6ed9eba1 p q r t x s := by
  rw [Words.line, md4Round3]

/-- The 16 lines of a round are its operations. -/
theorem runLines_eq {line : Var → Var → Var → Var → UInt32 → UInt32 → Words → Words}
    {operate : UInt32 → UInt32 → Words → Words}
    (hfour : ∀ x y z u s t v r w, line .b .c .d .a u r (line .c .d .a .b z v (line .d .a .b .c y t
      (line .a .b .c .d x s w))) = operate u r (operate z v (operate y t (operate x s w))))
    (x0 x1 x2 x3 x4 x5 x6 x7 x8 x9 x10 x11 x12 x13 x14 x15 s t v r : UInt32) (w : Words) :
    runLines
        [line .a .b .c .d x0 s, line .d .a .b .c x1 t, line .c .d .a .b x2 v, line .b .c .d .a x3 r,
          line .a .b .c .d x4 s, line .d .a .b .c x5 t, line .c .d .a .b x6 v, line .b .c .d .a x7 r,
          line .a .b .c .d x8 s, line .d .a .b .c x9 t, line .c .d .a .b x10 v, line .b .c .d .a x11 r,
          line .a .b .c .d x12 s, line .d .a .b .c x13 t, line .c .d .a .b x14 v,
          line .b .c .d .a x15 r] w =
      [(x0, s), (x1, t), (x2, v), (x3, r), (x4, s), (x5, t), (x6, v), (x7, r), (x8, s), (x9, t),
        (x10, v), (x11, r), (x12, s), (x13, t), (x14, v), (x15, r)].foldl
          (fun w op => operate op.1 op.2 w) w := by
  simp only [runLines, List.foldl_cons, List.foldl_nil, hfour]

theorem four1 (x y z u s t v r : UInt32) (w : Words) :
    md4Round1 .b .c .d .a u r (md4Round1 .c .d .a .b z v (md4Round1 .d .a .b .c y t
      (md4Round1 .a .b .c .d x s w))) =
      (((w.operate md4F 0 x s).operate md4F 0 y t).operate md4F 0 z v).operate md4F 0 u r := by
  rw [md4Round1_eq, md4Round1_eq, md4Round1_eq, md4Round1_eq, four_lines]


theorem four2 (x y z u s t v r : UInt32) (w : Words) :
    md4Round2 .b .c .d .a u r (md4Round2 .c .d .a .b z v (md4Round2 .d .a .b .c y t
      (md4Round2 .a .b .c .d x s w))) =
      (((w.operate md4G 0x5a827999 x s).operate md4G 0x5a827999 y t).operate md4G 0x5a827999 z v).operate
        md4G 0x5a827999 u r := by
  rw [md4Round2_eq, md4Round2_eq, md4Round2_eq, md4Round2_eq, four_lines]

theorem four3 (x y z u s t v r : UInt32) (w : Words) :
    md4Round3 .b .c .d .a u r (md4Round3 .c .d .a .b z v (md4Round3 .d .a .b .c y t
      (md4Round3 .a .b .c .d x s w))) =
      (((w.operate md4H 0x6ed9eba1 x s).operate md4H 0x6ed9eba1 y t).operate md4H 0x6ed9eba1 z v).operate
        md4H 0x6ed9eba1 u r := by
  rw [md4Round3_eq, md4Round3_eq, md4Round3_eq, md4Round3_eq, four_lines]

theorem runLines1 (x : Nat → UInt32) (w : Words) :
    runLines (blockLines1 x) w = w.round md4F 0 order1 [3, 7, 11, 19] x :=
  runLines_eq four1 (x 0) (x 1) (x 2) (x 3) (x 4) (x 5) (x 6) (x 7) (x 8) (x 9) (x 10) (x 11) (x 12)
    (x 13) (x 14) (x 15) 3 7 11 19 w

theorem runLines2 (x : Nat → UInt32) (w : Words) :
    runLines (blockLines2 x) w = w.round md4G 0x5a827999 order2 [3, 5, 9, 13] x :=
  runLines_eq four2 (x 0) (x 4) (x 8) (x 12) (x 1) (x 5) (x 9) (x 13) (x 2) (x 6) (x 10) (x 14) (x 3)
    (x 7) (x 11) (x 15) 3 5 9 13 w

theorem runLines3 (x : Nat → UInt32) (w : Words) :
    runLines (blockLines3 x) w = w.round md4H 0x6ed9eba1 order3 [3, 9, 11, 15] x :=
  runLines_eq four3 (x 0) (x 8) (x 4) (x 12) (x 2) (x 10) (x 6) (x 14) (x 1) (x 9) (x 5) (x 13) (x 3)
    (x 11) (x 7) (x 15) 3 9 11 15 w

/-- The lines compute the rounds. -/
theorem md4ProcessBlock_eq (ctx : Md4Ctx) (block : Bytes) :
    md4ProcessBlock ctx block = { ctx with state := compress ctx.state block } := by
  unfold md4ProcessBlock
  dsimp only
  rw [runLines1, runLines2, runLines3]
  rfl

/-! ## Pieces -/

/-- The context has been fed these bytes. -/
structure Fed (ctx : Md4Ctx) (bytes : Bytes) : Prop where
  length_block : ctx.block.length = 64
  blockLen_lt : ctx.blockLen < 64
  absorbed : Absorbed compress 64 initialWords bytes ctx.state (ctx.block.take ctx.blockLen)
  count : ctx.bytes = UInt64.ofNat bytes.length

variable {ctx : Md4Ctx} {bytes data : Bytes}

theorem fed_md4Init (h : ctx.block.length = 64) : Fed (md4Init ctx) [] where
  length_block := h
  blockLen_lt := Nat.succ_pos 63
  absorbed := absorbed_nil (by decide)
  count := rfl

/-- The loop takes the whole piece, whatever the count. -/
theorem md4UpdateLoop_absorbs {fuel : Nat} (hfuel : data.length ≤ fuel)
    (hlength : ctx.block.length = 64) (hlt : ctx.blockLen < 64)
    (habsorbed : Absorbed compress 64 initialWords bytes ctx.state (ctx.block.take ctx.blockLen)) :
    let after := md4UpdateLoop fuel data ctx
    after.block.length = 64 ∧ after.blockLen < 64 ∧ after.bytes = ctx.bytes ∧
      Absorbed compress 64 initialWords (bytes ++ data) after.state (after.block.take after.blockLen) := by
  induction fuel generalizing data ctx bytes with
  | zero =>
    obtain rfl : data = [] := List.length_eq_zero_iff.mp (by omega)
    exact ⟨hlength, hlt, rfl, by rwa [List.append_nil]⟩
  | succ fuel ih =>
    rw [md4UpdateLoop]
    split
    · next hempty =>
      obtain rfl := List.length_eq_zero_iff.mp hempty
      exact ⟨hlength, hlt, rfl, by rwa [List.append_nil]⟩
    next hne =>
    dsimp only
    have hrest : (ctx.block.take ctx.blockLen).length = ctx.blockLen := by
      rw [List.length_take]
      omega
    generalize htake : min (64 - ctx.blockLen) data.length = take
    have htaken : (data.take take).length = ctx.blockLen + take - ctx.blockLen := by
      rw [List.length_take]
      omega
    have hblock : (setSlice ctx.block ctx.blockLen (ctx.blockLen + take) (data.take take)).length = 64 := by
      rw [length_setSlice (by omega) (by omega) htaken, hlength]
    have hwaiting : (setSlice ctx.block ctx.blockLen (ctx.blockLen + take) (data.take take)).take
        (ctx.blockLen + take) = ctx.block.take ctx.blockLen ++ data.take take := by
      rw [setSlice, List.take_left']
      rw [List.length_append, hrest, htaken]
      omega
    have hsplit : bytes ++ data = bytes ++ data.take take ++ data.drop take := by
      rw [List.append_assoc, List.take_append_drop]
    have hshort : (data.drop take).length ≤ fuel := by
      rw [List.length_drop]
      omega
    rw [hsplit]
    split
    · next hfull =>
      have hfill : Absorbed compress 64 initialWords (bytes ++ data.take take)
          (compress ctx.state (ctx.block.take ctx.blockLen ++ data.take take)) [] :=
        habsorbed.fill (by rw [hrest]; omega)
      have hwhole := List.take_of_length_le (hblock.trans hfull.symm).le
      rw [← hwaiting, hwhole] at hfill
      rw [md4ProcessBlock_eq]
      exact @ih ⟨compress ctx.state (setSlice ctx.block ctx.blockLen (ctx.blockLen + take)
        (data.take take)), ctx.bytes, setSlice ctx.block ctx.blockLen (ctx.blockLen + take)
        (data.take take), 0⟩ _ _ hshort hblock (Nat.succ_pos 63) hfill
    · next hpartial =>
      have hwait : Absorbed compress 64 initialWords (bytes ++ data.take take) ctx.state
          (ctx.block.take ctx.blockLen ++ data.take take) :=
        habsorbed.wait (by rw [hrest]; omega)
      rw [← hwaiting] at hwait
      exact ih hshort hblock (by dsimp only; omega) hwait

theorem Fed.update (h : Fed ctx bytes) (data : Bytes) : Fed (md4Update ctx data) (bytes ++ data) := by
  obtain ⟨hlength, hlt, hcount, habsorbed⟩ := @md4UpdateLoop_absorbs
    { ctx with bytes := ctx.bytes + UInt64.ofNat data.length } bytes data data.length le_rfl
    h.length_block h.blockLen_lt h.absorbed
  refine ⟨hlength, hlt, habsorbed, hcount.trans ?_⟩
  rw [h.count, List.length_append, UInt64.ofNat_add]

/-- Any pieces give the context of their concatenation. -/
theorem Fed.updates (h : Fed ctx bytes) (pieces : List Bytes) :
    Fed (pieces.foldl md4Update ctx) (bytes ++ pieces.flatten) := by
  induction pieces generalizing ctx bytes with
  | nil => rwa [List.flatten_nil, List.append_nil]
  | cons piece pieces ih =>
    rw [List.foldl_cons, List.flatten_cons, ← List.append_assoc]
    exact ih (h.update piece)

/-- A byte of the count of bits. -/
theorem bitLen_byte (n : Nat) {i : Nat} (hi : i < 8) :
    ((UInt64.ofNat n * 8) >>> UInt64.ofNat (8 * i) &&& 0xff).toUInt8 = UInt8.ofNat (n * 8 / 256 ^ i) := by
  have hpow : 256 ^ i = 2 ^ (8 * i) := by rw [Nat.pow_mul]
  have hmask : (0xff : UInt64).toNat = 2 ^ 8 - 1 := rfl
  have hshift : (UInt64.ofNat (8 * i)).toNat % 64 = 8 * i := by
    rw [UInt64.toNat_ofNat']
    omega
  have hbits : (UInt64.ofNat n * 8).toNat = n * 8 % 2 ^ 64 := by
    rw [UInt64.toNat_mul, UInt64.toNat_ofNat']
    show n % 2 ^ 64 * 8 % 2 ^ 64 = _
    omega
  rw [← UInt8.toNat_inj, UInt64.toNat_toUInt8, UInt64.toNat_and, hmask, Nat.and_two_pow_sub_one_eq_mod,
    UInt64.toNat_shiftRight, hshift, hbits, Nat.shiftRight_eq_div_pow, UInt8.toNat_ofNat', hpow]
  have hcases : i = 0 ∨ i = 1 ∨ i = 2 ∨ i = 3 ∨ i = 4 ∨ i = 5 ∨ i = 6 ∨ i = 7 := by omega
  rcases hcases with rfl | rfl | rfl | rfl | rfl | rfl | rfl | rfl <;> omega

/-- The padding and the count of bits fill the last block. -/
theorem Fed.final (h : Fed ctx bytes) : md4Final ctx = md4 bytes := by
  have hblockLen : ctx.blockLen = bytes.length % 64 := by
    rw [← h.absorbed.length_rest, List.length_take, h.length_block]
    have hlt := h.blockLen_lt
    omega
  have hpadding : ((0x80 : UInt8) :: zeros 63).take
      (if ctx.blockLen < 56 then 56 - ctx.blockLen else 120 - ctx.blockLen) =
        0x80 :: zeros ((119 - bytes.length % 64) % 64) := by
    obtain ⟨k, hk, hk'⟩ : ∃ k, (if ctx.blockLen < 56 then 56 - ctx.blockLen else 120 - ctx.blockLen) =
        k + 1 ∧ k = (119 - bytes.length % 64) % 64 := by
      refine ⟨(119 - bytes.length % 64) % 64, ?_, rfl⟩
      split <;> omega
    rw [hk, List.take_succ_cons, ← hk', zeros, zeros, List.take_replicate, min_eq_left (by omega)]
  have hcount : ((List.range 8).map fun i =>
      ((ctx.bytes * 8) >>> UInt64.ofNat (8 * i) &&& 0xff).toUInt8) = le64 (bytes.length * 8) := by
    refine List.map_congr_left fun i hi => ?_
    rw [h.count]
    exact bitLen_byte bytes.length (List.mem_range.mp hi)
  have hfed := (h.update (0x80 :: zeros ((119 - bytes.length % 64) % 64))).update
    (le64 (bytes.length * 8))
  have habsorbed : Absorbed compress 64 initialWords (pad bytes)
      (md4Update (md4Update ctx (0x80 :: zeros ((119 - bytes.length % 64) % 64)))
        (le64 (bytes.length * 8))).state _ := hfed.absorbed
  have hrest := habsorbed.length_rest
  have hzero : (pad bytes).length % 64 = 0 := by
    simp only [pad, List.length_append, List.length_cons, length_zeros, le64, List.length_map,
      List.length_range]
    omega
  rw [hzero, List.length_eq_zero_iff] at hrest
  rw [hrest] at habsorbed
  unfold md4Final
  dsimp only
  rw [hpadding, hcount, md4, ← habsorbed.eq_foldl]
  rfl

/-- The digest of a message that arrives in pieces is the digest of the message. -/
theorem md4Final_updates (h : ctx.block.length = 64) (pieces : List Bytes) :
    md4Final (pieces.foldl md4Update (md4Init ctx)) = md4 pieces.flatten :=
  ((fed_md4Init h).updates pieces).final

end TimeCapsule.NtHash
