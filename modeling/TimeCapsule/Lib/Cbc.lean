import TimeCapsule.Lib.Bytes

/-!
# Chunked block encryption

Cutting a string into chunks, cipher block chaining over a block cipher, and the whole-block part
of a chunk.  Every layer keeps lengths, so the chunks of a ciphertext are the ciphertexts of the
chunks, and decryption undoes encryption when it does on single blocks.
-/

namespace TimeCapsule.Lib

/-! ## Chunks -/

section Chunks

variable {α β : Type*} {n : Nat}

def chunksFrom (n : Nat) : (fuel : Nat) → List α → List (List α)
  | 0, _ => []
  | _ + 1, [] => []
  | fuel + 1, x :: xs => (x :: xs).take n :: chunksFrom n fuel ((x :: xs).drop n)

/-- `[xs[i:i+n] for i in range(0, len(xs), n)]` -/
def chunksOf (n : Nat) (xs : List α) : List (List α) := chunksFrom n xs.length xs

theorem flatten_chunksFrom (hn : 0 < n) (fuel : Nat) : ∀ xs : List α, xs.length ≤ fuel →
    (chunksFrom n fuel xs).flatten = xs := by
  induction fuel with
  | zero =>
    intro xs h
    rw [List.length_eq_zero_iff.mp (Nat.le_zero.mp h)]
    rfl
  | succ fuel ih =>
    intro xs h
    cases xs with
    | nil => rfl
    | cons x xs =>
      rw [chunksFrom, List.flatten_cons, ih, List.take_append_drop]
      rw [List.length_drop, List.length_cons] at *
      omega

theorem flatten_chunksOf (hn : 0 < n) (xs : List α) : (chunksOf n xs).flatten = xs :=
  flatten_chunksFrom hn _ _ le_rfl

/-- The chunks of a string rebuilt from length-preserving images of its chunks. -/
theorem chunksFrom_flatMap (hn : 0 < n) {f : List α → List β} (hf : ∀ c, (f c).length = c.length)
    (fuel : Nat) : ∀ (xs : List α) (fuel' : Nat), xs.length ≤ fuel → xs.length ≤ fuel' →
    chunksFrom n fuel' ((chunksFrom n fuel xs).flatMap f) = (chunksFrom n fuel xs).map f := by
  induction fuel with
  | zero =>
    intro xs fuel' h _
    rw [chunksFrom]
    cases fuel' <;> rfl
  | succ fuel ih =>
    intro xs fuel' h h'
    cases xs with
    | nil => cases fuel' <;> rfl
    | cons x xs =>
      obtain ⟨k, rfl⟩ : ∃ k, fuel' = k + 1 := ⟨fuel' - 1, by simp at h'; omega⟩
      have hhead : (f ((x :: xs).take n)).length = min n (xs.length + 1) := by
        rw [hf, List.length_take, List.length_cons]
      have hrest : ((x :: xs).drop n).length ≤ fuel ∧ ((x :: xs).drop n).length ≤ k := by
        rw [List.length_drop]
        simp only [List.length_cons] at *
        omega
      rw [chunksFrom, List.flatMap_cons, List.map_cons]
      obtain ⟨y, ys, hy⟩ : ∃ y ys, f ((x :: xs).take n) = y :: ys :=
        List.exists_cons_of_length_pos (by omega)
      have hcons : f ((x :: xs).take n) ++ (chunksFrom n fuel ((x :: xs).drop n)).flatMap f =
          y :: (ys ++ (chunksFrom n fuel ((x :: xs).drop n)).flatMap f) := by
        rw [hy, List.cons_append]
      rw [hcons, chunksFrom, ← hcons]
      by_cases hlt : n ≤ xs.length + 1
      · rw [List.take_left' (by omega), List.drop_left' (by omega), ih _ _ hrest.1 hrest.2]
      · -- the last chunk, shorter than the others
        have hnil : (x :: xs).drop n = [] := List.drop_eq_nil_of_le (by simp; omega)
        have hempty : ∀ m, chunksFrom n m ([] : List α) = [] := fun m => by cases m <;> rfl
        have hempty' : ∀ m, chunksFrom n m ([] : List β) = [] := fun m => by cases m <;> rfl
        rw [hnil, hempty, List.flatMap_nil, List.append_nil, List.map_nil,
          List.take_of_length_le (by omega), List.drop_eq_nil_of_le (by omega), hempty']

theorem length_flatMap_chunksOf (hn : 0 < n) {f : List α → List β}
    (hf : ∀ c, (f c).length = c.length) (xs : List α) :
    ((chunksOf n xs).flatMap f).length = xs.length := by
  conv_rhs => rw [← flatten_chunksOf hn xs]
  rw [List.length_flatMap, List.length_flatten]
  exact congrArg List.sum (List.map_congr_left fun c _ => hf c)

theorem chunksOf_flatMap (hn : 0 < n) {f : List α → List β} (hf : ∀ c, (f c).length = c.length)
    (xs : List α) : chunksOf n ((chunksOf n xs).flatMap f) = (chunksOf n xs).map f := by
  rw [chunksOf, length_flatMap_chunksOf hn hf]
  exact chunksFrom_flatMap hn hf _ _ _ le_rfl le_rfl

/-- Undoing a length-preserving map chunk by chunk. -/
theorem flatMap_chunksOf_inverse (hn : 0 < n) {f : List α → List β} {g : List β → List α}
    (hf : ∀ c, (f c).length = c.length) (hgf : ∀ c, g (f c) = c) (xs : List α) :
    (chunksOf n ((chunksOf n xs).flatMap f)).flatMap g = xs := by
  rw [chunksOf_flatMap hn hf, List.flatMap_map]
  conv_rhs => rw [← flatten_chunksOf hn xs]
  rw [List.flatMap, List.map_congr_left fun c _ => hgf c, List.map_id']

theorem chunksFrom_flatten_eq (hn : 0 < n) (cs : List (List α)) : ∀ fuel,
    (∀ c ∈ cs, c.length = n) → cs.flatten.length ≤ fuel → chunksFrom n fuel cs.flatten = cs := by
  induction cs with
  | nil => intro fuel _ _; cases fuel <;> rfl
  | cons c cs ih =>
    intro fuel hcs hfuel
    have hc : c.length = n := hcs c List.mem_cons_self
    rw [List.flatten_cons, List.length_append] at hfuel
    obtain ⟨k, rfl⟩ : ∃ k, fuel = k + 1 := ⟨fuel - 1, by omega⟩
    obtain ⟨y, ys, rfl⟩ := List.exists_cons_of_length_pos (hc ▸ hn)
    have hcons : (y :: ys) ++ cs.flatten = y :: (ys ++ cs.flatten) := rfl
    rw [List.flatten_cons, hcons, chunksFrom, ← hcons, List.take_left' hc, List.drop_left' hc,
      ih k (fun c h => hcs c (List.mem_cons_of_mem _ h)) (by omega)]

/-- Chunks of full length are found again in their concatenation. -/
theorem chunksOf_flatten (hn : 0 < n) {cs : List (List α)} (hcs : ∀ c ∈ cs, c.length = n) :
    chunksOf n cs.flatten = cs :=
  chunksFrom_flatten_eq hn cs _ hcs le_rfl

theorem chunksFrom_full (fuel : Nat) : ∀ xs : List α, n ∣ xs.length →
    ∀ c ∈ chunksFrom n fuel xs, c.length = n := by
  induction fuel with
  | zero => intro xs _ c hc; cases hc
  | succ fuel ih =>
    intro xs hdvd c hc
    cases xs with
    | nil => cases hc
    | cons x xs =>
      have hle : n ≤ (x :: xs).length := Nat.le_of_dvd (Nat.succ_pos _) hdvd
      rcases List.mem_cons.mp hc with rfl | hc
      · rw [List.length_take, Nat.min_eq_left hle]
      · refine ih _ ?_ c hc
        rw [List.length_drop]
        exact Nat.dvd_sub hdvd (dvd_refl n)

theorem chunksOf_full {xs : List α} (h : n ∣ xs.length) :
    ∀ c ∈ chunksOf n xs, c.length = n :=
  chunksFrom_full _ _ h

end Chunks

/-! ## Cipher block chaining -/

/-- A block cipher with its key: blocks are the strings of length `blockSize`. -/
structure BlockCipher where
  encrypt : Bytes → Bytes
  decrypt : Bytes → Bytes

def BlockCipher.Lawful (blockSize : Nat) (c : BlockCipher) : Prop :=
  ∀ b : Bytes, b.length = blockSize → (c.encrypt b).length = blockSize ∧ c.decrypt (c.encrypt b) = b

/-- The cipher with its two directions exchanged. -/
def BlockCipher.flip (c : BlockCipher) : BlockCipher := ⟨c.decrypt, c.encrypt⟩

/-- Encryption and decryption are inverse permutations of the blocks. -/
def BlockCipher.Permutes (blockSize : Nat) (c : BlockCipher) : Prop :=
  c.Lawful blockSize ∧ c.flip.Lawful blockSize

def xorBytes (a b : Bytes) : Bytes := List.zipWith (· ^^^ ·) a b

theorem xorBytes_cancel {a : Bytes} : ∀ {b : Bytes}, a.length = b.length →
    xorBytes (xorBytes a b) b = a := by
  induction a with
  | nil => intro b _; rfl
  | cons x a ih =>
    intro b h
    cases b with
    | nil => cases h
    | cons y b =>
      have hxy : (x ^^^ y) ^^^ y = x := by rw [UInt8.xor_assoc, UInt8.xor_self, UInt8.xor_zero]
      exact congrArg₂ List.cons hxy (ih (Nat.succ.inj h))

def cbcEncrypt (c : BlockCipher) : (iv : Bytes) → List Bytes → List Bytes
  | _, [] => []
  | iv, b :: bs =>
      let e := c.encrypt (xorBytes b iv)
      e :: cbcEncrypt c e bs

def cbcDecrypt (c : BlockCipher) : (iv : Bytes) → List Bytes → List Bytes
  | _, [] => []
  | iv, e :: es => xorBytes (c.decrypt e) iv :: cbcDecrypt c e es

theorem cbcEncrypt_lengths {c : BlockCipher} {m : Nat} (hc : c.Lawful m) (bs : List Bytes) :
    ∀ iv : Bytes, iv.length = m → (∀ b ∈ bs, b.length = m) →
      (cbcEncrypt c iv bs).map List.length = bs.map List.length := by
  induction bs with
  | nil => exact fun _ _ _ => rfl
  | cons b bs ih =>
    intro iv hiv hbs
    have hb : b.length = m := hbs b List.mem_cons_self
    have hx : (xorBytes b iv).length = m := by
      rw [xorBytes, List.length_zipWith]
      omega
    have he := (hc _ hx).1
    rw [cbcEncrypt, List.map_cons, List.map_cons, he, hb,
      ih _ he fun b hb => hbs b (List.mem_cons_of_mem _ hb)]

theorem cbcDecrypt_cbcEncrypt {c : BlockCipher} {m : Nat} (hc : c.Lawful m) (bs : List Bytes) :
    ∀ iv : Bytes, iv.length = m → (∀ b ∈ bs, b.length = m) →
      cbcDecrypt c iv (cbcEncrypt c iv bs) = bs := by
  induction bs with
  | nil => exact fun _ _ _ => rfl
  | cons b bs ih =>
    intro iv hiv hbs
    have hb : b.length = m := hbs b List.mem_cons_self
    have hx : (xorBytes b iv).length = m := by
      rw [xorBytes, List.length_zipWith]
      omega
    obtain ⟨he, hdec⟩ := hc _ hx
    rw [cbcEncrypt, cbcDecrypt, hdec, xorBytes_cancel (by omega),
      ih _ he fun b hb => hbs b (List.mem_cons_of_mem _ hb)]

theorem cbcDecrypt_lengths {c : BlockCipher} {m : Nat} (hc : c.flip.Lawful m) (es : List Bytes) :
    ∀ iv : Bytes, iv.length = m → (∀ e ∈ es, e.length = m) →
      (cbcDecrypt c iv es).map List.length = es.map List.length := by
  induction es with
  | nil => exact fun _ _ _ => rfl
  | cons e es ih =>
    intro iv hiv hes
    have he : e.length = m := hes e List.mem_cons_self
    have hd : (c.decrypt e).length = m := (hc e he).1
    have hx : (xorBytes (c.decrypt e) iv).length = m := by
      rw [xorBytes, List.length_zipWith]
      omega
    rw [cbcDecrypt, List.map_cons, List.map_cons, hx, he,
      ih e he fun e he => hes e (List.mem_cons_of_mem _ he)]

theorem cbcEncrypt_cbcDecrypt {c : BlockCipher} {m : Nat} (hc : c.flip.Lawful m) (es : List Bytes) :
    ∀ iv : Bytes, iv.length = m → (∀ e ∈ es, e.length = m) →
      cbcEncrypt c iv (cbcDecrypt c iv es) = es := by
  induction es with
  | nil => exact fun _ _ _ => rfl
  | cons e es ih =>
    intro iv hiv hes
    have he : e.length = m := hes e List.mem_cons_self
    obtain ⟨hd, henc⟩ := hc e he
    have hlen : (c.decrypt e).length = iv.length := by
      rw [hiv]
      exact hd
    have hblock : c.encrypt (xorBytes (xorBytes (c.decrypt e) iv) iv) = e := by
      rw [xorBytes_cancel hlen]
      exact henc
    rw [cbcDecrypt, cbcEncrypt, hblock, ih e he fun e he => hes e (List.mem_cons_of_mem _ he)]

/-! ## Whole strings -/

/-- CBC over a string of whole blocks. -/
def cbcEncryptBytes (blockSize : Nat) (c : BlockCipher) (iv data : Bytes) : Bytes :=
  (cbcEncrypt c iv (chunksOf blockSize data)).flatten

def cbcDecryptBytes (blockSize : Nat) (c : BlockCipher) (iv data : Bytes) : Bytes :=
  (cbcDecrypt c iv (chunksOf blockSize data)).flatten

section Bytes

variable {c : BlockCipher} {m : Nat} {iv data : Bytes}

theorem length_cbcEncryptBytes (hm : 0 < m) (hc : c.Lawful m) (hiv : iv.length = m)
    (hdata : m ∣ data.length) : (cbcEncryptBytes m c iv data).length = data.length := by
  rw [cbcEncryptBytes, List.length_flatten,
    cbcEncrypt_lengths hc _ iv hiv (chunksOf_full hdata), ← List.length_flatten,
    flatten_chunksOf hm]

theorem cbcDecryptBytes_cbcEncryptBytes (hm : 0 < m) (hc : c.Lawful m) (hiv : iv.length = m)
    (hdata : m ∣ data.length) :
    cbcDecryptBytes m c iv (cbcEncryptBytes m c iv data) = data := by
  have hfull := chunksOf_full hdata
  have hlens := cbcEncrypt_lengths hc _ iv hiv hfull
  have hcipher : ∀ e ∈ cbcEncrypt c iv (chunksOf m data), e.length = m := by
    intro e he
    have hmem := List.mem_map_of_mem (f := List.length) he
    rw [hlens] at hmem
    obtain ⟨b, hb, hlen⟩ := List.mem_map.mp hmem
    rw [← hlen, hfull b hb]
  rw [cbcDecryptBytes, cbcEncryptBytes, chunksOf_flatten hm hcipher,
    cbcDecrypt_cbcEncrypt hc _ iv hiv hfull, flatten_chunksOf hm]

theorem length_cbcDecryptBytes (hm : 0 < m) (hc : c.flip.Lawful m) (hiv : iv.length = m)
    (hdata : m ∣ data.length) : (cbcDecryptBytes m c iv data).length = data.length := by
  rw [cbcDecryptBytes, List.length_flatten,
    cbcDecrypt_lengths hc _ iv hiv (chunksOf_full hdata), ← List.length_flatten,
    flatten_chunksOf hm]

theorem cbcEncryptBytes_cbcDecryptBytes (hm : 0 < m) (hc : c.flip.Lawful m) (hiv : iv.length = m)
    (hdata : m ∣ data.length) :
    cbcEncryptBytes m c iv (cbcDecryptBytes m c iv data) = data := by
  have hfull := chunksOf_full hdata
  have hlens := cbcDecrypt_lengths hc _ iv hiv hfull
  have hplain : ∀ b ∈ cbcDecrypt c iv (chunksOf m data), b.length = m := by
    intro b hb
    have hmem := List.mem_map_of_mem (f := List.length) hb
    rw [hlens] at hmem
    obtain ⟨e, he, hlen⟩ := List.mem_map.mp hmem
    rw [← hlen, hfull e he]
  rw [cbcEncryptBytes, cbcDecryptBytes, chunksOf_flatten hm hplain,
    cbcEncrypt_cbcDecrypt hc _ iv hiv hfull, flatten_chunksOf hm]

end Bytes

/-! ## The whole blocks of a chunk -/

/-- `f` on the whole blocks of a chunk; the rest of the chunk is kept. -/
def onWholeBlocks (blockSize : Nat) (f : Bytes → Bytes) (chunk : Bytes) : Bytes :=
  let wholeLength := chunk.length - chunk.length % blockSize
  f (chunk.take wholeLength) ++ chunk.drop wholeLength

section Whole

variable {m : Nat} {f g : Bytes → Bytes}

theorem length_take_whole (m : Nat) (c : Bytes) :
    (c.take (c.length - c.length % m)).length = c.length - c.length % m := by
  rw [List.length_take, Nat.min_eq_left (Nat.sub_le _ _)]

theorem length_onWholeBlocks (hf : ∀ c : Bytes, m ∣ c.length → (f c).length = c.length)
    (c : Bytes) : (onWholeBlocks m f c).length = c.length := by
  have hdvd : m ∣ (c.take (c.length - c.length % m)).length := by
    rw [length_take_whole]
    exact Nat.dvd_sub_mod _
  rw [onWholeBlocks, List.length_append, hf _ hdvd, length_take_whole, List.length_drop]
  omega

theorem onWholeBlocks_inverse (hf : ∀ c : Bytes, m ∣ c.length → (f c).length = c.length)
    (hgf : ∀ c : Bytes, m ∣ c.length → g (f c) = c) (c : Bytes) :
    onWholeBlocks m g (onWholeBlocks m f c) = c := by
  have hdvd : m ∣ (c.take (c.length - c.length % m)).length := by
    rw [length_take_whole]
    exact Nat.dvd_sub_mod _
  have hlen : (f (c.take (c.length - c.length % m))).length = c.length - c.length % m := by
    rw [hf _ hdvd, length_take_whole]
  rw [onWholeBlocks, length_onWholeBlocks hf]
  simp only [onWholeBlocks]
  rw [List.take_left' hlen, List.drop_left' hlen, hgf _ hdvd, List.take_append_drop]

end Whole

/-! ## A cipher given by pairs of blocks -/

/-- Exchange the two blocks of a pair. -/
def swapPair (p : Bytes × Bytes) (b : Bytes) : Bytes :=
  if b = p.1 then p.2 else if b = p.2 then p.1 else b

/-- The blocks of each pair are exchanged, pair by pair. -/
def swapCipher (pairs : List (Bytes × Bytes)) : BlockCipher where
  encrypt b := pairs.foldl (fun b p => swapPair p b) b
  decrypt b := pairs.foldr swapPair b

theorem swapPair_swapPair (p : Bytes × Bytes) (b : Bytes) : swapPair p (swapPair p b) = b := by
  unfold swapPair
  by_cases h₁ : b = p.1
  · by_cases h₂ : p.2 = p.1 <;> simp [h₁, h₂]
  · by_cases h₂ : b = p.2 <;> simp [h₁, h₂]

theorem length_swapPair {m : Nat} {p : Bytes × Bytes} (hp : p.1.length = m ∧ p.2.length = m)
    {b : Bytes} (hb : b.length = m) : (swapPair p b).length = m := by
  unfold swapPair
  split
  · exact hp.2
  · split
    · exact hp.1
    · exact hb

theorem swapCipher_permutes {m : Nat} {pairs : List (Bytes × Bytes)}
    (h : ∀ p ∈ pairs, p.1.length = m ∧ p.2.length = m) : (swapCipher pairs).Permutes m := by
  constructor
  · intro b hb
    show (pairs.foldl (fun b p => swapPair p b) b).length = m ∧
      pairs.foldr swapPair (pairs.foldl (fun b p => swapPair p b) b) = b
    induction pairs generalizing b with
    | nil => exact ⟨hb, rfl⟩
    | cons p pairs ih =>
      have hlen := length_swapPair (h p List.mem_cons_self) hb
      obtain ⟨hlength, hinverse⟩ := ih (fun q hq => h q (List.mem_cons_of_mem _ hq)) _ hlen
      refine ⟨hlength, ?_⟩
      rw [List.foldr_cons, List.foldl_cons, hinverse, swapPair_swapPair]
  · intro b hb
    show (pairs.foldr swapPair b).length = m ∧
      pairs.foldl (fun b p => swapPair p b) (pairs.foldr swapPair b) = b
    induction pairs with
    | nil => exact ⟨hb, rfl⟩
    | cons p pairs ih =>
      obtain ⟨hlength, hinverse⟩ := ih fun q hq => h q (List.mem_cons_of_mem _ hq)
      refine ⟨length_swapPair (h p List.mem_cons_self) hlength, ?_⟩
      rw [List.foldr_cons, List.foldl_cons, swapPair_swapPair, hinverse]

end TimeCapsule.Lib
