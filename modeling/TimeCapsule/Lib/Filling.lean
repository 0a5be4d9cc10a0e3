import TimeCapsule.Lib.Buffer

/-!
# Filling a buffer in place

A buffer of a fixed size with the offset up to which it is filled, and a count of what is in it.  A
function that fails may have written behind the offset that it was given, but nothing before it, so
the caller can put the old offset back.
-/

namespace TimeCapsule.Lib

structure Filling where
  buf : Bytes
  off : Nat
  count : Nat

/-- What is in the buffer up to the offset. -/
def Filling.filled (s : Filling) : Bytes := s.buf.take s.off

/-- Whether a function succeeded, and the buffer as it leaves it. -/
abbrev Fill := Filling → Bool × Filling

namespace Fill

def done : Fill := fun s => (true, s)

def fail : Fill := fun s => (false, s)

def append (cap : Nat) (src : Bytes) : Fill := fun s =>
  if cap < s.off + src.length then (false, s)
  else (true, { s with
    buf := setSlice s.buf s.off (s.off + src.length) src, off := s.off + src.length })

/-- The second function runs when the first one has succeeded. -/
def andThen (f g : Fill) : Fill := fun s => if (f s).1 then g (f s).2 else f s

def inOrder : List Fill → Fill
  | [] => done
  | f :: fs => f.andThen (inOrder fs)

def counted (n : Nat) : Fill := fun s => (true, { s with count := s.count + n })

/-- The length of what the function appends is written in front of it, once it is known. -/
def sized (cap : Nat) (f : Fill) : Fill := fun s =>
  let start := append cap (be16 0) s
  if !start.1 then start
  else
    let data := f start.2
    if !data.1 then data
    else (true, { data.2 with
      buf := setSlice data.2.buf s.off (s.off + 2) (be16 (data.2.off - start.2.off)) })

end Fill

/-- The offset is inside the buffer. -/
structure Filling.Sound (cap : Nat) (s : Filling) : Prop where
  length : s.buf.length = cap
  off : s.off ≤ cap

/-- The buffer before the offset is as it was. -/
structure Filling.Keeps (cap : Nat) (s s' : Filling) : Prop where
  sound : s'.Sound cap
  off : s.off ≤ s'.off
  filled : s'.buf.take s.off = s.filled

/-- The function appends these bytes and counts `n`, or fails when they do not fit; without bytes it
always fails. -/
structure Fills (cap : Nat) (f : Fill) (x : Option Bytes) (n : Nat) : Prop where
  keeps : ∀ s : Filling, s.Sound cap → s.Keeps cap (f s).2
  succeeds : ∀ s : Filling, s.Sound cap → ((f s).1 = true ↔ ∃ b, x = some b ∧ s.off + b.length ≤ cap)
  fills : ∀ s : Filling, s.Sound cap → ∀ b, x = some b → s.off + b.length ≤ cap →
    (f s).2.filled = s.filled ++ b ∧ (f s).2.count = s.count + n

section Rules

variable {cap n m : Nat} {s s' s'' : Filling} {f g : Fill} {x y : Option Bytes} {b : Bytes}

theorem Filling.Sound.length_filled (h : s.Sound cap) : s.filled.length = s.off := by
  rw [Filling.filled, List.length_take, h.length, Nat.min_eq_left h.off]

theorem Filling.Keeps.refl (h : s.Sound cap) : s.Keeps cap s := ⟨h, le_rfl, rfl⟩

theorem Filling.Keeps.trans (h : s.Keeps cap s') (h' : s'.Keeps cap s'') : s.Keeps cap s'' where
  sound := h'.sound
  off := h.off.trans h'.off
  filled := by
    have hfront : s''.buf.take s.off = (s''.buf.take s'.off).take s.off := by
      rw [List.take_take, Nat.min_eq_left h.off]
    rw [hfront, h'.filled, Filling.filled, List.take_take, Nat.min_eq_left h.off, h.filled]

theorem fills_append (b : Bytes) : Fills cap (Fill.append cap b) (some b) 0 where
  keeps s hs := by
    unfold Fill.append
    split
    · exact .refl hs
    · next hfit =>
      have hlen : s.off + b.length ≤ s.buf.length := by
        rw [hs.length]
        omega
      refine ⟨⟨?_, by dsimp only; omega⟩, Nat.le_add_right _ _, ?_⟩
      · rw [length_setSlice (Nat.le_add_right _ _) hlen (by omega), hs.length]
      · exact take_setSlice (by omega) le_rfl
  succeeds s hs := by
    unfold Fill.append
    split
    · next hfull =>
      refine iff_of_false Bool.false_ne_true ?_
      rintro ⟨b', hb', hfit⟩
      obtain rfl := Option.some.inj hb'
      omega
    · next hfit => exact iff_of_true rfl ⟨b, rfl, by omega⟩
  fills s hs b' hb' hfit := by
    obtain rfl := Option.some.inj hb'
    have hlen : s.off + b.length ≤ s.buf.length := by
      rw [hs.length]
      exact hfit
    unfold Fill.append
    rw [if_neg (by omega)]
    refine ⟨?_, rfl⟩
    show (setSlice s.buf s.off (s.off + b.length) b).take (s.off + b.length) = _
    rw [setSlice, List.take_left' (by simp only [List.length_append, List.length_take]; omega)]
    rfl

theorem Fills.andThen (hf : Fills cap f x n) (hg : Fills cap g y m) :
    Fills cap (f.andThen g) (x.bind fun a => y.map (a ++ ·)) (n + m) where
  keeps s hs := by
    have hfirst := hf.keeps s hs
    unfold Fill.andThen
    split
    · exact hfirst.trans (hg.keeps _ hfirst.sound)
    · exact hfirst
  succeeds s hs := by
    have hsound := (hf.keeps s hs).sound
    unfold Fill.andThen
    cases hok : (f s).1 with
    | false =>
      rw [if_neg Bool.false_ne_true, hok]
      refine iff_of_false Bool.false_ne_true ?_
      rintro ⟨b, hb, hfit⟩
      obtain ⟨a, rfl, hb⟩ := Option.bind_eq_some_iff.mp hb
      obtain ⟨c, -, rfl⟩ := Option.map_eq_some_iff.mp hb
      rw [List.length_append] at hfit
      have hyes := (hf.succeeds s hs).mpr ⟨a, rfl, by omega⟩
      rw [hok] at hyes
      cases hyes
    | true =>
      obtain ⟨a, rfl, hfit⟩ := (hf.succeeds s hs).mp hok
      obtain ⟨hfilled, -⟩ := hf.fills s hs a rfl hfit
      have hoff : (f s).2.off = s.off + a.length := by
        rw [← hsound.length_filled, hfilled, List.length_append, hs.length_filled]
      rw [if_pos rfl, hg.succeeds _ hsound, hoff]
      simp only [Option.bind_some]
      constructor
      · rintro ⟨c, rfl, hc⟩
        exact ⟨a ++ c, rfl, by rw [List.length_append]; omega⟩
      · rintro ⟨b, hb, hc⟩
        obtain ⟨c, rfl, rfl⟩ := Option.map_eq_some_iff.mp hb
        rw [List.length_append] at hc
        exact ⟨c, rfl, by omega⟩
  fills s hs b hb hfit := by
    obtain ⟨a, rfl, hb⟩ := Option.bind_eq_some_iff.mp hb
    obtain ⟨c, rfl, rfl⟩ := Option.map_eq_some_iff.mp hb
    rw [List.length_append] at hfit
    have hsound := (hf.keeps s hs).sound
    obtain ⟨hfilled, hcount⟩ := hf.fills s hs a rfl (by omega)
    have hoff : (f s).2.off = s.off + a.length := by
      rw [← hsound.length_filled, hfilled, List.length_append, hs.length_filled]
    have hok := (hf.succeeds s hs).mpr ⟨a, rfl, by omega⟩
    obtain ⟨hfilled', hcount'⟩ := hg.fills _ hsound c rfl (by omega)
    unfold Fill.andThen
    rw [if_pos hok]
    exact ⟨by rw [hfilled', hfilled, List.append_assoc], by rw [hcount', hcount, Nat.add_assoc]⟩

theorem Fills.congr (h : Fills cap f x n) (hxy : x = y) (hnm : n = m) : Fills cap f y m :=
  hxy ▸ hnm ▸ h

theorem Fills.cons {fs : List Fill} (hf : Fills cap f x n) (hfs : Fills cap (Fill.inOrder fs) y m) :
    Fills cap (Fill.inOrder (f :: fs)) (x.bind fun a => y.map (a ++ ·)) (n + m) := hf.andThen hfs

theorem setSlice_append {old : Bytes} {n : Nat} (before after : Bytes) (new : Bytes)
    (hold : old.length = n) :
    setSlice (before ++ (old ++ after)) before.length (before.length + n) new =
      before ++ (new ++ after) := by
  rw [setSlice, List.take_left, ← hold, ← List.length_append, ← List.append_assoc before old,
    List.drop_left, List.append_assoc]

theorem sized_eq (s : Filling) :
    Fill.sized cap f s =
      if (((Fill.append cap (be16 0)).andThen f) s).1 then
        (true, { (((Fill.append cap (be16 0)).andThen f) s).2 with
          buf := setSlice (((Fill.append cap (be16 0)).andThen f) s).2.buf s.off (s.off + 2)
            (be16 ((((Fill.append cap (be16 0)).andThen f) s).2.off -
              (Fill.append cap (be16 0) s).2.off)) })
      else ((Fill.append cap (be16 0)).andThen f) s := by
  unfold Fill.sized Fill.andThen
  cases hstart : (Fill.append cap (be16 0) s).1 with
  | false => simp [hstart]
  | true =>
    cases hdata : (f (Fill.append cap (be16 0) s).2).1 <;> simp only [hstart, hdata, Bool.not_true, Bool.not_false, Bool.false_eq_true, if_false, if_true]

/-- The patched length is the length of the data. -/
theorem Fills.sized (hf : Fills cap f x n) :
    Fills cap (Fill.sized cap f) (x.map fun a => be16 a.length ++ a) n := by
  have hg : Fills cap ((Fill.append cap (be16 0)).andThen f) (x.map (be16 0 ++ ·)) n :=
    ((fills_append (be16 0)).andThen hf).congr (by rw [Option.bind_some]) (Nat.zero_add n)
  have hoff : ∀ s : Filling, s.Sound cap → (((Fill.append cap (be16 0)).andThen f) s).1 = true →
      ∃ a, x = some a ∧ s.off + 2 + a.length ≤ cap ∧ (Fill.append cap (be16 0) s).2.off = s.off + 2 ∧
        (((Fill.append cap (be16 0)).andThen f) s).2.off = s.off + 2 + a.length ∧
        (((Fill.append cap (be16 0)).andThen f) s).2.filled = s.filled ++ (be16 0 ++ a) ∧
        (((Fill.append cap (be16 0)).andThen f) s).2.count = s.count + n := by
    intro s hs hok
    obtain ⟨b, hb, hfit⟩ := (hg.succeeds s hs).mp hok
    obtain ⟨a, ha, rfl⟩ := Option.map_eq_some_iff.mp hb
    rw [List.length_append, length_be16] at hfit
    obtain ⟨hfilled, hcount⟩ := hg.fills s hs _ hb (by rw [List.length_append, length_be16]; exact hfit)
    refine ⟨a, ha, by omega, ?_, ?_, hfilled, hcount⟩
    · unfold Fill.append
      rw [if_neg (by rw [length_be16]; omega)]
      rfl
    · rw [← (hg.keeps s hs).sound.length_filled, hfilled, List.length_append, List.length_append,
        hs.length_filled, length_be16]
      omega
  constructor
  · intro s hs
    have hkeeps := hg.keeps s hs
    rw [sized_eq]
    split
    · next hok =>
      obtain ⟨a, -, hfit, -, hend, -, -⟩ := hoff s hs hok
      have hlen : s.off + 2 ≤ (((Fill.append cap (be16 0)).andThen f) s).2.buf.length := by
        rw [hkeeps.sound.length]
        omega
      refine ⟨⟨?_, hkeeps.sound.off⟩, hkeeps.off, ?_⟩
      · rw [length_setSlice (Nat.le_add_right _ _) hlen (by rw [length_be16]; omega),
          hkeeps.sound.length]
      · rw [take_setSlice (by omega) le_rfl, hkeeps.filled]
    · exact hkeeps
  · intro s hs
    have hsucceeds := hg.succeeds s hs
    have hlength : (∃ b, x.map (be16 0 ++ ·) = some b ∧ s.off + b.length ≤ cap) ↔
        ∃ b, (x.map fun a => be16 a.length ++ a) = some b ∧ s.off + b.length ≤ cap := by
      cases x <;> simp
    rw [← hlength, ← hsucceeds, sized_eq]
    split
    · next hok => exact iff_of_true rfl hok
    · exact Iff.rfl
  · intro s hs b hb hfit
    obtain ⟨a, rfl, rfl⟩ := Option.map_eq_some_iff.mp hb
    rw [List.length_append, length_be16] at hfit
    have hok := (hg.succeeds s hs).mpr ⟨be16 0 ++ a, rfl, by
      rw [List.length_append, length_be16]
      exact hfit⟩
    obtain ⟨a', ha', -, hstart, hend, hfilled, hcount⟩ := hoff s hs hok
    obtain rfl := Option.some.inj ha'
    rw [sized_eq, if_pos hok]
    refine ⟨?_, hcount⟩
    have hlen : (((Fill.append cap (be16 0)).andThen f) s).2.buf.length = cap :=
      (hg.keeps s hs).sound.length
    generalize ((Fill.append cap (be16 0)).andThen f) s = g at hend hfilled hlen
    have hbuf : g.2.buf = s.filled ++ (be16 0 ++ (a ++ g.2.buf.drop g.2.off)) := by
      rw [← List.append_assoc (be16 0), ← List.append_assoc s.filled, ← hfilled]
      exact (List.take_append_drop _ _).symm
    have hfront : s.filled.length = s.off := hs.length_filled
    have hpatched : setSlice g.2.buf s.off (s.off + 2) (be16 a.length) =
        s.filled ++ (be16 a.length ++ a) ++ g.2.buf.drop g.2.off := by
      conv_lhs => rw [hbuf]
      rw [← hfront, setSlice_append s.filled _ _ (length_be16 0)]
      simp only [List.append_assoc]
    unfold Filling.filled
    dsimp only
    rw [hstart, hend, Nat.add_sub_cancel_left, hpatched]
    refine List.take_left' ?_
    rw [List.length_append, List.length_append, hfront, length_be16]
    omega

end Rules

end TimeCapsule.Lib
