import TimeCapsule.Lib.Bytes
import TimeCapsule.Lib.Except

/-!
# Reads that are checked

A program that reads bytes at offsets of a buffer faults where a read is not inside the buffer.  A
reader is specified by what it finds behind its offset.
-/

namespace TimeCapsule.Lib

inductive Fault where
  | outOfBounds
deriving DecidableEq, Repr

/-- A computation that may read outside of its buffer. -/
abbrev Checked := Except Fault

def byteAt (data : Bytes) (off : Nat) : Checked UInt8 := data[off]?.elim (.error .outOfBounds) .ok

/-- `memcpy` of `n` bytes from the offset. -/
def bytesAt (data : Bytes) (off n : Nat) : Checked Bytes :=
  if off + n ≤ data.length then .ok (slice data off (off + n)) else .error .outOfBounds

/-- `ntohs` of the two bytes at the offset. -/
def wordAt (data : Bytes) (off : Nat) : Checked UInt16 :=
  (bytesAt data off 2).map fun bs => UInt16.ofNat (ofBe bs)

/-- The reader does not fault, and finds exactly what this relation says. -/
def Finds {α : Type} (x : Checked (Option α)) (found : α → Prop) : Prop :=
  ∃ r, x = .ok r ∧ ∀ a, r = some a ↔ found a

/-- One reading after another, when the first one finds something. -/
def thenRead {α β : Type} (x : Checked (Option α)) (f : α → Checked (Option β)) :
    Checked (Option β) := x >>= fun found => found.elim (.ok none) f

@[simp] theorem ok_bind {α β : Type} (a : α) (f : α → Checked β) : (.ok a >>= f : Checked β) = f a := rfl

section Reads

variable {data rest : Bytes} {off n : Nat}

theorem byteAt_eq {b : UInt8} (h : data.drop off = b :: rest) : byteAt data off = .ok b := by
  have hget : data[off]? = some b := by
    rw [← Nat.add_zero off, ← List.getElem?_drop, h]
    rfl
  rw [byteAt, hget]
  rfl

theorem drop_eq_cons (h : off < data.length) : ∃ b, data.drop off = b :: data.drop (off + 1) :=
  ⟨data[off], List.drop_eq_getElem_cons h⟩

theorem bytesAt_eq (h : off + n ≤ data.length) : bytesAt data off n = .ok ((data.drop off).take n) := by
  rw [bytesAt, if_pos h, slice_add]

theorem wordAt_eq {w : UInt16} (h : data.drop off = be16 w.toNat ++ rest) : wordAt data off = .ok w := by
  have hlen : off + 2 ≤ data.length := by
    have hdrop := congrArg List.length h
    rw [List.length_drop, List.length_append, length_be16] at hdrop
    omega
  rw [wordAt, bytesAt_eq hlen, h, List.take_left' (length_be16 _)]
  show Except.ok (UInt16.ofNat (ofBe (be16 w.toNat))) = _
  rw [ofBe_be16 w.toNat_lt, UInt16.ofNat_toNat]

theorem exists_be16 (h : off + 2 ≤ data.length) :
    ∃ w : UInt16, data.drop off = be16 w.toNat ++ data.drop (off + 2) := by
  obtain ⟨a, ha⟩ := drop_eq_cons (show off < data.length by omega)
  obtain ⟨b, hb⟩ := drop_eq_cons (show off + 1 < data.length by omega)
  refine ⟨UInt16.ofNat (a.toNat * 256 + b.toNat), ?_⟩
  have ha' := a.toNat_lt
  have hb' := b.toNat_lt
  rw [ha, hb, UInt16.toNat_ofNat', Nat.mod_eq_of_lt (by omega)]
  show a :: b :: _ = UInt8.ofNat _ :: UInt8.ofNat _ :: _
  congr 1
  · rw [← UInt8.toNat_inj, UInt8.toNat_ofNat']
    omega
  congr 1
  rw [← UInt8.toNat_inj, UInt8.toNat_ofNat']
  omega

end Reads

/-- A concatenation is in front of a list if its parts are there in order. -/
theorem append_isPrefix_iff {α : Type} {x y z : List α} :
    x ++ y <+: z ↔ x <+: z ∧ y <+: z.drop x.length := by
  constructor
  · rintro ⟨t, rfl⟩
    rw [List.append_assoc, List.drop_left]
    exact ⟨List.prefix_append _ _, List.prefix_append _ _⟩
  · rintro ⟨⟨t, rfl⟩, h⟩
    rw [List.drop_left] at h
    exact (List.prefix_append_right_inj x).mpr h

section Finds

variable {α β : Type} {found found' : α → Prop}

theorem finds_none (h : ∀ a, ¬found a) : Finds (.ok none : Checked (Option α)) found := by
  refine ⟨none, rfl, fun a => ?_⟩
  simp [h a]

theorem finds_some {a : α} (h : ∀ a', a = a' ↔ found a') : Finds (.ok (some a) : Checked (Option α)) found :=
  ⟨some a, rfl, fun a' => Option.some_inj.trans (h a')⟩

theorem Finds.congr {x : Checked (Option α)} (h : Finds x found) (hiff : ∀ a, found a ↔ found' a) :
    Finds x found' := by
  obtain ⟨r, hx, hr⟩ := h
  exact ⟨r, hx, fun a => (hr a).trans (hiff a)⟩

theorem Finds.map {x : Checked (Option α)} (h : Finds x found) (f : α → β) :
    Finds (x.map (·.map f)) fun b => ∃ a, found a ∧ f a = b := by
  obtain ⟨r, rfl, hr⟩ := h
  exact ⟨r.map f, rfl, fun b => Option.map_eq_some_iff.trans (exists_congr fun a => and_congr_left fun _ => hr a)⟩

theorem Finds.then_finds {x : Checked (Option α)} {f : α → Checked (Option β)} {M : α → β → Prop}
    (h : Finds x found) (hf : ∀ a, found a → Finds (f a) (M a)) :
    Finds (thenRead x f) fun b => ∃ a, found a ∧ M a b := by
  obtain ⟨r, rfl, hr⟩ := h
  cases r with
  | none =>
    apply finds_none
    rintro b ⟨a, ha, -⟩
    cases (hr a).mpr ha
  | some a =>
    have ha : found a := (hr a).mp rfl
    apply (hf a ha).congr
    intro b
    constructor
    · exact fun hb => ⟨a, ha, hb⟩
    · rintro ⟨a', ha', hb⟩
      rwa [Option.some.inj ((hr a').mpr ha')]

/-- What a reader finds at the front of `r`: something with its text, and what is left behind it. -/
def Front (G : α → Bytes → Prop) (r : Bytes) (found : α × Bytes) : Prop :=
  ∃ text, G found.1 text ∧ r = text ++ found.2

theorem Finds.front_congr {G G' : α → Bytes → Prop} {r : Bytes} {x : Checked (Option (α × Bytes))}
    (h : Finds x (Front G r)) (hiff : ∀ a text, G a text ↔ G' a text) : Finds x (Front G' r) :=
  h.congr fun p => exists_congr fun text => and_congr_left fun _ => hiff p.1 text

/-- One reader behind another reads both texts. -/
theorem Finds.front_then {G : α → Bytes → Prop} {H : α → β → Bytes → Prop} {r : Bytes}
    {x : Checked (Option (α × Bytes))} {f : α × Bytes → Checked (Option (β × Bytes))}
    (h : Finds x (Front G r)) (hf : ∀ a rest, Finds (f (a, rest)) (Front (H a) rest)) :
    Finds (thenRead x f)
      (Front (fun b text => ∃ a first second, G a first ∧ H a b second ∧ text = first ++ second) r) := by
  apply (h.then_finds fun p _ => hf p.1 p.2).congr
  rintro ⟨b, rest⟩
  constructor
  · rintro ⟨⟨a, _⟩, ⟨first, hfirst, hr⟩, second, hsecond, rfl⟩
    exact ⟨first ++ second, ⟨a, first, second, hfirst, hsecond, rfl⟩, by rw [hr, List.append_assoc]⟩
  · rintro ⟨_, ⟨a, first, second, hfirst, hsecond, rfl⟩, hr⟩
    exact ⟨(a, second ++ rest), ⟨first, hfirst, by rw [hr, List.append_assoc]⟩, second, hsecond, rfl⟩

/-- What has been found once is all that there is. -/
theorem Finds.unique {x : Checked (Option α)} (h : Finds x found) {a a' : α} (ha : found a)
    (ha' : found a') : a = a' := by
  obtain ⟨r, -, hr⟩ := h
  exact Option.some_inj.mp (((hr a).mpr ha).symm.trans ((hr a').mpr ha'))

theorem Finds.eq_some {x : Checked (Option α)} (h : Finds x found) {a : α} (ha : found a) :
    x = .ok (some a) := by
  obtain ⟨r, rfl, hr⟩ := h
  rw [(hr a).mpr ha]

theorem Finds.eq_none {x : Checked (Option α)} (h : Finds x found) (hno : ∀ a, ¬found a) :
    x = .ok none := by
  obtain ⟨r, rfl, hr⟩ := h
  rw [Option.eq_none_iff_forall_ne_some.mpr fun a ha => hno a ((hr a).mp ha)]

end Finds

end TimeCapsule.Lib
