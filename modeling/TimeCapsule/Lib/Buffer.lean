import TimeCapsule.Lib.Bytes

/-!
# Buffers of a fixed capacity

A writer takes the bytes written so far and appends to them, or fails when its buffer is full.  What
it would append does not depend on the buffer, so a sequence of writers fits exactly when all its
bytes do.
-/

namespace TimeCapsule.Lib

abbrev Writer := Bytes → Option Bytes

def appendBytes (cap : Nat) (src : Bytes) : Writer := fun out =>
  if cap < out.length + src.length then none else some (out ++ src)

/-- One writer after the other. -/
def Writer.andThen (p q : Writer) : Writer := fun out => (p out).bind q

/-- The writers of a list, in order. -/
def writeAll : List Writer → Writer
  | [] => some
  | p :: ps => p.andThen (writeAll ps)

/-- The writer appends these bytes, whatever is in the buffer, or finds it full; without bytes it
always fails. -/
def Renders (cap : Nat) (p : Writer) (bytes : Option Bytes) : Prop :=
  ∀ out, out.length ≤ cap → p out = bytes.bind fun b => appendBytes cap b out

section Rules

variable {cap : Nat} {p q : Writer} {a b out out' : Bytes} {x y : Option Bytes}

theorem appendBytes_eq_some :
    appendBytes cap a out = some out' ↔ out.length + a.length ≤ cap ∧ out' = out ++ a := by
  unfold appendBytes
  by_cases h : cap < out.length + a.length
  · rw [if_pos h]
    constructor
    · exact nofun
    · intro h'
      omega
  · rw [if_neg h, Option.some.injEq]
    exact ⟨fun h' => ⟨by omega, h'.symm⟩, fun h' => h'.2.symm⟩

theorem appendBytes_eq_none : appendBytes cap a out = none ↔ cap < out.length + a.length := by
  unfold appendBytes
  split <;> simp [*]

/-- Appending in two parts or at once. -/
theorem appendBytes_bind :
    (appendBytes cap a out).bind (appendBytes cap b) = appendBytes cap (a ++ b) out := by
  by_cases ha : cap < out.length + a.length
  · rw [appendBytes_eq_none.mpr ha, Option.bind_none, eq_comm, appendBytes_eq_none,
      List.length_append]
    omega
  · rw [appendBytes_eq_some.mpr ⟨by omega, rfl⟩, Option.bind_some]
    unfold appendBytes
    rw [List.append_assoc, List.length_append, List.length_append, Nat.add_assoc]

theorem renders_appendBytes (cap : Nat) (a : Bytes) : Renders cap (appendBytes cap a) (some a) :=
  fun _ _ => rfl

theorem renders_none : Renders cap (fun _ => none) none := fun _ _ => rfl

theorem renders_nil : Renders cap some (some []) := by
  intro out hout
  apply Eq.symm
  show appendBytes cap [] out = some out
  rw [appendBytes_eq_some]
  simp [hout]

theorem Renders.andThen (hp : Renders cap p x) (hq : Renders cap q y) :
    Renders cap (p.andThen q) (x.bind fun a => y.map (a ++ ·)) := by
  intro out hout
  rw [Writer.andThen, hp out hout]
  cases x with
  | none => rfl
  | some a =>
    simp only [Option.bind_some]
    cases h : appendBytes cap a out with
    | none =>
      cases y with
      | none => rfl
      | some b =>
        rw [Option.map_some, Option.bind_some, Option.bind_none, eq_comm, ← appendBytes_bind, h]
        rfl
    | some out' =>
      obtain ⟨hlen, rfl⟩ := appendBytes_eq_some.mp h
      rw [Option.bind_some, hq _ (by rw [List.length_append]; exact hlen)]
      cases y with
      | none => rfl
      | some b =>
        rw [Option.bind_some, Option.map_some, Option.bind_some, ← appendBytes_bind, h]
        rfl

theorem Renders.cons {ps : List Writer} (hp : Renders cap p x) (hps : Renders cap (writeAll ps) y) :
    Renders cap (writeAll (p :: ps)) (x.bind fun a => y.map (a ++ ·)) :=
  hp.andThen hps

theorem Renders.congr (hp : Renders cap p x) (hx : x = y) : Renders cap p y := hx ▸ hp

/-- What a successful writer has written. -/
theorem Renders.eq_some (hp : Renders cap p x) (hout : out.length ≤ cap) :
    p out = some out' ↔ ∃ a, x = some a ∧ out.length + a.length ≤ cap ∧ out' = out ++ a := by
  rw [hp out hout, Option.bind_eq_some_iff]
  exact exists_congr fun a => and_congr_right fun _ => appendBytes_eq_some

end Rules

end TimeCapsule.Lib
