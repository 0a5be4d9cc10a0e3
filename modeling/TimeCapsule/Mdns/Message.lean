import TimeCapsule.Mdns.Announce
import TimeCapsule.Mdns.DecodeMemory
import TimeCapsule.Mdns.KnownAnswers

/-!
# Reading a message

A message is read from its start: the header, as many questions as it counts, and as many records, each
with a name that `decode_name` reads and the length of its data.  Encoded records are read back, up to
the spelling of their owners.
-/

namespace TimeCapsule.Mdns

open Lib

structure Question where
  name : Bytes
  type : UInt16
  rrclass : UInt16
deriving DecidableEq, Repr

/-- The question at the cursor and the cursor behind it. -/
def readQuestion (packet : Bytes) (cursor : Nat) : Option (Question × Nat) := do
  let (name, cursor) ← decodeName packet cursor maxName
  if packet.length < cursor + 4 then none
  else some (⟨name, u16At packet cursor, u16At packet (cursor + 2)⟩, cursor + 4)

def readQuestions (packet : Bytes) : (count cursor : Nat) → Option (List Question × Nat)
  | 0, cursor => some ([], cursor)
  | count + 1, cursor => do
      let (question, cursor) ← readQuestion packet cursor
      let (questions, cursor) ← readQuestions packet count cursor
      return (question :: questions, cursor)

/-- The record at the cursor and the cursor behind it. -/
def readRecord (packet : Bytes) (cursor : Nat) : Option (Record × Nat) := do
  let (owner, cursor) ← decodeName packet cursor maxName
  let rdlength := (u16At packet (cursor + 8)).toNat
  if packet.length < cursor + 10 + rdlength then none
  else
    some (⟨owner, u16At packet cursor, u16At packet (cursor + 2), u32At packet (cursor + 4),
      slice packet (cursor + 10) (cursor + 10 + rdlength)⟩, cursor + 10 + rdlength)

def readRecords (packet : Bytes) : (count cursor : Nat) → Option (List Record × Nat)
  | 0, cursor => some ([], cursor)
  | count + 1, cursor => do
      let (record, cursor) ← readRecord packet cursor
      let (records, cursor) ← readRecords packet count cursor
      return (record :: records, cursor)

/-- What a message says; `rest` is what is behind the records that the header counts. -/
structure Message where
  id : UInt16
  flags : UInt16
  questions : List Question
  answers : List Record
  nscount : UInt16
  arcount : UInt16
  rest : Bytes
deriving DecidableEq, Repr

def readMessage (packet : Bytes) : Option Message :=
  if packet.length < sizeofDnsHeader then none
  else do
    let (questions, cursor) ← readQuestions packet (u16At packet 4).toNat sizeofDnsHeader
    let (answers, cursor) ← readRecords packet (u16At packet 6).toNat cursor
    return ⟨u16At packet 0, u16At packet 2, questions, answers, u16At packet 8, u16At packet 10,
      packet.drop cursor⟩

/-- The same record: the owners have the same labels. -/
structure SameRecord (a b : Record) : Prop where
  owner : wireName a.owner = wireName b.owner
  type : a.type = b.type
  rrclass : a.rrclass = b.rrclass
  ttl : a.ttl = b.ttl
  rdata : a.rdata = b.rdata

section Rules

variable {before after bytes : Bytes}

/-! ## Fields -/

variable {packet : Bytes} {off : Nat}

theorem decodeName_inPlace {name : Bytes} {cursor next : Nat}
    (h : decodeName packet cursor maxName = some (name, next)) : InPlaceEnd packet cursor next := by
  obtain ⟨found, hfound, heq⟩ := Option.map_eq_some_iff.mp h
  obtain ⟨-, hnext⟩ := decodeNameFrom_ends (Or.inl rfl) hfound
  obtain ⟨-, rfl⟩ := Prod.mk.inj heq
  exact (hnext.resolve_left (Option.some_ne_none _).symm).2

/-- The bytes of a name in its place say where it ends. -/
theorem InPlaceEnd.unique {packet' : Bytes} {pos next next' : Nat} (h : InPlaceEnd packet pos next)
    (hsame : ∀ i, pos ≤ i → i < next → packet'[i]? = packet[i]?) (h' : InPlaceEnd packet' pos next') :
    next' = next := by
  have hpointer : ∀ {len : UInt8}, len &&& 0xC0 = 0xC0 → len ≠ 0 := by
    rintro len htag rfl
    exact absurd htag (by decide)
  induction h with
  | @root pos h =>
    have hhead : packet'[pos]? = some 0 := (hsame pos le_rfl (Nat.lt_succ_self _)).trans h
    cases h' with
    | root _ => rfl
    | pointer h₂ htag _ =>
      rw [hhead] at h₂
      exact absurd (Option.some.inj h₂).symm (hpointer htag)
    | label h₂ hpos _ _ _ =>
      rw [hhead] at h₂
      cases h₂
      exact absurd hpos (Nat.lt_irrefl 0)
  | @pointer pos len low h htag hlow =>
    have hhead : packet'[pos]? = some len := (hsame pos le_rfl (by omega)).trans h
    cases h' with
    | root h₂ =>
      rw [hhead] at h₂
      exact absurd (Option.some.inj h₂) (hpointer htag)
    | pointer _ _ _ => rfl
    | label h₂ _ hle _ _ =>
      rw [hhead] at h₂
      cases h₂
      exact absurd htag (length_not_pointer hle)
  | @label pos next len h hpos hle hfit hrest ih =>
    have hbounds := hrest.bounds
    have hhead : packet'[pos]? = some len := (hsame pos le_rfl (by omega)).trans h
    cases h' with
    | root h₂ =>
      rw [hhead] at h₂
      cases h₂
      exact absurd hpos (Nat.lt_irrefl 0)
    | pointer h₂ htag _ =>
      rw [hhead] at h₂
      cases h₂
      exact absurd htag (length_not_pointer hle)
    | label h₂ _ _ _ hrest' =>
      rw [hhead] at h₂
      cases h₂
      exact ih (fun i hi hlt => hsame i (by omega) hlt) hrest'

theorem readQuestion_eq_some {question : Question} {cursor next : Nat}
    (h : readQuestion packet cursor = some (question, next)) :
    ∃ fields, InPlaceEnd packet cursor fields ∧ next = fields + 4 ∧ next ≤ packet.length := by
  unfold readQuestion at h
  obtain ⟨⟨name, fields⟩, hname, h⟩ := Option.bind_eq_some_iff.mp h
  dsimp only at h
  split at h
  · cases h
  · next hfit =>
    obtain ⟨-, rfl⟩ := Prod.mk.inj (Option.some.inj h)
    exact ⟨fields, decodeName_inPlace hname, rfl, by omega⟩

theorem readQuestions_cons {count cursor next : Nat} {questions : List Question}
    (h : readQuestions packet (count + 1) cursor = some (questions, next)) :
    ∃ question middle rest, questions = question :: rest ∧
      readQuestion packet cursor = some (question, middle) ∧
      readQuestions packet count middle = some (rest, next) := by
  unfold readQuestions at h
  obtain ⟨⟨question, middle⟩, hfirst, h⟩ := Option.bind_eq_some_iff.mp h
  obtain ⟨⟨rest, next'⟩, hrest, h⟩ := Option.bind_eq_some_iff.mp h
  obtain ⟨rfl, rfl⟩ := Prod.mk.inj (Option.some.inj h)
  exact ⟨question, middle, rest, rfl, hfirst, hrest⟩

theorem readQuestions_bounds {count cursor next : Nat} {questions : List Question}
    (h : readQuestions packet count cursor = some (questions, next)) :
    questions.length = count ∧ cursor + count ≤ next ∧ (0 < count → next ≤ packet.length) := by
  induction count generalizing cursor questions with
  | zero =>
    obtain ⟨rfl, rfl⟩ := Prod.mk.inj (Option.some.inj h)
    exact ⟨rfl, le_rfl, fun hpos => absurd hpos (Nat.lt_irrefl 0)⟩
  | succ count ih =>
    obtain ⟨question, middle, rest, rfl, hfirst, hrest⟩ := readQuestions_cons h
    obtain ⟨fields, hname, rfl, hfit⟩ := readQuestion_eq_some hfirst
    obtain ⟨hlength, hle, hbound⟩ := ih hrest
    have hstart := hname.bounds
    refine ⟨by rw [List.length_cons, hlength], by omega, fun _ => ?_⟩
    cases count with
    | zero =>
      obtain ⟨-, rfl⟩ := Prod.mk.inj (Option.some.inj hrest)
      exact hfit
    | succ count => exact hbound (Nat.succ_pos count)

end Rules

end TimeCapsule.Mdns
