import TimeCapsule.Mdns.NameEquality
import TimeCapsule.Mdns.Plan

/-!
# Known answers

A client lists in its query the records it has already.  A planned record loses its routes when one of
these is the same record and has more than half of its time to live left.  Owners, and the names in
PTR and SRV data, are compared as names.
-/

namespace TimeCapsule.Mdns

open Lib

def u16At (packet : Bytes) (off : Nat) : UInt16 := UInt16.ofNat (ofBe (slice packet off (off + 2)))

def u32At (packet : Bytes) (off : Nat) : UInt32 := UInt32.ofNat (ofBe (slice packet off (off + 4)))

/-- A class without its cache-flush bit. -/
def classOf (rrclass : UInt16) : UInt16 := rrclass &&& 0x7FFF

/-! ## The code -/

def knownAnswerTtlIsFresh (knownTtl advertisedTtl : UInt32) : Bool := advertisedTtl / 2 < knownTtl

/-- Whether the name of a known answer at `knownCursor` is the planned one at `plannedCursor`, both
with nothing behind them in the data of their records. -/
def targetMatches (packet : Bytes) (knownCursor rdataEnd : Nat) (rdata : Bytes)
    (plannedCursor : Nat) : Bool :=
  match decodeName packet knownCursor maxName with
  | none => false
  | some (knownName, knownEnd) =>
      match decodeName rdata plannedCursor maxName with
      | none => false
      | some (plannedName, plannedEnd) =>
          if knownEnd ≠ rdataEnd || plannedEnd ≠ rdata.length then false
          else nameEquals knownName plannedName

def plannedRrMatchesKnownAnswer (rr : Record) (owner : Bytes) (type rrclass : UInt16)
    (packet : Bytes) (rdataCursor rdlength : Nat) : Bool :=
  if rr.type ≠ type || classOf rr.rrclass ≠ classOf rrclass || !nameEquals rr.owner owner then false
  else if type = dnsTypePtr then
    targetMatches packet rdataCursor (rdataCursor + rdlength) rr.rdata 0
  else if type = dnsTypeSrv then
    if rdlength < 6 || rr.rdata.length < 6 || packet.length < rdataCursor + rdlength ||
        slice packet rdataCursor (rdataCursor + 6) != rr.rdata.take 6 then false
    else targetMatches packet (rdataCursor + 6) (rdataCursor + rdlength) rr.rdata 6
  else if packet.length < rdataCursor + rdlength then false
  else if rr.rdata.length ≠ rdlength then false
  else slice packet rdataCursor (rdataCursor + rdlength) == rr.rdata

/-- The loop of `suppress_planned_known_answers`, with `answerCount` records to come. -/
def suppressPlannedKnownAnswers (packet : Bytes) :
    (answerCount cursor : Nat) → PlannedRrSet → PlannedRrSet
  | 0, _, planned => planned
  | answerCount + 1, cursor, planned =>
      match decodeName packet cursor maxName with
      | none => planned
      | some (owner, cursor) =>
          if packet.length < cursor + 10 then planned
          else
            let type := u16At packet cursor
            let rrclass := u16At packet (cursor + 2)
            let ttl := u32At packet (cursor + 4)
            let rdlength := (u16At packet (cursor + 8)).toNat
            let rdataCursor := cursor + 10
            if packet.length < rdataCursor + rdlength then planned
            else
              suppressPlannedKnownAnswers packet answerCount (rdataCursor + rdlength)
                (if classOf rrclass ≠ dnsClassIn then planned
                else planned.map fun rr =>
                  if rr.routes = Routes.none || !knownAnswerTtlIsFresh ttl rr.record.ttl then rr
                  else if plannedRrMatchesKnownAnswer rr.record owner type rrclass packet rdataCursor
                      rdlength then { rr with routes := Routes.none }
                  else rr)

/-! ## The records of an answer section -/

/-- A record as it stands in a packet: where its owner and its data begin, and its other fields. -/
structure KnownAnswer where
  packet : Bytes
  ownerAt : Nat
  type : UInt16
  rrclass : UInt16
  ttl : UInt32
  rdataAt : Nat
  rdlength : Nat
deriving DecidableEq, Repr

def KnownAnswer.rdataEnd (ka : KnownAnswer) : Nat := ka.rdataAt + ka.rdlength

/-- The record at `cursor`: a name that decodes, its ten bytes and all its data are in the packet. -/
def recordAt (packet : Bytes) (cursor : Nat) : Option KnownAnswer :=
  match decodeName packet cursor maxName with
  | none => none
  | some (_, fields) =>
      if packet.length < fields + 10 + (u16At packet (fields + 8)).toNat then none
      else some ⟨packet, cursor, u16At packet fields, u16At packet (fields + 2),
        u32At packet (fields + 4), fields + 10, (u16At packet (fields + 8)).toNat⟩

/-- The well-formed prefix of an answer section. -/
def knownAnswers (packet : Bytes) : (answerCount cursor : Nat) → List KnownAnswer
  | 0, _ => []
  | answerCount + 1, cursor =>
      match recordAt packet cursor with
      | none => []
      | some ka => ka :: knownAnswers packet answerCount ka.rdataEnd

/-! ## The same record -/

/-- The name at `cursor` decodes, and `next` is behind it. -/
structure NameAt (packet : Bytes) (cursor next : Nat) (labels : List Bytes) : Prop where
  decodes : ∃ name, decodeName packet cursor maxName = some (name, next)
  reaches : Reaches packet cursor labels

/-- Names with these labels fill both data from the given positions on. -/
structure SameTargets (part : List Bytes → List Bytes) (ka : KnownAnswer) (rr : Record)
    (off : Nat) (labels labels' : List Bytes) : Prop where
  known : NameAt ka.packet (ka.rdataAt + off) ka.rdataEnd labels
  planned : NameAt rr.rdata off rr.rdata.length labels'
  same : SameLabels (part labels) (part labels')

/-- The same data; `part` is what counts of the labels of a name. -/
def SameRdata (part : List Bytes → List Bytes) (ka : KnownAnswer) (rr : Record) : Prop :=
  if rr.type = dnsTypePtr then ∃ labels labels', SameTargets part ka rr 0 labels labels'
  else if rr.type = dnsTypeSrv then
    6 ≤ ka.rdlength ∧ 6 ≤ rr.rdata.length ∧
      slice ka.packet ka.rdataAt (ka.rdataAt + 6) = rr.rdata.take 6 ∧
      ∃ labels labels', SameTargets part ka rr 6 labels labels'
  else slice ka.packet ka.rdataAt ka.rdataEnd = rr.rdata

/-- A known answer that is the planned record; `part` is what counts of the labels of a name. -/
structure Known (part : List Bytes → List Bytes) (ka : KnownAnswer) (rr : Record) : Prop where
  classIn : classOf ka.rrclass = dnsClassIn
  type : rr.type = ka.type
  rrclass : classOf rr.rrclass = classOf ka.rrclass
  owner : ∃ labels, Reaches ka.packet ka.ownerAt labels ∧
    nameEquals rr.owner (presentation (part labels)) = true
  fresh : knownAnswerTtlIsFresh ka.ttl rr.ttl = true
  rdata : SameRdata part ka rr

/-- The records of which one of the known answers is the same lose their routes, and nothing else
changes. -/
def Suppressed (part : List Bytes → List Bytes) (known : List KnownAnswer) :
    PlannedRrSet → PlannedRrSet → Prop :=
  List.Forall₂ fun rr rr' => rr'.record = rr.record ∧
    ((∃ ka ∈ known, Known part ka rr.record) → rr'.routes = Routes.none) ∧
    ((¬∃ ka ∈ known, Known part ka rr.record) → rr'.routes = rr.routes)

section Rules

variable {packet name : Bytes} {cursor next n : Nat} {labels : List Bytes} {rr rr' : PlannedRr}
  {record : Record} {ka : KnownAnswer} {known known' : List KnownAnswer}
  {set set' set'' : PlannedRrSet} {part : List Bytes → List Bytes}

/-! ## Comparing with a known answer -/

theorem NameAt.of_decodes (h : decodeName packet cursor maxName = some (name, next)) :
    ∃ labels, NameAt packet cursor next labels := by
  obtain ⟨labels, hreach, -⟩ := decodeName_reaches h
  exact ⟨labels, ⟨name, h⟩, hreach⟩

theorem canonicalName_presentation_cutAtZero (h : ∀ l ∈ labels, l ≠ []) :
    canonicalName (presentation (cutAtZero labels)) =
      canonicalName ((presentation labels).takeWhile (· != 0)) := by
  rw [canonicalName_takeWhile_presentation h]
  unfold presentation
  split
  · next hnil =>
    rw [hnil]
    rfl
  · rfl

/-- A text is compared with what a decoded name has before its first zero byte. -/
theorem nameEquals_decoded_text {text : Bytes}
    (h : decodeName packet cursor maxName = some (name, next)) (hreach : Reaches packet cursor labels) :
    nameEquals text name = true ↔ nameEquals text (presentation (cutAtZero labels)) = true := by
  obtain ⟨reached, hreached, rfl⟩ := decodeName_reaches h
  obtain rfl := hreached.unique hreach
  have hvalid : ∀ l ∈ reached, l ≠ [] := fun l hl => (hreach.valid l hl).1
  rw [nameEquals_iff, nameEquals_iff, canonicalName_presentation_cutAtZero hvalid]

theorem targetMatches_iff {knownCursor rdataEnd plannedCursor : Nat} {rdata : Bytes} :
    targetMatches packet knownCursor rdataEnd rdata plannedCursor = true ↔
      ∃ labels labels', NameAt packet knownCursor rdataEnd labels ∧
        NameAt rdata plannedCursor rdata.length labels' ∧
        SameLabels (cutAtZero labels) (cutAtZero labels') := by
  unfold targetMatches
  cases hknown : decodeName packet knownCursor maxName with
  | none =>
    refine iff_of_false Bool.false_ne_true ?_
    rintro ⟨labels, labels', ⟨⟨name, hname⟩, -⟩, -⟩
    rw [hknown] at hname
    cases hname
  | some found =>
    obtain ⟨knownName, knownEnd⟩ := found
    cases hplanned : decodeName rdata plannedCursor maxName with
    | none =>
      refine iff_of_false Bool.false_ne_true ?_
      rintro ⟨labels, labels', -, ⟨⟨name, hname⟩, -⟩, -⟩
      rw [hplanned] at hname
      cases hname
    | some found =>
      obtain ⟨plannedName, plannedEnd⟩ := found
      simp only
      by_cases hends : knownEnd = rdataEnd ∧ plannedEnd = rdata.length
      · obtain ⟨rfl, rfl⟩ := hends
        simp only [ne_eq, not_true_eq_false, decide_false, Bool.or_self, Bool.false_eq_true,
          if_false]
        obtain ⟨labels, hlabels⟩ := NameAt.of_decodes hknown
        obtain ⟨labels', hlabels'⟩ := NameAt.of_decodes hplanned
        rw [nameEquals_decoded hknown hplanned hlabels.reaches hlabels'.reaches]
        constructor
        · intro h
          exact ⟨labels, labels', hlabels, hlabels', h⟩
        · rintro ⟨other, other', hother, hother', h⟩
          rw [hlabels.reaches.unique hother.reaches, hlabels'.reaches.unique hother'.reaches]
          exact h
      · have hbad : (decide (knownEnd ≠ rdataEnd) || decide (plannedEnd ≠ rdata.length)) = true := by
          rw [Bool.or_eq_true, decide_eq_true_eq, decide_eq_true_eq]
          by_contra hnone
          rw [not_or, not_not, not_not] at hnone
          exact hends hnone
        rw [if_pos hbad]
        refine iff_of_false Bool.false_ne_true ?_
        rintro ⟨labels, labels', ⟨⟨name, hname⟩, -⟩, ⟨⟨name', hname'⟩, -⟩, -⟩
        rw [hknown] at hname
        rw [hplanned] at hname'
        cases hname
        cases hname'
        exact hends ⟨rfl, rfl⟩

theorem sameTargets_iff {off : Nat} :
    targetMatches ka.packet (ka.rdataAt + off) ka.rdataEnd record.rdata off = true ↔
      ∃ labels labels', SameTargets cutAtZero ka record off labels labels' := by
  rw [targetMatches_iff]
  constructor
  · rintro ⟨labels, labels', hknown, hplanned, hsame⟩
    exact ⟨labels, labels', hknown, hplanned, hsame⟩
  · rintro ⟨labels, labels', hknown, hplanned, hsame⟩
    exact ⟨labels, labels', hknown, hplanned, hsame⟩

/-- The comparison of a planned record with a record whose data are in the packet. -/
theorem matches_iff (howner : decodeName ka.packet ka.ownerAt maxName = some (name, next))
    (hrdata : ka.rdataEnd ≤ ka.packet.length) :
    plannedRrMatchesKnownAnswer record name ka.type ka.rrclass ka.packet ka.rdataAt ka.rdlength =
        true ↔
      record.type = ka.type ∧ classOf record.rrclass = classOf ka.rrclass ∧
        (∃ labels, Reaches ka.packet ka.ownerAt labels ∧
          nameEquals record.owner (presentation (cutAtZero labels)) = true) ∧
        SameRdata cutAtZero ka record := by
  have hname : nameEquals record.owner name = true ↔
      ∃ labels, Reaches ka.packet ka.ownerAt labels ∧
        nameEquals record.owner (presentation (cutAtZero labels)) = true := by
    obtain ⟨labels, hreach, -⟩ := decodeName_reaches howner
    rw [nameEquals_decoded_text howner hreach]
    constructor
    · intro h
      exact ⟨labels, hreach, h⟩
    · rintro ⟨other, hother, h⟩
      rwa [hreach.unique hother]
  have hlength : (slice ka.packet ka.rdataAt ka.rdataEnd).length = ka.rdlength := by
    rw [length_slice hrdata, KnownAnswer.rdataEnd, Nat.add_sub_cancel_left]
  have hinside : ¬ka.packet.length < ka.rdataAt + ka.rdlength := Nat.not_lt.mpr hrdata
  unfold plannedRrMatchesKnownAnswer SameRdata
  by_cases hsame : record.type = ka.type ∧ classOf record.rrclass = classOf ka.rrclass ∧
      nameEquals record.owner name = true
  · obtain ⟨htype, hclass, hequal⟩ := hsame
    simp only [htype, hclass, hequal, ne_eq, not_true_eq_false, decide_false, Bool.not_true,
      Bool.or_self, Bool.false_eq_true, if_false, true_and, hname.mp hequal]
    by_cases hptr : ka.type = dnsTypePtr
    · rw [if_pos hptr, if_pos hptr]
      show targetMatches ka.packet (ka.rdataAt + 0) ka.rdataEnd record.rdata 0 = true ↔ _
      exact sameTargets_iff
    · rw [if_neg hptr, if_neg hptr]
      by_cases hsrv : ka.type = dnsTypeSrv
      · rw [if_pos hsrv, if_pos hsrv, ← sameTargets_iff]
        by_cases hfits : 6 ≤ ka.rdlength ∧ 6 ≤ record.rdata.length ∧
            slice ka.packet ka.rdataAt (ka.rdataAt + 6) = record.rdata.take 6
        · obtain ⟨hsix, hsix', hfirst⟩ := hfits
          simp only [Nat.not_lt.mpr hsix, Nat.not_lt.mpr hsix', hinside, hfirst, hsix, hsix',
            decide_false, Bool.or_self, bne_self_eq_false, Bool.false_eq_true, if_false, true_and]
          exact Iff.rfl
        · have hbad : (decide (ka.rdlength < 6) || decide (record.rdata.length < 6) ||
              decide (ka.packet.length < ka.rdataAt + ka.rdlength) ||
              slice ka.packet ka.rdataAt (ka.rdataAt + 6) != record.rdata.take 6) = true := by
            simp only [Bool.or_eq_true, decide_eq_true_eq, bne_iff_ne]
            by_contra hnone
            simp only [not_or, not_lt, ne_eq, not_not] at hnone
            exact hfits ⟨hnone.1.1.1, hnone.1.1.2, hnone.2⟩
          rw [if_pos hbad]
          exact iff_of_false Bool.false_ne_true fun h => hfits ⟨h.1, h.2.1, h.2.2.1⟩
      · rw [if_neg hsrv, if_neg hsrv, if_neg hinside]
        by_cases hlen : record.rdata.length = ka.rdlength
        · rw [if_neg (not_not.mpr hlen), beq_iff_eq]
          exact Iff.rfl
        · rw [if_pos hlen]
          refine iff_of_false Bool.false_ne_true fun h => hlen ?_
          rw [← h, hlength]
  · have hbad : (decide (record.type ≠ ka.type) ||
        decide (classOf record.rrclass ≠ classOf ka.rrclass) ||
        !nameEquals record.owner name) = true := by
      simp only [Bool.or_eq_true, decide_eq_true_eq, Bool.not_eq_true']
      by_contra hnone
      rw [not_or, not_or, not_not, not_not, Bool.not_eq_false] at hnone
      exact hsame ⟨hnone.1.1, hnone.1.2, hnone.2⟩
    rw [if_pos hbad, ← hname]
    exact iff_of_false Bool.false_ne_true fun h => hsame ⟨h.1, h.2.1, h.2.2.1⟩

/-! ## The loop -/

theorem Suppressed.nil (part : List Bytes → List Bytes) (set : PlannedRrSet) :
    Suppressed part [] set set := by
  refine List.forall₂_same.mpr fun rr _ => ⟨rfl, ?_, fun _ => rfl⟩
  rintro ⟨ka, hka, -⟩
  cases hka

theorem Suppressed.append (h : Suppressed part known set set')
    (h' : Suppressed part known' set' set'') : Suppressed part (known ++ known') set set'' := by
  induction h generalizing set'' with
  | nil =>
    cases h'
    exact List.Forall₂.nil
  | @cons rr rr' set set' hfirst _ ih =>
    obtain _ | ⟨hfirst', hrest'⟩ := h'
    refine List.Forall₂.cons ?_ (ih hrest')
    obtain ⟨hrecord, hlost, hkept⟩ := hfirst
    obtain ⟨hrecord', hlost', hkept'⟩ := hfirst'
    rw [hrecord] at hlost' hkept' hrecord'
    refine ⟨hrecord', ?_, ?_⟩
    · rintro ⟨ka, hka, hknown⟩
      by_cases hlater : ∃ ka ∈ known', Known part ka rr.record
      · exact hlost' hlater
      · have hfirst : ka ∈ known := by
          rcases List.mem_append.mp hka with hka | hka
          · exact hka
          · exact absurd ⟨ka, hka, hknown⟩ hlater
        rw [hkept' hlater]
        exact hlost ⟨ka, hfirst, hknown⟩
    · intro hnone
      rw [hkept', hkept]
      · rintro ⟨ka, hka, hknown⟩
        exact hnone ⟨ka, List.mem_append_left _ hka, hknown⟩
      · rintro ⟨ka, hka, hknown⟩
        exact hnone ⟨ka, List.mem_append_right _ hka, hknown⟩

/-- One round of the loop. -/
def suppressOne (owner : Bytes) (ka : KnownAnswer) (planned : PlannedRrSet) : PlannedRrSet :=
  if classOf ka.rrclass ≠ dnsClassIn then planned
  else planned.map fun rr =>
    if rr.routes = Routes.none || !knownAnswerTtlIsFresh ka.ttl rr.record.ttl then rr
    else if plannedRrMatchesKnownAnswer rr.record owner ka.type ka.rrclass ka.packet ka.rdataAt
        ka.rdlength then { rr with routes := Routes.none }
    else rr

theorem suppressOne_suppresses (howner : decodeName ka.packet ka.ownerAt maxName = some (name, next))
    (hrdata : ka.rdataEnd ≤ ka.packet.length) :
    Suppressed cutAtZero [ka] set (suppressOne name ka set) := by
  have hone : ∀ rr : Record, (∃ k ∈ [ka], Known cutAtZero k rr) ↔ Known cutAtZero ka rr := by
    intro rr
    simp
  unfold suppressOne
  by_cases hclass : classOf ka.rrclass = dnsClassIn
  · rw [if_neg (not_not.mpr hclass)]
    refine List.forall₂_map_right_iff.mpr (List.forall₂_same.mpr fun rr _ => ?_)
    rw [hone]
    by_cases hfresh : knownAnswerTtlIsFresh ka.ttl rr.record.ttl = true
    · by_cases hmatch : plannedRrMatchesKnownAnswer rr.record name ka.type ka.rrclass ka.packet
          ka.rdataAt ka.rdlength = true
      · obtain ⟨htype, hrrclass, hname, hdata⟩ := (matches_iff howner hrdata).mp hmatch
        have hknown : Known cutAtZero ka rr.record :=
          ⟨hclass, htype, hrrclass, hname, hfresh, hdata⟩
        by_cases hroutes : rr.routes = Routes.none
        · rw [if_pos (by rw [decide_eq_true hroutes, Bool.true_or])]
          exact ⟨rfl, fun _ => hroutes, fun h => absurd hknown h⟩
        · rw [decide_eq_false hroutes, hfresh, Bool.not_true, Bool.or_self,
            if_neg Bool.false_ne_true, if_pos hmatch]
          exact ⟨rfl, fun _ => rfl, fun h => absurd hknown h⟩
      · have hunknown : ¬Known cutAtZero ka rr.record := fun h =>
          hmatch ((matches_iff howner hrdata).mpr ⟨h.type, h.rrclass, h.owner, h.rdata⟩)
        rw [if_neg hmatch, ite_self]
        exact ⟨rfl, fun h => absurd h hunknown, fun _ => rfl⟩
    · have hunknown : ¬Known cutAtZero ka rr.record := fun h => hfresh h.fresh
      rw [Bool.eq_false_iff.mpr hfresh, Bool.not_false, Bool.or_true, if_pos rfl]
      exact ⟨rfl, fun h => absurd h hunknown, fun _ => rfl⟩
  · rw [if_pos hclass]
    refine List.forall₂_same.mpr fun rr _ => ?_
    rw [hone]
    exact ⟨rfl, fun h => absurd h.classIn hclass, fun _ => rfl⟩

/-- The loop is one round for each record of the well-formed prefix. -/
theorem suppress_cons (set : PlannedRrSet) (n : Nat) (h : recordAt packet cursor = some ka) :
    ∃ name next, decodeName ka.packet ka.ownerAt maxName = some (name, next) ∧
      ka.rdataEnd ≤ ka.packet.length ∧
      suppressPlannedKnownAnswers packet (n + 1) cursor set =
        suppressPlannedKnownAnswers packet n ka.rdataEnd (suppressOne name ka set) := by
  unfold recordAt at h
  cases hname : decodeName packet cursor maxName with
  | none =>
    rw [hname] at h
    cases h
  | some found =>
    obtain ⟨name, fields⟩ := found
    rw [hname] at h
    simp only at h
    split at h
    · cases h
    · next hfits =>
      cases h
      have hten : ¬packet.length < fields + 10 := by omega
      refine ⟨name, fields, hname, Nat.not_lt.mp hfits, ?_⟩
      rw [suppressPlannedKnownAnswers, hname]
      simp only [if_neg hten, if_neg hfits]
      rfl

theorem suppress_stop (h : recordAt packet cursor = none) :
    suppressPlannedKnownAnswers packet (n + 1) cursor set = set := by
  unfold recordAt at h
  rw [suppressPlannedKnownAnswers]
  cases hname : decodeName packet cursor maxName with
  | none => rfl
  | some found =>
    obtain ⟨name, fields⟩ := found
    rw [hname] at h
    simp only at h ⊢
    split at h
    · next hshort =>
      by_cases hten : packet.length < fields + 10
      · rw [if_pos hten]
      · rw [if_neg hten, if_pos hshort]
    · cases h

/-- The loop suppresses what the well-formed prefix lists, its names cut at zero bytes. -/
theorem suppress_suppresses (packet : Bytes) (n cursor : Nat) (set : PlannedRrSet) :
    Suppressed cutAtZero (knownAnswers packet n cursor) set
      (suppressPlannedKnownAnswers packet n cursor set) := by
  induction n generalizing cursor set with
  | zero => exact .nil _ _
  | succ n ih =>
    rw [knownAnswers]
    cases hrecord : recordAt packet cursor with
    | none =>
      rw [suppress_stop hrecord]
      exact .nil _ _
    | some ka =>
      obtain ⟨name, next, hname, hrdata, hloop⟩ := suppress_cons set n hrecord
      rw [hloop]
      exact Suppressed.append (suppressOne_suppresses hname hrdata) (ih _ _)

/-! ## Whole names -/

/-- Planned records are matched, if at all, by a known answer whose names are the same as a whole. -/
def MatchedWhole (known : List KnownAnswer) (planned : PlannedRrSet) : Prop :=
  ∀ rr ∈ planned, rr.routes ≠ Routes.none → (∃ ka ∈ known, Known cutAtZero ka rr.record) →
    ∃ ka ∈ known, Known id ka rr.record

theorem zero_mem_canonicalName : 0 ∈ canonicalName name ↔ 0 ∈ name := by
  have hzero : ∀ ch : UInt8, asciiLower ch = 0 ↔ ch = 0 := by
    unfold asciiLower
    grind
  rw [canonicalName, List.mem_map]
  constructor
  · rintro ⟨ch, hch, hlower⟩
    rw [(hzero ch).mp hlower] at hch
    exact List.mem_reverse.mp (List.dropWhile_subset _ (List.mem_reverse.mp hch))
  · intro hmem
    refine ⟨0, List.mem_reverse.mpr ?_, (hzero 0).mpr rfl⟩
    -- What is dropped are dots.
    rw [← List.mem_reverse, ← List.takeWhile_append_dropWhile (p := (· == dot)) (l := name.reverse),
      List.mem_append] at hmem
    refine hmem.resolve_left fun hdot => ?_
    exact absurd (List.mem_takeWhile_imp hdot) (by decide)

/-- The owner of a planned record, a text without zero bytes, is not a name with one. -/
theorem owner_cutAtZero {owner : Bytes} (hzero : 0 ∉ owner) (hvalid : ∀ l ∈ labels, l ≠ [])
    (h : nameEquals owner (presentation labels) = true) :
    nameEquals owner (presentation (cutAtZero labels)) = true := by
  rw [nameEquals_iff] at h ⊢
  have hwhole : ∀ ch ∈ presentation labels, (ch != 0) = true := by
    intro ch hch
    rw [bne_iff_ne]
    rintro rfl
    rw [← zero_mem_canonicalName, ← h, zero_mem_canonicalName] at hch
    exact hzero hch
  rw [canonicalName_presentation_cutAtZero hvalid, List.takeWhile_eq_self_iff.mpr hwhole]
  exact h

theorem Known.cutAtZero (hzero : 0 ∉ record.owner) (h : Known id ka record) :
    Known cutAtZero ka record := by
  obtain ⟨hclass, htype, hrrclass, ⟨labels, hreach, hequal⟩, hfresh, hdata⟩ := h
  refine ⟨hclass, htype, hrrclass, ⟨labels, hreach, ?_⟩, hfresh, ?_⟩
  · exact owner_cutAtZero hzero (fun l hl => (hreach.valid l hl).1) hequal
  · have htargets : ∀ off, (∃ labels labels', SameTargets id ka record off labels labels') →
        ∃ labels labels', SameTargets Mdns.cutAtZero ka record off labels labels' := by
      rintro off ⟨labels, labels', hknown, hplanned, hsame⟩
      exact ⟨labels, labels', hknown, hplanned, hsame.cutAtZero⟩
    unfold SameRdata at hdata ⊢
    split
    · next hptr =>
      rw [if_pos hptr] at hdata
      exact htargets 0 hdata
    · next hptr =>
      rw [if_neg hptr] at hdata
      split
      · next hsrv =>
        rw [if_pos hsrv] at hdata
        exact ⟨hdata.1, hdata.2.1, hdata.2.2.1, htargets 6 hdata.2.2.2⟩
      · next hsrv =>
        rwa [if_neg hsrv] at hdata

/-- A set suppressed by names up to their first zero bytes is one suppressed by whole names when it
is matched by whole names. -/
theorem Suppressed.id_iff (hset : ∀ rr ∈ set, 0 ∉ rr.record.owner)
    (h : Suppressed cutAtZero known set set') :
    Suppressed id known set set' ↔ MatchedWhole known set := by
  have hweak : ∀ rr ∈ set, (∃ ka ∈ known, Known id ka rr.record) →
      ∃ ka ∈ known, Known cutAtZero ka rr.record := by
    rintro rr hrr ⟨ka, hka, hknown⟩
    exact ⟨ka, hka, hknown.cutAtZero (hset rr hrr)⟩
  clear hset
  unfold MatchedWhole
  induction h with
  | nil => exact iff_of_true List.Forall₂.nil (by simp)
  | @cons rr rr' set set' hfirst _ ih =>
    obtain ⟨hrecord, hlost, hkept⟩ := hfirst
    rw [List.forall_mem_cons] at hweak
    rw [Suppressed, List.forall₂_cons, List.forall_mem_cons]
    refine and_congr ?_ (ih hweak.2)
    constructor
    · rintro ⟨-, -, hkept'⟩ hroutes hcut
      by_contra hnone
      exact hroutes ((hkept' hnone).symm.trans (hlost hcut))
    · intro hwhole
      refine ⟨hrecord, fun hknown => hlost (hweak.1 hknown), fun hnone => ?_⟩
      by_cases hcut : ∃ ka ∈ known, Known Mdns.cutAtZero ka rr.record
      · by_cases hroutes : rr.routes = Routes.none
        · rw [hlost hcut, hroutes]
        · exact absurd (hwhole hroutes hcut) hnone
      · exact hkept hcut

end Rules

end TimeCapsule.Mdns
