import TimeCapsule.Mdns.DecodeMemory
import TimeCapsule.Mdns.Message
import TimeCapsule.Mdns.Responder

/-!
# Building a response

The records of a route are put into one packet.  A response to a legacy querier has the questions of
its query as they stood there, with the pointers in their names.
-/

namespace TimeCapsule.Mdns

open Lib

def legacyUnicastTtlMax : UInt32 := 10

/-! ## The code -/

/-- The class and the time to live that a record is sent with. -/
def PlannedRr.sent (rr : PlannedRr) (legacyUnicast : Bool) : Record :=
  if legacyUnicast then
    { rr.record with
      rrclass := classOf rr.record.rrclass
      ttl := if legacyUnicastTtlMax < rr.record.ttl then legacyUnicastTtlMax else rr.record.ttl }
  else rr.record

def addPlannedRrToPacket (replyCap : Nat) (rr : PlannedRr) (legacyUnicast : Bool) : Writer :=
  let record := rr.sent legacyUnicast
  writeAll [encodeName replyCap record.owner, appendU16 replyCap record.type,
    appendU16 replyCap record.rrclass, appendU32 replyCap record.ttl,
    appendU16 replyCap (UInt16.ofNat record.rdata.length), appendBytes replyCap record.rdata]

/-- The loop over the planned records, with the packet and the number of answers so far. -/
def addPlannedRrs (replyCap : Nat) (route : Route) (legacyUnicast : Bool) :
    PlannedRrSet → Bytes → (answers : Nat) → Option (Bytes × Nat)
  | [], reply, answers => some (reply, answers)
  | rr :: planned, reply, answers =>
      if !rr.routes.has route then addPlannedRrs replyCap route legacyUnicast planned reply answers
      else
        match addPlannedRrToPacket replyCap rr legacyUnicast reply with
        | none => none
        | some reply => addPlannedRrs replyCap route legacyUnicast planned reply (answers + 1)

/-- The questions are copied, for a legacy querier. -/
def echoesQuestions (legacyUnicast : Bool) (questions : Questions) : Bool :=
  legacyUnicast && decide (0 < questions.count)

/-- The packet before its first record. -/
def startReply (replyCap : Nat) (legacyUnicast : Bool) (questions : Questions) : Option Bytes :=
  if !echoesQuestions legacyUnicast questions then some (zeros sizeofDnsHeader)
  else if questions.bytes = [] then none
  else appendBytes replyCap questions.bytes (zeros sizeofDnsHeader)

/-- The packet and the number of its answers; the header is written last. -/
def buildPlannedResponsePacket (replyCap : Nat) (responseId : UInt16) (route : Route)
    (legacyUnicast : Bool) (questions : Questions) (planned : PlannedRrSet) : Option (Bytes × Nat) := do
  let start ← startReply replyCap legacyUnicast questions
  let (reply, answers) ← addPlannedRrs replyCap route legacyUnicast planned start 0
  let qdcount := if echoesQuestions legacyUnicast questions then questions.count else 0
  return (responseHeader responseId qdcount answers ++ reply.drop sizeofDnsHeader, answers)

/-! ## What is read back -/

/-- The records of a route, as they are sent. -/
def sentRecords (planned : PlannedRrSet) (route : Route) : List Record :=
  (planned.filter (·.routes.has route)).map (·.sent (route == .legacyUnicast))

/-- What `struct planned_rr_set` has room for. -/
structure StorableSet (planned : PlannedRrSet) : Prop where
  count : planned.length ≤ plannedRrMax
  owner : ∀ rr ∈ planned, rr.record.owner.length < maxName
  zero : ∀ rr ∈ planned, 0 ∉ rr.record.owner
  rdata : ∀ rr ∈ planned, rr.record.rdata.length ≤ plannedRdataMax

/-- The questions that are asked mean the same between other bytes. -/
def Carried (asked : List Question) (echoed before behind : Bytes) : Prop :=
  ∃ cursor, readQuestions (before ++ (echoed ++ behind)) asked.length before.length =
    some (asked, cursor)

section Rules

variable {replyCap : Nat} {route : Route} {planned : PlannedRrSet} {rr : PlannedRr}
  {legacyUnicast : Bool}

/-! ## What is built -/

theorem encodeNameFrom_full {name : Bytes} {escaped : Bool} {label out : Bytes}
    (hout : replyCap < out.length) : encodeNameFrom replyCap name escaped label out = none := by
  have hfull : ∀ bytes, appendBytes replyCap bytes out = none := fun bytes =>
    appendBytes_eq_none.mpr (by omega)
  induction name generalizing escaped label with
  | nil =>
    cases escaped with
    | true => rfl
    | false =>
      unfold encodeNameFrom Writer.andThen
      split <;> simp [hfull]
  | cons ch rest ih =>
    cases escaped with
    | true =>
      unfold encodeNameFrom
      split
      · rfl
      · exact ih
    | false =>
      unfold encodeNameFrom
      split
      · exact ih
      split
      · split
        · split
          · exact hfull _
          · rfl
        · simp [hfull, Writer.andThen]
      split
      · rfl
      · exact ih

theorem renders_addPlannedRrToPacket (hrdata : rr.record.rdata.length < 2 ^ 16) :
    Renders replyCap (addPlannedRrToPacket replyCap rr legacyUnicast) (rr.sent legacyUnicast).encode := by
  have hsent : (rr.sent legacyUnicast).rdata = rr.record.rdata := by
    unfold PlannedRr.sent
    split <;> rfl
  have hlength : (UInt16.ofNat (rr.sent legacyUnicast).rdata.length).toNat =
      (rr.sent legacyUnicast).rdata.length := by
    rw [hsent]
    exact UInt16.toNat_ofNat_of_lt' hrdata
  unfold addPlannedRrToPacket
  refine ((renders_encodeName replyCap _).cons ((renders_appendBytes replyCap _).cons
    ((renders_appendBytes replyCap _).cons ((renders_appendBytes replyCap _).cons
    ((renders_appendBytes replyCap _).cons ((renders_appendBytes replyCap _).cons renders_nil)))))).congr ?_
  unfold Record.encode
  rw [hlength]
  cases wireName (rr.sent legacyUnicast).owner <;> simp

/-- A record that has been added is behind what was in the packet. -/
theorem addPlannedRrToPacket_eq_some {out out' : Bytes} (hrdata : rr.record.rdata.length < 2 ^ 16)
    (h : addPlannedRrToPacket replyCap rr legacyUnicast out = some out') :
    ∃ wire, (rr.sent legacyUnicast).encode = some wire ∧ out' = out ++ wire := by
  by_cases hout : out.length ≤ replyCap
  · obtain ⟨wire, hwire, -, hsame⟩ := ((renders_addPlannedRrToPacket hrdata).eq_some hout).mp h
    exact ⟨wire, hwire, hsame⟩
  · have hnone : encodeName replyCap (rr.sent legacyUnicast).owner out = none := by
      unfold encodeName
      split
      · rfl
      · exact encodeNameFrom_full (Nat.not_le.mp hout)
    unfold addPlannedRrToPacket writeAll Writer.andThen at h
    rw [hnone] at h
    cases h

theorem addPlannedRrs_eq_some {start reply : Bytes} {count answers : Nat}
    (hrdata : ∀ rr ∈ planned, rr.record.rdata.length < 2 ^ 16)
    (h : addPlannedRrs replyCap route legacyUnicast planned start count = some (reply, answers)) :
    ∃ wire, encodeAll ((planned.filter (·.routes.has route)).map (·.sent legacyUnicast)) = some wire ∧
      reply = start ++ wire ∧ answers = count + (planned.filter (·.routes.has route)).length := by
  induction planned generalizing start count with
  | nil =>
    obtain ⟨rfl, rfl⟩ := Prod.mk.inj (Option.some.inj h)
    exact ⟨[], rfl, (List.append_nil _).symm, rfl⟩
  | cons rr planned ih =>
    obtain ⟨hfirst, hrest⟩ := List.forall_mem_cons.mp hrdata
    unfold addPlannedRrs at h
    by_cases hroute : rr.routes.has route
    · rw [hroute] at h
      simp only [Bool.not_true, Bool.false_eq_true, if_false] at h
      cases hadd : addPlannedRrToPacket replyCap rr legacyUnicast start with
      | none =>
        rw [hadd] at h
        cases h
      | some next =>
        rw [hadd] at h
        obtain ⟨wire, hwire, rfl⟩ := addPlannedRrToPacket_eq_some hfirst hadd
        obtain ⟨later, hlater, rfl, rfl⟩ := ih hrest h
        have hfilter : (rr :: planned).filter (·.routes.has route) =
            rr :: planned.filter (·.routes.has route) := List.filter_cons_of_pos hroute
        refine ⟨wire ++ later, ?_, List.append_assoc _ _ _, ?_⟩
        · rw [hfilter, List.map_cons, encodeAll, hwire, Option.bind_some, hlater, Option.map_some]
        · rw [hfilter, List.length_cons]
          omega
    · have hfilter : (rr :: planned).filter (·.routes.has route) =
          planned.filter (·.routes.has route) := List.filter_cons_of_neg hroute
      rw [Bool.not_eq_true] at hroute
      rw [hroute] at h
      simp only [Bool.not_false, if_true] at h
      rw [hfilter]
      exact ih hrest h

/-- The packet has the header, the questions of a legacy querier, and the records. -/
theorem buildPlannedResponsePacket_eq_some {responseId : UInt16} {questions : Questions} {reply : Bytes}
    {answers : Nat} (hplanned : StorableSet planned)
    (hempty : questions.count = 0 → questions.bytes = [])
    (h : buildPlannedResponsePacket replyCap responseId route (route == .legacyUnicast) questions
      planned = some (reply, answers)) :
    ∃ wire, encodeAll (sentRecords planned route) = some wire ∧
      answers = (sentRecords planned route).length ∧
      reply = responseHeader responseId (if route = .legacyUnicast then questions.count else 0) answers ++
        ((if route = .legacyUnicast then questions.bytes else []) ++ wire) := by
  have hrdata : ∀ rr ∈ planned, rr.record.rdata.length < 2 ^ 16 := by
    intro rr hrr
    have hlen := hplanned.rdata rr hrr
    unfold plannedRdataMax at hlen
    omega
  unfold buildPlannedResponsePacket at h
  obtain ⟨start, hstart, h⟩ := Option.bind_eq_some_iff.mp h
  obtain ⟨⟨filled, count⟩, hadded, h⟩ := Option.bind_eq_some_iff.mp h
  obtain ⟨rfl, rfl⟩ := Prod.mk.inj (Option.some.inj h)
  obtain ⟨wire, hwire, rfl, rfl⟩ := addPlannedRrs_eq_some hrdata hadded
  have hlength : (sentRecords planned route).length = (planned.filter (·.routes.has route)).length :=
    List.length_map _
  refine ⟨wire, hwire, by rw [hlength, Nat.zero_add], ?_⟩
  by_cases hlegacy : route = .legacyUnicast
  · have htrue : (route == Route.legacyUnicast) = true := beq_iff_eq.mpr hlegacy
    unfold startReply at hstart
    simp only [htrue, echoesQuestions, Bool.true_and] at hstart ⊢
    rw [if_pos hlegacy, if_pos hlegacy]
    by_cases hcount : 0 < questions.count
    · rw [decide_eq_true hcount] at hstart ⊢
      simp only [Bool.not_true, Bool.false_eq_true, if_false] at hstart
      split at hstart
      · cases hstart
      · obtain ⟨-, rfl⟩ := appendBytes_eq_some.mp hstart
        rw [if_pos rfl, List.append_assoc, List.drop_left' (length_zeros _)]
    · have hzero : questions.count = 0 := Nat.eq_zero_of_not_pos hcount
      rw [decide_eq_false hcount] at hstart ⊢
      obtain rfl := Option.some.inj hstart
      rw [if_neg Bool.false_ne_true, hempty hzero, hzero, List.drop_left' (length_zeros _),
        List.nil_append]
  · have hfalse : (route == Route.legacyUnicast) = false := beq_eq_false_iff_ne.mpr hlegacy
    unfold startReply at hstart
    simp only [hfalse, echoesQuestions, Bool.false_and] at hstart ⊢
    rw [if_neg hlegacy, if_neg hlegacy]
    obtain rfl := Option.some.inj hstart
    rw [if_neg Bool.false_ne_true, List.drop_left' (length_zeros _), List.nil_append]

end Rules

/-- The questions of a query that is planned have been read. -/
theorem readQuestions_of_planQuestions {cfg : Config} {q : Query} {fqdns : Service → Bytes}
    {qdcount cursor next : Nat} {set set' : PlannedRrSet}
    (h : planQuestions cfg q fqdns qdcount cursor set = some (set', next)) :
    ∃ asked, readQuestions q.packet qdcount cursor = some (asked, next) := by
  induction qdcount generalizing cursor set with
  | zero =>
    obtain ⟨-, rfl⟩ := Prod.mk.inj (Option.some.inj h)
    exact ⟨[], rfl⟩
  | succ qdcount ih =>
    unfold planQuestions at h
    cases hname : decodeName q.packet cursor maxName with
    | none =>
      rw [hname] at h
      cases h
    | some found =>
      obtain ⟨name, fields⟩ := found
      rw [hname] at h
      dsimp only at h
      by_cases hfit : q.packet.length < fields + 4
      · rw [if_pos hfit] at h
        cases h
      rw [if_neg hfit] at h
      have hrest : ∃ asked, readQuestions q.packet qdcount (fields + 4) = some (asked, next) := by
        split at h
        · exact ih h
        · split at h
          · cases h
          · exact ih h
      obtain ⟨asked, hasked⟩ := hrest
      refine ⟨⟨name, u16At q.packet fields, u16At q.packet (fields + 2)⟩ :: asked, ?_⟩
      rw [readQuestions, readQuestion, hname]
      simp only [Option.bind_eq_bind, Option.bind_some, if_neg hfit, hasked, Option.pure_def]

/-! ## Names that stay inside the questions -/

/-- A name is read without leaving a part of the packet. -/
inductive StaysIn (packet : Bytes) (lo hi : Nat) : (pos : Nat) → Prop where
  | root {pos : Nat} (hlo : lo ≤ pos) (hhi : pos < hi) (h : packet[pos]? = some 0) :
      StaysIn packet lo hi pos
  | label {pos : Nat} {len : UInt8} (hlo : lo ≤ pos) (h : packet[pos]? = some len)
      (hpos : 0 < len.toNat) (hle : len.toNat ≤ maxLabel) (hhi : pos + 1 + len.toNat ≤ hi)
      (hrest : StaysIn packet lo hi (pos + 1 + len.toNat)) : StaysIn packet lo hi pos
  | pointer {pos : Nat} {len low : UInt8} (hlo : lo ≤ pos) (hhi : pos + 2 ≤ hi)
      (h : packet[pos]? = some len) (htag : len &&& 0xC0 = 0xC0) (hlow : packet[pos + 1]? = some low)
      (hrest : StaysIn packet lo hi ((len &&& 0x3F).toNat * 256 + low.toNat)) :
      StaysIn packet lo hi pos

/-- The names of the questions stay inside the questions. -/
def NamesStayIn (query : Bytes) (hi : Nat) : (count cursor : Nat) → Prop
  | 0, _ => True
  | count + 1, cursor => StaysIn query sizeofDnsHeader hi cursor ∧
      ∀ question next, readQuestion query cursor = some (question, next) →
        NamesStayIn query hi count next

section Inside

variable {packet packet' : Bytes} {lo hi pos : Nat}

theorem StaysIn.bounds (h : StaysIn packet lo hi pos) : lo ≤ pos ∧ pos < hi := by
  cases h <;> omega

theorem slice_congr (hsame : ∀ i, lo ≤ i → i < hi → packet'[i]? = packet[i]?) {i j : Nat}
    (hi' : lo ≤ i) (hj : j ≤ hi) : slice packet' i j = slice packet i j := by
  unfold slice
  refine List.ext_getElem? fun n => ?_
  by_cases hn : n < j - i
  · rw [List.getElem?_take_of_lt hn, List.getElem?_take_of_lt hn, List.getElem?_drop,
      List.getElem?_drop]
    exact hsame (i + n) (by omega) (by omega)
  · rw [List.getElem?_eq_none (by rw [List.length_take]; omega),
      List.getElem?_eq_none (by rw [List.length_take]; omega)]

/-- Such a name is read in the same way between other bytes. -/
theorem StaysIn.decodeNameFrom_congr (h : StaysIn packet lo hi pos)
    (hsame : ∀ i, lo ≤ i → i < hi → packet'[i]? = packet[i]?) (hlen : hi ≤ packet.length)
    (hlen' : hi ≤ packet'.length) (outLen fuel jumps : Nat) (next : Option Nat) (out : Bytes) :
    decodeNameFrom packet' outLen fuel pos jumps next out =
      decodeNameFrom packet outLen fuel pos jumps next out := by
  induction h generalizing fuel jumps next out with
  | @root pos hlo hhi h =>
    cases fuel with
    | zero => rfl
    | succ fuel =>
      have h' := (hsame pos hlo hhi).trans h
      unfold decodeNameFrom
      rw [h, h']
      rfl
  | @label pos len hlo h hpos hle hhi hrest ih =>
    cases fuel with
    | zero => rfl
    | succ fuel =>
      have h' := (hsame pos hlo (by omega)).trans h
      have hdata := slice_congr hsame (show lo ≤ pos + 1 by omega) hhi
      have hroot : len ≠ 0 := by
        rintro rfl
        exact absurd hpos (Nat.lt_irrefl 0)
      have hfit : ∀ n, hi ≤ n → (maxLabel < len.toNat || n < pos + 1 + len.toNat : Bool) = false := by
        intro n hn
        simp only [Bool.or_eq_false_iff, decide_eq_false_iff_not]
        omega
      unfold decodeNameFrom
      rw [h, h']
      dsimp only
      rw [if_neg hroot, if_neg hroot, if_neg (length_not_pointer hle), if_neg (length_not_pointer hle),
        hfit _ hlen, hfit _ hlen', hdata]
      simp only [Bool.false_eq_true, if_false]
      split
      · rfl
      · exact ih _ _ _ _
  | @pointer pos len low hlo hhi h htag hlow hrest ih =>
    cases fuel with
    | zero => rfl
    | succ fuel =>
      have h' := (hsame pos hlo (by omega)).trans h
      have hlow' := (hsame (pos + 1) (by omega) (by omega)).trans hlow
      have hroot : len ≠ 0 := by
        rintro rfl
        exact absurd htag (by decide)
      have hbounds := hrest.bounds
      have hfit : ∀ n, hi ≤ n →
          (n ≤ (len &&& 0x3F).toNat * 256 + low.toNat || 16 < jumps : Bool) = decide (16 < jumps) := by
        intro n hn
        rw [decide_eq_false (by omega), Bool.false_or]
      unfold decodeNameFrom
      rw [h, h', hlow, hlow']
      dsimp only
      rw [if_neg hroot, if_neg hroot, if_pos htag, if_pos htag, hfit _ hlen, hfit _ hlen']
      split
      · rfl
      · exact ih _ _ _ _

theorem StaysIn.decodeName_congr (h : StaysIn packet lo hi pos)
    (hsame : ∀ i, lo ≤ i → i < hi → packet'[i]? = packet[i]?) (hlen : hi ≤ packet.length)
    (hlen' : hi ≤ packet'.length) (outLen : Nat) :
    decodeName packet' pos outLen = decodeName packet pos outLen := by
  have hfuel : 18 * (packet.length + 1) ≤ 18 * (max packet.length packet'.length + 1) := by omega
  have hfuel' : 18 * (packet'.length + 1) ≤ 18 * (max packet.length packet'.length + 1) := by omega
  rw [decodeName_of_fuel hfuel, decodeName_of_fuel hfuel', h.decodeNameFrom_congr hsame hlen hlen']

theorem readQuestions_congr {hi count cursor next : Nat} {questions : List Question}
    (hread : readQuestions packet count cursor = some (questions, next)) (hcursor : sizeofDnsHeader ≤ cursor)
    (hnext : next ≤ hi) (hinside : NamesStayIn packet hi count cursor)
    (hsame : ∀ i, sizeofDnsHeader ≤ i → i < hi → packet'[i]? = packet[i]?) (hlen : hi ≤ packet.length)
    (hlen' : hi ≤ packet'.length) :
    readQuestions packet' count cursor = some (questions, next) := by
  induction count generalizing cursor questions with
  | zero => exact hread
  | succ count ih =>
    obtain ⟨question, middle, rest, rfl, hfirst, hrest⟩ := readQuestions_cons hread
    obtain ⟨-, hmiddle, -⟩ := readQuestions_bounds hrest
    obtain ⟨fields, hname, hfields, -⟩ := readQuestion_eq_some hfirst
    have hbounds := hname.bounds
    have hfirst' : readQuestion packet' cursor = some (question, middle) := by
      rw [← hfirst]
      unfold readQuestion at hfirst ⊢
      obtain ⟨⟨name, fields'⟩, hdecode, hfirst⟩ := Option.bind_eq_some_iff.mp hfirst
      have hfit : fields' + 4 = middle := by
        dsimp only at hfirst
        split at hfirst
        · cases hfirst
        · exact (Prod.mk.inj (Option.some.inj hfirst)).2
      have hbefore := (decodeName_inPlace hdecode).bounds
      rw [hinside.1.decodeName_congr hsame hlen hlen', hdecode]
      simp only [Option.bind_eq_bind, Option.bind_some, u16At]
      rw [slice_congr hsame (by omega) (by omega), slice_congr hsame (by omega) (by omega),
        if_neg (by omega), if_neg (by omega)]
    rw [readQuestions, hfirst']
    simp only [Option.bind_eq_bind, Option.bind_some,
      ih hrest (by omega) (hinside.2 question middle hfirst), Option.pure_def]

/-- Questions whose names do not leave them mean the same between all other bytes. -/
theorem carried_of_stayIn {count cursor : Nat} {asked : List Question}
    (hasked : readQuestions packet count sizeofDnsHeader = some (asked, cursor))
    (hinside : NamesStayIn packet cursor count sizeofDnsHeader) {before : Bytes}
    (hbefore : before.length = sizeofDnsHeader) (behind : Bytes) :
    Carried asked (slice packet sizeofDnsHeader cursor) before behind := by
  obtain ⟨hcount, hcursor, hfit⟩ := readQuestions_bounds hasked
  refine ⟨cursor, ?_⟩
  rw [hcount, hbefore]
  by_cases hzero : count = 0
  · subst hzero
    exact hasked
  have hlen := hfit (Nat.pos_of_ne_zero hzero)
  have hslice : (slice packet sizeofDnsHeader cursor).length = cursor - sizeofDnsHeader :=
    length_slice hlen
  refine readQuestions_congr hasked le_rfl le_rfl hinside (fun i hi hlt => ?_) hlen ?_
  · rw [List.getElem?_append_right (by omega), List.getElem?_append_left (by omega), slice,
      List.getElem?_take_of_lt (by omega), List.getElem?_drop]
    congr 1
    omega
  · rw [List.length_append, List.length_append, hslice]
    omega

end Inside

/-! ## Two queries -/

end TimeCapsule.Mdns
