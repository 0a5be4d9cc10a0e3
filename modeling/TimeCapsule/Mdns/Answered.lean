import Mathlib.Algebra.BigOperators.Group.Finset.Basic
import TimeCapsule.Mdns.Hidden
import TimeCapsule.Mdns.Response

/-!
# Responses to a query

The records that the questions of a packet ask for are planned into one set, and the set is sent on each
of its routes in one packet.  All of them are answered, or none.
-/

namespace TimeCapsule.Mdns

open Lib

/-! ## Sending -/

/-- A packet that is handed to a socket. -/
structure Response where
  route : Route
  dest : Endpoint
  reply : Bytes
deriving DecidableEq, Repr

/-- A packet that could not be built is not sent, and one without answers neither. -/
def sendPlannedResponseRoute (send : Send) : Option Response :=
  match buildPlannedResponsePacket bufSize send.responseId send.route (send.route == .legacyUnicast)
      send.questions send.planned with
  | none => none
  | some (reply, answers) => if answers = 0 then none else some ⟨send.route, send.dest, reply⟩

/-- What is sent for a packet: at once or, where its sender is to send more known answers and nothing
else comes, when the response is due. -/
def Query.responses (q : Query) (cfg : Config) (deferred : Option Deferred) : List Response :=
  ((handleQueryAnyScoped cfg deferred q).2 ++
    if q.truncated then ((handleQueryAnyScoped cfg none q).1.elim [] Deferred.flush) else []).filterMap
      sendPlannedResponseRoute

/-! ## What is asked for -/

/-- What a question asks for, on the routes for its answers. -/
def Query.questionAsks (q : Query) (cfg : Config) (fqdns : Service → Bytes) (question : Question) :
    List Ask :=
  if classOf question.rrclass ≠ dnsClassIn && classOf question.rrclass ≠ dnsClassAny then []
  else (askedRecords question.name question.type cfg q.link fqdns).map (·, replyRoute q question.rrclass)

def Query.asks (q : Query) (cfg : Config) (fqdns : Service → Bytes) (questions : List Question) : List Ask :=
  questions.flatMap (q.questionAsks cfg fqdns)

/-- A query of a packet that was received; the records behind its questions are the known answers. -/
structure Query.Asking (q : Query) (questions : List Question) (behind : Nat) : Prop where
  header : sizeofDnsHeader ≤ q.packet.length
  query : q.flags &&& dnsFlagQr = 0
  received : q.packet.length ≤ bufSize
  questions : readQuestions q.packet q.qdcount sizeofDnsHeader = some (questions, behind)

/-- The sender knows the record. -/
def Query.Knows (q : Query) (behind : Nat) (r : Record) : Prop :=
  ∃ ka ∈ Mdns.knownAnswers q.packet q.ancount behind, Known cutAtZero ka r

/-- The questions as they are echoed. -/
def Query.echoed (q : Query) (behind : Nat) : Questions :=
  ⟨slice q.packet sizeofDnsHeader behind, q.qdcount⟩

/-- The record as it is sent on the route. -/
def Record.sentOn (r : Record) (route : Route) : Record :=
  (PlannedRr.mk r Routes.none).sent (route == .legacyUnicast)

/-- The packet is a response with these records, in this order. -/
def Response.Carries (response : Response) (q : Query) (behind : Nat) (records : List Record) : Prop :=
  ∃ wire, encodeAll records = some wire ∧ response.reply =
    responseHeader (if response.route = .multicast then 0 else q.responseId)
        (if response.route = .legacyUnicast then q.qdcount else 0) records.length ++
      ((if response.route = .legacyUnicast then (q.echoed behind).bytes else []) ++ wire)

/-- One packet goes out on the route, to where the route leads, and has the record once. -/
def AnsweredOnce (q : Query) (behind : Nat) (responses : List Response) (route : Route) (r : Record) : Prop :=
  ∃ response records, responses.filter (·.route == route) = [response] ∧
    response.dest = (if route = .multicast then q.multicastDest else q.source) ∧
    response.Carries q behind records ∧ records.count (r.sentOn route) = 1

/-! ## What is due -/

def Record.encodedLength (r : Record) : Nat := (r.encode.getD []).length

open Classical in
/-- The different records that are asked for on the route and not known. -/
noncomputable def dueOn (q : Query) (behind : Nat) (asks : List Ask) (route : Route) : Finset Record :=
  ((asks.filter fun a => a.2.has route ∧ ¬ q.Knows behind a.1).map Prod.fst).toFinset

/-- The bytes of a packet with the records that are due on the route. -/
noncomputable def replySize (q : Query) (behind : Nat) (asks : List Ask) (route : Route) : Nat :=
  sizeofDnsHeader + (if route = .legacyUnicast then behind - sizeofDnsHeader else 0) +
    ∑ r ∈ dueOn q behind asks route, (r.sentOn route).encodedLength

/-! ## Building -/

section Build

variable {route : Route} {planned : PlannedRrSet} {replyCap : Nat} {legacyUnicast : Bool}

/-- The records are added as long as all of them fit. -/
theorem addPlannedRrs_isSome {start : Bytes} {count : Nat}
    (hrdata : ∀ rr ∈ planned, rr.record.rdata.length < 2 ^ 16)
    (hencode : ∀ rr ∈ planned, (rr.sent legacyUnicast).encode.isSome)
    (hfits : start.length + (((planned.filter (·.routes.has route)).map (·.sent legacyUnicast)).map
      Record.encodedLength).sum ≤ replyCap) :
    (addPlannedRrs replyCap route legacyUnicast planned start count).isSome := by
  induction planned generalizing start count with
  | nil => rfl
  | cons rr planned ih =>
    obtain ⟨hfirst, hrest⟩ := List.forall_mem_cons.mp hrdata
    obtain ⟨hencoded, hencodes⟩ := List.forall_mem_cons.mp hencode
    rw [addPlannedRrs]
    by_cases hroute : rr.routes.has route = true
    · have hfilter : (rr :: planned).filter (·.routes.has route) =
          rr :: planned.filter (·.routes.has route) := List.filter_cons_of_pos hroute
      rw [hfilter, List.map_cons, List.map_cons, List.sum_cons] at hfits
      obtain ⟨wire, hwire⟩ := Option.isSome_iff_exists.mp hencoded
      have hlength : (rr.sent legacyUnicast).encodedLength = wire.length := by
        rw [Record.encodedLength, hwire, Option.getD_some]
      have hadd : addPlannedRrToPacket replyCap rr legacyUnicast start = some (start ++ wire) :=
        ((renders_addPlannedRrToPacket hfirst).eq_some (by omega)).mpr ⟨wire, hwire, by omega, rfl⟩
      rw [hroute, hadd]
      simp only [Bool.not_true, Bool.false_eq_true, if_false]
      apply ih hrest hencodes
      rw [List.length_append]
      omega
    · have hfilter : (rr :: planned).filter (·.routes.has route) =
          planned.filter (·.routes.has route) := List.filter_cons_of_neg hroute
      rw [hfilter] at hfits
      rw [if_pos (by simpa using hroute)]
      exact ih hrest hencodes hfits

/-- The packet with everything that is to be sent on the route. -/
def Send.size (send : Send) : Nat :=
  sizeofDnsHeader + (if send.route = .legacyUnicast then send.questions.bytes.length else 0) +
    ((sentRecords send.planned send.route).map Record.encodedLength).sum

variable {send : Send}

/-- The packet before its first record has its questions, if they fit. -/
theorem startReply_eq (hcount : 0 < send.questions.count) (hbytes : send.questions.bytes ≠ []) :
    startReply bufSize (send.route == .legacyUnicast) send.questions =
      if send.route = .legacyUnicast then
        appendBytes bufSize send.questions.bytes (zeros sizeofDnsHeader)
      else some (zeros sizeofDnsHeader) := by
  unfold startReply echoesQuestions
  by_cases hlegacy : send.route = .legacyUnicast
  · rw [if_pos hlegacy, beq_iff_eq.mpr hlegacy, decide_eq_true hcount, if_neg hbytes]
    rfl
  · rw [if_neg hlegacy, beq_eq_false_iff_ne.mpr hlegacy]
    rfl

theorem length_startReply {start : Bytes} (hcount : 0 < send.questions.count)
    (hbytes : send.questions.bytes ≠ [])
    (h : startReply bufSize (send.route == .legacyUnicast) send.questions = some start) :
    start.length ≤ bufSize ∧ start.length = sizeofDnsHeader +
      (if send.route = .legacyUnicast then send.questions.bytes.length else 0) := by
  rw [startReply_eq hcount hbytes] at h
  by_cases hlegacy : send.route = .legacyUnicast
  · rw [if_pos hlegacy] at h ⊢
    obtain ⟨hfits, rfl⟩ := appendBytes_eq_some.mp h
    rw [List.length_append]
    exact ⟨hfits, by rw [length_zeros]⟩
  · rw [if_neg hlegacy] at h ⊢
    rw [← Option.some.inj h, length_zeros]
    exact ⟨by decide, rfl⟩

theorem rdata_lt (hplanned : StorableSet planned) : ∀ rr ∈ planned, rr.record.rdata.length < 2 ^ 16 := by
  intro rr hrr
  have hlen := hplanned.rdata rr hrr
  unfold plannedRdataMax at hlen
  omega

/-- Everything that fits is sent in one packet. -/
theorem sendPlannedResponseRoute_of_fits (hplanned : StorableSet send.planned)
    (hencode : ∀ rr ∈ send.planned, (rr.sent (send.route == .legacyUnicast)).encode.isSome)
    (hcount : 0 < send.questions.count) (hbytes : send.questions.bytes ≠ [])
    (hroute : plannedSetHasRoute send.planned send.route = true) (hfits : send.size ≤ bufSize) :
    ∃ wire, encodeAll (sentRecords send.planned send.route) = some wire ∧
      sendPlannedResponseRoute send = some ⟨send.route, send.dest,
        responseHeader send.responseId (if send.route = .legacyUnicast then send.questions.count else 0)
            (sentRecords send.planned send.route).length ++
          ((if send.route = .legacyUnicast then send.questions.bytes else []) ++ wire)⟩ := by
  have hne : (sentRecords send.planned send.route).length ≠ 0 := by
    obtain ⟨rr, hrr, hhas⟩ := List.any_eq_true.mp hroute
    rw [sentRecords, List.length_map]
    exact Nat.ne_of_gt (List.length_pos_of_mem (List.mem_filter.mpr ⟨hrr, hhas⟩))
  have hstart : ∃ start, startReply bufSize (send.route == .legacyUnicast) send.questions = some start := by
    rw [startReply_eq hcount hbytes]
    by_cases hlegacy : send.route = .legacyUnicast
    · rw [Send.size, if_pos hlegacy] at hfits
      rw [if_pos hlegacy]
      exact ⟨_, appendBytes_eq_some.mpr ⟨by rw [length_zeros]; omega, rfl⟩⟩
    · rw [if_neg hlegacy]
      exact ⟨_, rfl⟩
  obtain ⟨start, hstart⟩ := hstart
  have hlength := (length_startReply hcount hbytes hstart).2
  have hadded : (addPlannedRrs bufSize send.route (send.route == .legacyUnicast) send.planned start
      0).isSome := addPlannedRrs_isSome (rdata_lt hplanned) hencode (by rw [hlength]; exact hfits)
  obtain ⟨⟨reply, answers⟩, hadded⟩ := Option.isSome_iff_exists.mp hadded
  have hbuilt : (buildPlannedResponsePacket bufSize send.responseId send.route
      (send.route == .legacyUnicast) send.questions send.planned).isSome := by
    unfold buildPlannedResponsePacket
    rw [hstart]
    simp only [Option.bind_eq_bind, Option.bind_some, hadded, Option.pure_def, Option.isSome_some]
  obtain ⟨⟨reply, answers⟩, hbuilt⟩ := Option.isSome_iff_exists.mp hbuilt
  obtain ⟨wire, hwire, rfl, rfl⟩ := buildPlannedResponsePacket_eq_some hplanned
    (fun hzero => absurd hzero (Nat.ne_of_gt hcount)) hbuilt
  refine ⟨wire, hwire, ?_⟩
  rw [sendPlannedResponseRoute, hbuilt]
  exact if_neg hne

end Build

/-! ## Planning -/

section Plan

variable {cfg : Config} {q : Query} {fqdns : Service → Bytes} {planned set : PlannedRrSet}
  {known : List KnownAnswer} {asks : List Ask} {route : Route} {questions : List Question} {behind : Nat}

theorem planAsks_append (asks rest : List Ask) :
    planAsks (asks ++ rest) = fun set => planAsks asks set >>= planAsks rest := by
  unfold planAsks
  rw [List.map_append, inOrder_append]

/-- The loop over the questions plans everything they ask for. -/
theorem planQuestions_eq (hcfg : Accepted cfg) (hf : FqdnsOf cfg fqdns) {n cursor : Nat}
    (h : readQuestions q.packet n cursor = some (questions, behind)) :
    planQuestions cfg q fqdns n cursor planned =
      (planAsks (q.asks cfg fqdns questions) planned).toOption.map (·, behind) := by
  induction n generalizing cursor questions planned with
  | zero =>
    obtain ⟨rfl, rfl⟩ := Prod.mk.inj (Option.some.inj h)
    rfl
  | succ n ih =>
    obtain ⟨question, middle, rest, rfl, hfirst, hrest⟩ := readQuestions_cons h
    unfold readQuestion at hfirst
    obtain ⟨⟨name, fields⟩, hname, hfirst⟩ := Option.bind_eq_some_iff.mp hfirst
    dsimp only at hfirst
    by_cases hfit : q.packet.length < fields + 4
    · rw [if_pos hfit] at hfirst
      cases hfirst
    rw [if_neg hfit] at hfirst
    obtain ⟨rfl, rfl⟩ := Prod.mk.inj (Option.some.inj hfirst)
    rw [planQuestions, hname]
    dsimp only
    rw [if_neg hfit, Query.asks, List.flatMap_cons, planAsks_append, Query.questionAsks]
    dsimp only
    by_cases hclass : (decide (classOf (u16At q.packet (fields + 2)) ≠ dnsClassIn) &&
        decide (classOf (u16At q.packet (fields + 2)) ≠ dnsClassAny)) = true
    · rw [if_pos hclass, if_pos hclass]
      exact ih hrest
    · rw [if_neg hclass, if_neg hclass, hcfg.planQuestionAnswers hf]
      cases hplan : planAsks ((askedRecords name (u16At q.packet fields) cfg q.link fqdns).map
        (·, replyRoute q (u16At q.packet (fields + 2)))) planned with
      | error stopped => rfl
      | ok next => exact ih hrest

theorem asks_answers (hcfg : Accepted cfg) (hf : FqdnsOf cfg fqdns) :
    ∀ a ∈ q.asks cfg fqdns questions, Answer cfg a.1 ∧ a.2 ≠ Routes.none := by
  intro a ha
  obtain ⟨question, -, ha⟩ := List.mem_flatMap.mp ha
  rw [Query.questionAsks] at ha
  split_ifs at ha
  · exact absurd ha List.not_mem_nil
  · exact (asks_answer hcfg hf (replyRoute_ne_none _ _) ha).1

/-- Each record of the set has lost its routes, or none of them. -/
theorem Suppressed.mem_left (h : Suppressed cutAtZero known planned set) {rr : PlannedRr} (hrr : rr ∈ planned) :
    ∃ rr' ∈ set, rr'.record = rr.record ∧
      ((¬∃ ka ∈ known, Known cutAtZero ka rr.record) → rr'.routes = rr.routes) := by
  induction h with
  | nil => exact absurd hrr List.not_mem_nil
  | @cons first first' rest rest' hfirst _ ih =>
    rcases List.mem_cons.mp hrr with rfl | hrr
    · exact ⟨first', List.mem_cons_self, hfirst.1, hfirst.2.2⟩
    · obtain ⟨rr', hrr', hsame⟩ := ih hrr
      exact ⟨rr', List.mem_cons_of_mem _ hrr', hsame⟩

theorem Suppressed.mem_right (h : Suppressed cutAtZero known planned set) {rr' : PlannedRr} (hrr' : rr' ∈ set) :
    ∃ rr ∈ planned, rr'.record = rr.record ∧
      ((∃ ka ∈ known, Known cutAtZero ka rr.record) → rr'.routes = Routes.none) ∧
      ((¬∃ ka ∈ known, Known cutAtZero ka rr.record) → rr'.routes = rr.routes) := by
  induction h with
  | nil => exact absurd hrr' List.not_mem_nil
  | @cons first first' rest rest' hfirst _ ih =>
    rcases List.mem_cons.mp hrr' with rfl | hrr'
    · exact ⟨first, List.mem_cons_self, hfirst⟩
    · obtain ⟨rr, hrr, hsame⟩ := ih hrr'
      exact ⟨rr, List.mem_cons_of_mem _ hrr, hsame⟩

/-- The records that have the route. -/
def recordsOn (set : PlannedRrSet) (route : Route) : List Record :=
  (set.filter (·.routes.has route)).map (·.record)

theorem sentRecords_eq : sentRecords set route = (recordsOn set route).map (·.sentOn route) := by
  rw [recordsOn, List.map_map]
  rfl

theorem nodup_recordsOn (hplans : PlansFor cfg asks planned) (hset : Suppressed cutAtZero known planned set) :
    (recordsOn set route).Nodup := by
  have hnodup := hplans.nodup
  rw [← hset.records] at hnodup
  exact hnodup.sublist (List.Sublist.map _ List.filter_sublist)

/-- What is left of the plan on a route is what was asked for on it and is not known. -/
theorem mem_recordsOn (hplans : PlansFor cfg asks planned) (hset : Suppressed cutAtZero known planned set)
    {r : Record} :
    r ∈ recordsOn set route ↔
      (∃ a ∈ asks, a.1 = r ∧ a.2.has route = true) ∧ ¬∃ ka ∈ known, Known cutAtZero ka r := by
  constructor
  · intro hr
    obtain ⟨rr', hrr', rfl⟩ := List.mem_map.mp hr
    obtain ⟨hmem, hroute⟩ := List.mem_filter.mp hrr'
    obtain ⟨rr, hrr, hrecord, hknown, hunknown⟩ := hset.mem_right hmem
    rw [hrecord]
    by_cases hk : ∃ ka ∈ known, Known cutAtZero ka rr.record
    · rw [hknown hk, Routes.has_none] at hroute
      cases hroute
    · rw [hunknown hk] at hroute
      exact ⟨(hplans.routes rr hrr route).mp hroute, hk⟩
  · rintro ⟨⟨a, ha, rfl, hroute⟩, hk⟩
    obtain ⟨rr, hrr, hrecord⟩ := List.mem_map.mp ((hplans.mem a.1).mpr (List.mem_map_of_mem ha))
    rw [← hrecord] at hk
    obtain ⟨rr', hrr', hrecord', hroutes⟩ := hset.mem_left hrr
    refine List.mem_map.mpr ⟨rr', List.mem_filter.mpr ⟨hrr', ?_⟩, hrecord'.trans hrecord⟩
    rw [hroutes hk]
    exact (hplans.routes rr hrr route).mpr ⟨a, ha, hrecord.symm, hroute⟩

end Plan

/-! ## Sending what is planned -/

section Responses

variable {cfg : Config} {q : Query} {fqdns : Service → Bytes} {planned set : PlannedRrSet}
  {deferred : Option Deferred} {asks : List Ask} {route : Route} {questions : List Question} {behind : Nat}
  {r r' : Record} {known : List KnownAnswer}

/-- The response on one route. -/
def Query.sendOn (q : Query) (set : PlannedRrSet) (behind : Nat) (delay : Bool) (route : Route) : Send :=
  ⟨q.sockfd, set, route, if route = .multicast then 0 else q.responseId, q.echoed behind,
    if route = .multicast then q.multicastDest else q.source, delay && decide (route = .multicast)⟩

/-- What an accepted configuration plans fits its record. -/
theorem storableSet_of_plans (hcfg : Accepted cfg) (hzero : ZeroFree cfg) (hplans : PlansFor cfg asks planned)
    (hplannable : Plannable asks) (hset : Suppressed cutAtZero known planned set) : StorableSet set := by
  have hanswer : ∀ rr ∈ set, Answer cfg rr.record ∧ rr.record.rdata.length ≤ plannedRdataMax := by
    intro rr' hrr'
    obtain ⟨rr, hrr, hrecord, -⟩ := hset.mem_right hrr'
    obtain ⟨a, ha, hasked⟩ := List.mem_map.mp ((hplans.mem rr.record).mp (List.mem_map_of_mem hrr))
    rw [hrecord]
    exact ⟨hplans.answers rr hrr, hasked ▸ hplannable.1 a ha⟩
  constructor
  · have hlength := congrArg List.length hset.records
    rw [List.length_map, List.length_map, hplans.length_eq] at hlength
    rw [hlength]
    exact hplannable.2
  · intro rr hrr
    obtain ⟨o, hused, howner⟩ := (hanswer rr hrr).1.owner
    exact howner ▸ hcfg.text_length hused
  · intro rr hrr
    obtain ⟨o, hused, howner⟩ := (hanswer rr hrr).1.owner
    exact howner ▸ hzero.text hused
  · exact fun rr hrr => (hanswer rr hrr).2

theorem encodes_sent (hcfg : Accepted cfg) (hplans : PlansFor cfg asks planned)
    (hset : Suppressed cutAtZero known planned set) (legacyUnicast : Bool) :
    ∀ rr ∈ set, (rr.sent legacyUnicast).encode.isSome := by
  intro rr' hrr'
  obtain ⟨rr, hrr, hrecord, -⟩ := hset.mem_right hrr'
  obtain ⟨o, hused, howner⟩ := (hplans.answers rr hrr).owner
  have hsent : (rr'.sent legacyUnicast).owner = o.text cfg := by
    rw [← howner, ← hrecord, PlannedRr.sent]
    split <;> rfl
  rw [Record.encode, Option.isSome_map, hsent]
  exact hcfg.text_encodes hused

theorem length_echoed (h : q.Asking questions behind) (hcount : 0 < q.qdcount) :
    (q.echoed behind).bytes.length = behind - sizeofDnsHeader ∧ (q.echoed behind).bytes ≠ [] := by
  obtain ⟨-, hle, hfit⟩ := readQuestions_bounds h.questions
  have hlength : (q.echoed behind).bytes.length = behind - sizeofDnsHeader := length_slice (hfit hcount)
  refine ⟨hlength, fun hnil => ?_⟩
  rw [hnil, List.length_nil] at hlength
  omega

/-- What is left of the plan on the route is due on it. -/
theorem toFinset_recordsOn (hplans : PlansFor cfg asks planned)
    (hset : Suppressed cutAtZero (Mdns.knownAnswers q.packet q.ancount behind) planned set) :
    (recordsOn set route).toFinset = dueOn q behind asks route := by
  classical
  ext r
  rw [List.mem_toFinset, mem_recordsOn hplans hset, dueOn, List.mem_toFinset, List.mem_map]
  constructor
  · rintro ⟨⟨a, ha, rfl, hroute⟩, hknown⟩
    exact ⟨a, List.mem_filter.mpr ⟨ha, decide_eq_true ⟨hroute, hknown⟩⟩, rfl⟩
  · rintro ⟨a, ha, rfl⟩
    obtain ⟨ha, hdue⟩ := List.mem_filter.mp ha
    obtain ⟨hroute, hknown⟩ := of_decide_eq_true hdue
    exact ⟨⟨a, ha, rfl, hroute⟩, hknown⟩

theorem size_sendOn (h : q.Asking questions behind) (hcount : 0 < q.qdcount)
    (hplans : PlansFor cfg asks planned)
    (hset : Suppressed cutAtZero (Mdns.knownAnswers q.packet q.ancount behind) planned set) (delay : Bool) :
    (q.sendOn set behind delay route).size = replySize q behind asks route := by
  have hsum : ((sentRecords set route).map Record.encodedLength).sum =
      ∑ r ∈ dueOn q behind asks route, (r.sentOn route).encodedLength := by
    rw [← toFinset_recordsOn hplans hset, List.sum_toFinset _ (nodup_recordsOn hplans hset), sentRecords_eq,
      List.map_map]
    rfl
  rw [Send.size, replySize, ← hsum]
  show sizeofDnsHeader + (if route = .legacyUnicast then (q.echoed behind).bytes.length else 0) + _ = _
  rw [(length_echoed h hcount).1]
  rfl

end Responses

/-! ## Every record is answered -/

/-- A query for the instances of a service type. -/
def typeQuery (serviceType : List Bytes) : Query :=
  hostQuery (be16 7 ++ be16 0 ++ be16 1 ++ zeros 6 ++ wireLabels serviceType ++ be16 dnsTypePtr.toNat ++ be16 1)
    lanLink4

def adiskQuery : Query := typeQuery [ascii "_adisk", ascii "_tcp", ascii "local"]

theorem adiskQuery_asking :
    adiskQuery.Asking [⟨ascii "_adisk._tcp.local", dnsTypePtr, dnsClassIn⟩] 35 :=
  ⟨by decide, by decide, by decide, by decide +kernel⟩

/-- Eight disks with names of 64 letters: none of the records of the service is sent, because its TXT
record has no room in the set. -/
theorem eight_disk_query_not_answered :
    validateConfig capsuleOptions ((List.range 8).map (shareRow · 64)) [] = .ok (capsuleConfig 8 64) ∧
      ∃ (q : Query) (questions : List Question) (behind : Nat) (fqdns : Service → Bytes),
        q.Asking questions behind ∧
        buildInstanceFqdns (mdnsConfigForScope (capsuleConfig 8 64) q.scope) = some fqdns ∧
        ¬ ∀ a ∈ q.asks (mdnsConfigForScope (capsuleConfig 8 64) q.scope) fqdns questions,
          ¬ q.Knows behind a.1 → ∀ route, a.2.has route = true →
            AnsweredOnce q behind (q.responses (capsuleConfig 8 64) none) route a.1 := by
  refine ⟨by decide +kernel, adiskQuery, _, 35,
    fun s => if s.enabled (capsuleConfig 8 64) then (s.buildFqdn (capsuleConfig 8 64)).getD [] else [],
    adiskQuery_asking, ?_, fun h => ?_⟩
  · rw [show mdnsConfigForScope (capsuleConfig 8 64) adiskQuery.scope = capsuleConfig 8 64 from rfl,
      buildInstanceFqdns, if_pos (by decide +kernel)]
  · have hasked : ∃ a ∈ adiskQuery.asks (mdnsConfigForScope (capsuleConfig 8 64) adiskQuery.scope)
        (fun s => if s.enabled (capsuleConfig 8 64) then (s.buildFqdn (capsuleConfig 8 64)).getD [] else [])
        [⟨ascii "_adisk._tcp.local", dnsTypePtr, dnsClassIn⟩], a.2.has .multicast = true := by
      decide +kernel
    obtain ⟨a, ha, hroute⟩ := hasked
    have hunknown : ¬ adiskQuery.Knows 35 a.1 := by
      rintro ⟨ka, hka, -⟩
      have hnone : Mdns.knownAnswers adiskQuery.packet adiskQuery.ancount 35 = [] := by decide +kernel
      rw [hnone] at hka
      exact absurd hka List.not_mem_nil
    obtain ⟨response, records, honly, -⟩ := h a ha hunknown .multicast hroute
    have hnothing : adiskQuery.responses (capsuleConfig 8 64) none = [] := by decide +kernel
    rw [hnothing] at honly
    cases honly

end TimeCapsule.Mdns
