import TimeCapsule.Mdns.Agreement
import TimeCapsule.Mdns.KnownAnswers

/-!
# Answering a query

A query is planned, what its client knows already is suppressed, and the rest is sent on its routes.
When more known answers are to follow, the planned response is put off; one response at a time can
wait, for packets of the same sender without a question.
-/

namespace TimeCapsule.Mdns

open Lib

def mdnsPort : UInt16 := 5353

def knownAnswerDeferMs : Nat := 450

/-- The address of a sender. -/
inductive Endpoint where
  | inet (port : UInt16) (addr : Ipv4)
  | inet6 (port : UInt16) (addr : In6Addr) (scopeId : UInt32)
  | other
deriving DecidableEq, Repr

/-- `sockaddr_endpoint_equal`; two addresses of another family are never equal. -/
def endpointEqual : Endpoint → Endpoint → Bool
  | .other, _ => false
  | a, b => a == b

/-- `sockaddr_port_host` -/
def Endpoint.port : Endpoint → UInt16
  | .inet port _ => port
  | .inet6 port _ _ => port
  | .other => 0

/-- A packet, and what its receiver knows of it. -/
structure Query where
  sockfd : Nat
  packet : Bytes
  multicastDest : Endpoint
  source : Endpoint
  /-- What `source_can_receive_unicast_response` says of the sender. -/
  sourceAllowsUnicast : Bool
  link : LinkContext
  scope : MdnsServiceScope
  nowMs : Nat

/-- The question section of a query, as it stood in the packet. -/
structure Questions where
  bytes : Bytes
  count : Nat
deriving DecidableEq, Repr

/-- `g_deferred_response`, while it is active. -/
structure Deferred where
  sockfd : Nat
  dueMs : Nat
  responseId : UInt16
  multicastDest : Endpoint
  source : Endpoint
  questions : Questions
  planned : PlannedRrSet
deriving DecidableEq, Repr

/-- A call of `send_planned_response_route`. -/
structure Send where
  sockfd : Nat
  planned : PlannedRrSet
  route : Route
  responseId : UInt16
  questions : Questions
  dest : Endpoint
  delayMulticast : Bool
deriving DecidableEq, Repr

namespace Query

def flags (q : Query) : UInt16 := u16At q.packet 2

def qdcount (q : Query) : Nat := (u16At q.packet 4).toNat

def ancount (q : Query) : Nat := (u16At q.packet 6).toNat

def responseId (q : Query) : UInt16 := u16At q.packet 0

/-- More known answers are to follow. -/
def truncated (q : Query) : Bool := q.flags &&& dnsFlagTc != 0

def legacyUnicast (q : Query) : Bool := q.source.port != 0 && q.source.port != mdnsPort

end Query

/-! ## The response that waits -/

def deferredResponseMatchesSource (deferred : Option Deferred) (q : Query) : Bool :=
  match deferred with
  | none => false
  | some d => d.sockfd == q.sockfd && endpointEqual d.source q.source

def plannedSetHasRoute (planned : PlannedRrSet) (route : Route) : Bool :=
  planned.any fun rr => rr.routes.has route

def plannedSetHasAnyRoute (planned : PlannedRrSet) : Bool :=
  planned.any fun rr => rr.routes != Routes.none

/-- The responses for the routes that the planned records have. -/
def sendRoutes (sockfd : Nat) (planned : PlannedRrSet) (responseId : UInt16) (questions : Questions)
    (source multicastDest : Endpoint) (delayMulticast : Bool) : List Send :=
  (if plannedSetHasRoute planned .legacyUnicast then
      [⟨sockfd, planned, .legacyUnicast, responseId, questions, source, false⟩] else []) ++
    (if plannedSetHasRoute planned .unicast then
      [⟨sockfd, planned, .unicast, responseId, questions, source, false⟩] else []) ++
    (if plannedSetHasRoute planned .multicast then
      [⟨sockfd, planned, .multicast, 0, questions, multicastDest, delayMulticast⟩] else [])

/-- `flush_deferred_response_now`; no response waits after it. -/
def Deferred.flush (d : Deferred) : List Send :=
  sendRoutes d.sockfd d.planned d.responseId d.questions d.source d.multicastDest false

/-- `defer_planned_response`; it takes the place of the response that waits. -/
def deferPlannedResponse (q : Query) (questions : Questions) (planned : PlannedRrSet) :
    Option Deferred :=
  if !plannedSetHasAnyRoute planned then none
  else if 0 < questions.count ∧ bufSize < questions.bytes.length then none
  else some ⟨q.sockfd, q.nowMs + knownAnswerDeferMs, q.responseId, q.multicastDest, q.source,
    questions, planned⟩

/-! ## Planning a query -/

/-- The routes for the answers to a question. -/
def replyRoute (q : Query) (qclass : UInt16) : Routes :=
  if q.legacyUnicast && q.sourceAllowsUnicast then ⟨false, false, true⟩
  else if qclass &&& dnsClassQu != 0 && q.sourceAllowsUnicast then
    ⟨true, q.source.port == mdnsPort, false⟩
  else ⟨false, true, false⟩

/-- The loop over the questions, with the set of the answers planned and the cursor behind the last
question; there are none when a question is not well formed or its answers cannot be planned. -/
def planQuestions (cfg : Config) (q : Query) (fqdns : Service → Bytes) :
    (qdcount cursor : Nat) → PlannedRrSet → Option (PlannedRrSet × Nat)
  | 0, cursor, planned => some (planned, cursor)
  | qdcount + 1, cursor, planned =>
      match decodeName q.packet cursor maxName with
      | none => none
      | some (qname, cursor) =>
          if q.packet.length < cursor + 4 then none
          else
            let qtype := u16At q.packet cursor
            let qclass := u16At q.packet (cursor + 2)
            if classOf qclass ≠ dnsClassIn && classOf qclass ≠ dnsClassAny then
              planQuestions cfg q fqdns qdcount (cursor + 4) planned
            else
              match planQuestionAnswers (replyRoute q qclass) qname qtype cfg q.link fqdns planned with
              | .error _ => none
              | .ok planned => planQuestions cfg q fqdns qdcount (cursor + 4) planned

/-- A packet without questions: known answers for the response that waits. -/
def continueDeferred (deferred : Option Deferred) (q : Query) : Option Deferred × List Send :=
  match deferred with
  | none => (none, [])
  | some d =>
      if deferredResponseMatchesSource (some d) q then
        let d := { d with
          planned := suppressPlannedKnownAnswers q.packet q.ancount sizeofDnsHeader d.planned }
        if q.truncated then (some d, []) else (none, d.flush)
      else (some d, [])

/-- A packet with questions. -/
def answerQuery (cfg : Config) (q : Query) (fqdns : Service → Bytes) (deferred : Option Deferred) :
    Option Deferred × List Send :=
  let deferred :=
    if deferredResponseMatchesSource deferred q && !q.truncated then none else deferred
  match planQuestions cfg q fqdns q.qdcount sizeofDnsHeader [] with
  | none => (deferred, [])
  | some (planned, cursor) =>
      let questions : Questions := ⟨slice q.packet sizeofDnsHeader cursor, q.qdcount⟩
      let planned := suppressPlannedKnownAnswers q.packet q.ancount cursor planned
      if q.truncated then (deferPlannedResponse q questions planned, [])
      else
        (deferred,
          sendRoutes q.sockfd planned q.responseId questions q.source q.multicastDest true)

/-- `handle_query_any_scoped`: the response that waits afterwards, and what is sent.  Its status,
which is only logged, is left out. -/
def handleQueryAnyScoped (cfg : Config) (deferred : Option Deferred) (q : Query) :
    Option Deferred × List Send :=
  if q.packet.length < sizeofDnsHeader then (deferred, [])
  else if q.flags &&& dnsFlagQr != 0 then (deferred, [])
  else
    let cfg := mdnsConfigForScope cfg q.scope
    match buildInstanceFqdns cfg with
    | none => (deferred, [])
    | some fqdns =>
        if q.qdcount = 0 then continueDeferred deferred q else answerQuery cfg q fqdns deferred

/-- The packets of a run, one after another. -/
def handleQueries (cfg : Config) : Option Deferred → List Query → Option Deferred × List Send
  | deferred, [] => (deferred, [])
  | deferred, q :: qs =>
      let handled := handleQueryAnyScoped cfg deferred q
      let rest := handleQueries cfg handled.1 qs
      (rest.1, handled.2 ++ rest.2)

/-! ## Continuation packets -/

/-- A packet that goes on with the known answers for a response that waits. -/
structure Continues (cfg : Config) (d : Deferred) (q : Query) : Prop where
  header : sizeofDnsHeader ≤ q.packet.length
  query : q.flags &&& dnsFlagQr = 0
  noQuestions : q.qdcount = 0
  named : (buildInstanceFqdns (mdnsConfigForScope cfg q.scope)).isSome
  sameSource : deferredResponseMatchesSource (some d) q = true

/-- The known answers of a packet without questions. -/
def Query.knownAnswers (q : Query) : List KnownAnswer :=
  Mdns.knownAnswers q.packet q.ancount sizeofDnsHeader

def continuedAnswers (qs : List Query) : List KnownAnswer := qs.flatMap Query.knownAnswers

section Rules

variable {cfg : Config} {d : Deferred} {q : Query} {qs : List Query}

theorem Continues.of_planned {planned : PlannedRrSet} (h : Continues cfg d q) :
    Continues cfg { d with planned } q :=
  ⟨h.header, h.query, h.noQuestions, h.named, h.sameSource⟩

/-- A continuation packet suppresses records of the response that waits; the last one sends it. -/
theorem handle_continues (h : Continues cfg d q) :
    ∃ planned, Suppressed cutAtZero q.knownAnswers d.planned planned ∧
      handleQueryAnyScoped cfg (some d) q =
        if q.truncated then (some { d with planned }, []) else (none, { d with planned }.flush) := by
  refine ⟨_, suppress_suppresses q.packet q.ancount sizeofDnsHeader d.planned, ?_⟩
  obtain ⟨fqdns, hfqdns⟩ := Option.isSome_iff_exists.mp h.named
  have hquery : (q.flags &&& dnsFlagQr != 0) = false := by
    rw [h.query]
    rfl
  rw [handleQueryAnyScoped, if_neg (Nat.not_lt.mpr h.header), hquery, if_neg Bool.false_ne_true]
  simp only [hfqdns]
  rw [if_pos h.noQuestions, continueDeferred]
  simp only [if_pos h.sameSource]

theorem handleQueries_append (deferred : Option Deferred) (qs qs' : List Query) :
    handleQueries cfg deferred (qs ++ qs') =
      ((handleQueries cfg (handleQueries cfg deferred qs).1 qs').1,
        (handleQueries cfg deferred qs).2 ++
          (handleQueries cfg (handleQueries cfg deferred qs).1 qs').2) := by
  induction qs generalizing deferred with
  | nil => rfl
  | cons q qs ih =>
    simp only [List.cons_append, handleQueries, ih, List.append_assoc]

/-- A run of continuation packets that more are to follow leaves the response waiting. -/
theorem handle_continued (h : ∀ q ∈ qs, Continues cfg d q ∧ q.truncated = true) :
    ∃ planned, Suppressed cutAtZero (continuedAnswers qs) d.planned planned ∧
      handleQueries cfg (some d) qs = (some { d with planned }, []) := by
  induction qs generalizing d with
  | nil => exact ⟨d.planned, .nil _ _, rfl⟩
  | cons q qs ih =>
    obtain ⟨⟨hfirst, htruncated⟩, hrest⟩ := List.forall_mem_cons.mp h
    obtain ⟨planned, hsuppressed, hhandled⟩ := handle_continues hfirst
    rw [if_pos htruncated] at hhandled
    obtain ⟨planned', hsuppressed', hhandled'⟩ :=
      @ih { d with planned } fun q hq => ⟨(hrest q hq).1.of_planned, (hrest q hq).2⟩
    refine ⟨planned', hsuppressed.append hsuppressed', ?_⟩
    rw [handleQueries, hhandled]
    simp only [hhandled', List.append_nil]

/-- The records that a client knows already are suppressed, at once or in the response that waits, if
and only if no planned record is matched by names that are cut at a zero byte only.  The owners of
planned records are texts that end before their first zero byte. -/
theorem known_answers_suppress_iff (set : PlannedRrSet) (hset : ∀ rr ∈ set, 0 ∉ rr.record.owner) :
    (∀ (packet : Bytes) (answerCount : UInt16) (cursor : Nat),
      Suppressed id (knownAnswers packet answerCount.toNat cursor) set
          (suppressPlannedKnownAnswers packet answerCount.toNat cursor set) ↔
        MatchedWhole (knownAnswers packet answerCount.toNat cursor) set) ∧
    ∀ (cfg : Config) (d : Deferred) (qs : List Query) (last : Query), d.planned = set →
      (∀ q ∈ qs, Continues cfg d q ∧ q.truncated = true) → Continues cfg d last →
      ∃ planned, handleQueries cfg (some d) (qs ++ [last]) =
          (if last.truncated then (some { d with planned }, [])
          else (none, { d with planned }.flush)) ∧
        (Suppressed id (continuedAnswers (qs ++ [last])) set planned ↔
          MatchedWhole (continuedAnswers (qs ++ [last])) set) := by
  constructor
  · intro packet answerCount cursor
    exact (suppress_suppresses packet answerCount.toNat cursor set).id_iff hset
  · rintro cfg d qs last rfl hqs hlast
    obtain ⟨planned, hsuppressed, hrun⟩ := handle_continued hqs
    have hlast' : Continues cfg { d with planned } last := hlast.of_planned
    obtain ⟨planned', hsuppressed', hend⟩ := handle_continues hlast'
    refine ⟨planned', ?_, ?_⟩
    · rw [handleQueries_append, hrun]
      simp only [handleQueries, hend, List.nil_append, List.append_nil]
    · refine Suppressed.id_iff hset ?_
      rw [continuedAnswers, List.flatMap_append, List.flatMap_singleton]
      exact hsuppressed.append hsuppressed'

end Rules

/-! ### An address that is known -/

/-- The planned address of a host. -/
def hostAddress : PlannedRr :=
  ⟨⟨ascii "capsule.local.", dnsTypeA, dnsClassInUnique, 120, [10, 0, 1, 1]⟩, ⟨false, true, false⟩⟩

/-- A packet without questions, with one known answer for an address of `host`. -/
def addressKnown (flags : UInt16) (host : Bytes) : Bytes :=
  be16 0 ++ be16 flags.toNat ++ be16 0 ++ be16 1 ++ zeros 4 ++
    (wireLabels [host, ascii "LOCAL"] ++ be16 1 ++ be16 1 ++ be32 120 ++ be16 4 ++ [10, 0, 1, 1])

def hostDeferred : Deferred :=
  ⟨3, 450, 0, .other, .inet 5353 0x0a000102, ⟨[], 0⟩, [hostAddress]⟩

def hostQuery (packet : Bytes) (link : LinkContext) : Query :=
  ⟨3, packet, .other, .inet 5353 0x0a000102, true, link, .lan, 0⟩

/-- The address is known in one packet, and in the second of two packets for a response that waits. -/
theorem host_address_known :
    suppressPlannedKnownAnswers (addressKnown 0 (ascii "Capsule")) (1 : UInt16).toNat 12
        [hostAddress] = [{ hostAddress with routes := Routes.none }] ∧
    (Suppressed id (knownAnswers (addressKnown 0 (ascii "Capsule")) (1 : UInt16).toNat 12)
        [hostAddress] (suppressPlannedKnownAnswers (addressKnown 0 (ascii "Capsule"))
          (1 : UInt16).toNat 12 [hostAddress]) ↔
      MatchedWhole (knownAnswers (addressKnown 0 (ascii "Capsule")) (1 : UInt16).toNat 12)
        [hostAddress]) ∧
    ∃ planned, handleQueries (capsuleConfig 0 0) (some hostDeferred)
        ([hostQuery (addressKnown dnsFlagTc (ascii "other")) lanLink4] ++
          [hostQuery (addressKnown 0 (ascii "Capsule")) lanLink4]) =
      (if (hostQuery (addressKnown 0 (ascii "Capsule")) lanLink4).truncated then
        (some { hostDeferred with planned }, []) else (none, { hostDeferred with planned }.flush)) ∧
      (Suppressed id (continuedAnswers ([hostQuery (addressKnown dnsFlagTc (ascii "other")) lanLink4] ++
          [hostQuery (addressKnown 0 (ascii "Capsule")) lanLink4])) [hostAddress] planned ↔
        MatchedWhole (continuedAnswers ([hostQuery (addressKnown dnsFlagTc (ascii "other")) lanLink4] ++
          [hostQuery (addressKnown 0 (ascii "Capsule")) lanLink4])) [hostAddress]) := by
  have hcontinues : ∀ packet : Bytes, sizeofDnsHeader ≤ packet.length →
      u16At packet 2 &&& dnsFlagQr = 0 → u16At packet 4 = 0 →
      Continues (capsuleConfig 0 0) hostDeferred (hostQuery packet lanLink4) := by
    intro packet hheader hquery hquestions
    have hnamed : (buildInstanceFqdns (capsuleConfig 0 0)).isSome = true := by decide +kernel
    refine ⟨hheader, hquery, ?_, hnamed, rfl⟩
    rw [Query.qdcount, hostQuery, hquestions]
    rfl
  obtain ⟨hdirect, hcontinued⟩ := known_answers_suppress_iff [hostAddress]
    (forall_mem_of_all (by decide))
  refine ⟨by decide, hdirect _ 1 12, hcontinued _ hostDeferred _ _ rfl ?_ ?_⟩
  · intro q hq
    obtain rfl := List.mem_singleton.mp hq
    exact ⟨hcontinues _ (by decide) (by decide) (by decide), by decide⟩
  · exact hcontinues _ (by decide) (by decide) (by decide)

/-- An answer for a name that is `capsule.local` up to its zero byte. -/
def zeroByteKnown : Bytes :=
  zeros 12 ++ (ascii "\x07capsule\x07local\x00x\x00" ++ be16 1 ++ be16 1 ++ be32 120 ++ be16 4 ++
    [10, 0, 1, 1])

/-- A known answer for another host, with a zero byte in its name, takes away the address. -/
theorem host_address_lost_at_zero_byte :
    ∃ (set : PlannedRrSet) (packet : Bytes) (answerCount : UInt16) (cursor : Nat),
      (∀ rr ∈ set, 0 ∉ rr.record.owner) ∧
      ¬Suppressed id (knownAnswers packet answerCount.toNat cursor) set
        (suppressPlannedKnownAnswers packet answerCount.toNat cursor set) := by
  refine ⟨[hostAddress], zeroByteKnown, 1, 12, forall_mem_of_all (by decide), ?_⟩
  have hrun : suppressPlannedKnownAnswers zeroByteKnown (1 : UInt16).toNat 12 [hostAddress] =
      [{ hostAddress with routes := Routes.none }] := by decide
  have hknown : ∀ ka ∈ knownAnswers zeroByteKnown (1 : UInt16).toNat 12,
      ka.packet = zeroByteKnown ∧ ka.ownerAt = 12 := forall_mem_of_all (by decide)
  have hreach : Reaches zeroByteKnown 12 [ascii "capsule", ascii "local\x00x"] := by
    have hlabel : zeroByteKnown[12]? = some 7 := by decide
    have hlabel' : zeroByteKnown[20]? = some 7 := by decide
    have hend : zeroByteKnown[28]? = some 0 := by decide
    apply Reaches.label hlabel (by decide) (by decide) (by decide)
    apply Reaches.label hlabel' (by decide) (by decide) (by decide)
    exact Reaches.root hend
  rw [hrun]
  intro h
  obtain ⟨-, -, hkept⟩ := (List.forall₂_cons.mp h).1
  refine absurd (hkept ?_) (by decide)
  rintro ⟨ka, hka, hsame⟩
  obtain ⟨hpacket, hat⟩ := hknown ka hka
  obtain ⟨labels, hlabels, hequal⟩ := hsame.owner
  rw [hpacket, hat] at hlabels
  rw [← hreach.unique hlabels] at hequal
  exact absurd hequal (by decide)

end TimeCapsule.Mdns
