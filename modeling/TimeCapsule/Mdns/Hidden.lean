import TimeCapsule.Mdns.BindPolicy
import TimeCapsule.Mdns.LinkBuild
import TimeCapsule.Mdns.Offered
import TimeCapsule.Mdns.Responder
import TimeCapsule.Mdns.Scope

/-!
# Services that a link does not show

The scope of a link is worked out wherever something is sent: for every announcement and goodbye, in both
address families, and for every query.  A wide-area link is never in the LAN's scope.
-/

namespace TimeCapsule.Mdns

open Lib

/-- The services that a link must not show. -/
def Hidden (cfg : Config) (link : LinkContext) (s : Service) : Prop :=
  link.isWan = true ∧ s ≠ .airport ∨ cfg.diskless = true ∧ (s = .smb ∨ s = .adisk)

/-- No record is there for a service that the link must not show. -/
def Shows (cfg : Config) (link : LinkContext) (records : List Record) : Prop :=
  ∀ r ∈ records, ∀ s, Hidden cfg link s → ¬ r.IsOf s

/-! ## Announcing -/

/-- The sockets that are open, the links whose interface can be set on them, and what they accept. -/
structure Outbound where
  ipv4 : Bool
  ipv6 : Bool
  setsInterface4 : LinkContext → Bool
  setsInterface6 : LinkContext → Bool
  accepts4 : Bytes → Bool
  accepts6 : Bytes → Bool

/-- `send_link_announcement_pair` -/
def sendLinkAnnouncementPair (out : Outbound) (cfg : Config) (link : LinkContext) (ttl : UInt32)
    (scope : MdnsServiceScope) : List Packet :=
  (if out.ipv4 && link.hasMdnsIpv4Transport && out.setsInterface4 link then
      (sendAnnouncementAnyScoped out.accepts4 cfg link ttl scope).2 else []) ++
    if out.ipv6 && link.hasMdnsIpv6Transport && out.setsInterface6 link then
      (sendAnnouncementAnyScoped out.accepts6 cfg link ttl scope).2 else []

/-- The packets on one link of the set. -/
def sendOnLink (out : Outbound) (links : LinkContextSet) (cfg : Config) (ttl : UInt32) (link : LinkContext) :
    LinkContext × List Packet :=
  (link, sendLinkAnnouncementPair out cfg link ttl (mdnsServiceScopeForLink links link))

/-- `announce_all_links`: the packets on each link. -/
def announceAllLinks (out : Outbound) (links : LinkContextSet) (cfg : Config) :
    List (LinkContext × List Packet) :=
  links.map (sendOnLink out links cfg cfg.ttl)

/-- `send_link_goodbyes` -/
def sendLinkGoodbyes (out : Outbound) (links : LinkContextSet) (cfg : Config) :
    List (LinkContext × List Packet) :=
  links.map (sendOnLink out links cfg 0)

/-- `send_link_goodbyes_for_missing` -/
def sendLinkGoodbyesForMissing (out : Outbound) (oldLinks newLinks : LinkContextSet) (cfg : Config) :
    List (LinkContext × List Packet) :=
  (oldLinks.filter fun link => !linkContextSetContains newLinks link).map (sendOnLink out oldLinks cfg 0)

/-! ## The scope of a link -/

section Scope

variable {cfg : Config} {links : LinkContextSet} {link : LinkContext} {s : Service}

theorem scope_of_isWan (h : link.isWan = true) : mdnsServiceScopeForLink links link = .wan := by
  rw [mdnsServiceScopeForLink, if_neg]
  intro hcontains
  obtain ⟨l, hl, hsame⟩ := containsTopology_iff.mp hcontains
  have hlan : l.isWan = false := by
    have hfiltered : ∀ fallback, l ∈ (filterSmbBindLinkContexts links true fallback).links → l.isWan = false := by
      intro fallback hmem
      have hkeep := (keepLinkContexts_subset hmem).2
      simp only [Bool.and_eq_true] at hkeep
      simpa using hkeep.1.1
    rw [smbBindLinkContexts] at hl
    split_ifs at hl with hnone
    · exact hfiltered true hl
    · exact hfiltered false hl
  have hwan := congrArg LinkContext.isWan hsame
  change l.isWan = link.isWan at hwan
  rw [hlan, h] at hwan
  exact nomatch hwan

/-- What a link must not show is not enabled in the configuration that it is served with. -/
theorem not_enabled_of_hidden (h : Hidden cfg link s) :
    s.enabled (mdnsConfigForScope cfg (mdnsServiceScopeForLink links link)) = false := by
  rcases h with ⟨hwan, hs⟩ | ⟨hdiskless, hs⟩
  · rw [scope_of_isWan hwan, enabled_wan, decide_eq_false hs, Bool.false_and]
  · cases mdnsServiceScopeForLink links link with
    | wan =>
      rw [enabled_wan, Bool.and_eq_false_iff]
      left
      rcases hs with rfl | rfl <;> rfl
    | lan =>
      rcases hs with rfl | rfl
      · show (!cfg.diskless) = false
        rw [hdiskless]
        rfl
      · show (!cfg.diskless && adiskConfigured cfg) = false
        rw [hdiskless]
        rfl

theorem shows_of_offered {records : List Record}
    (h : ∀ r ∈ records, Offered (mdnsConfigForScope cfg (mdnsServiceScopeForLink links link)) r) :
    Shows cfg link records := by
  intro r hr s hs hof
  have henabled := (h r hr).enabled hof
  rw [not_enabled_of_hidden hs] at henabled
  exact nomatch henabled

/-- Every packet of an announcement or a goodbye shows allowed records only. -/
theorem shows_sendOnLink (hcfg : Accepted cfg) (out : Outbound) (ttl : UInt32) :
    ∀ p ∈ (sendOnLink out links cfg ttl link).2, Shows cfg link p.records := by
  have hsent : ∀ accepts, ∀ p ∈ (sendAnnouncementAnyScoped accepts cfg link ttl
      (mdnsServiceScopeForLink links link)).2, Shows cfg link p.records := by
    intro accepts p hp
    have hscoped := hcfg.scoped (mdnsServiceScopeForLink links link)
    change p ∈ (sendAnnouncementAnyScoped accepts
      (mdnsConfigForScope cfg (mdnsServiceScopeForLink links link)) link ttl .lan).2 at hp
    rw [sendAnnouncement_sent accepts hscoped] at hp
    split_ifs at hp with hfits
    · obtain ⟨records, hrecords, rfl⟩ := List.mem_map.mp hp
      apply shows_of_offered
      intro r hr
      rcases mem_of_mem_pack (List.mem_flatten.mpr ⟨records, hrecords, hr⟩) with hcore | ⟨group, hgroup, hr⟩
      · have hgroups : r ∈ (announcedGroups (mdnsConfigForScope cfg (mdnsServiceScopeForLink links link))
            link ttl).flatten := by
          simp only [announcedGroups, List.flatten_append, List.mem_append]
          left
          simpa [coreRecords] using hcore
        obtain ⟨group, hgroup, hr⟩ := List.mem_flatten.mp hgroups
        exact hscoped.offered_announced hgroup hr
      · exact @Accepted.offered_announced _ link r hscoped ttl group (List.mem_append_right _ hgroup) hr
    · exact absurd hp List.not_mem_nil
  intro p hp
  rcases List.mem_append.mp hp with hp | hp
  · split_ifs at hp
    · exact hsent _ p hp
    · exact absurd hp List.not_mem_nil
  · split_ifs at hp
    · exact hsent _ p hp
    · exact absurd hp List.not_mem_nil

end Scope

/-! ## Answers -/

section Answers

variable {cfg : Config} {q : Query} {fqdns : Service → Bytes} {planned planned' : PlannedRrSet}
  {cursor n : Nat}

/-- The loop over the questions again, with the set as it is where the loop ends or fails. -/
def plannedSoFar (cfg : Config) (q : Query) (fqdns : Service → Bytes) :
    (qdcount cursor : Nat) → PlannedRrSet → PlannedRrSet
  | 0, _, planned => planned
  | qdcount + 1, cursor, planned =>
      match decodeName q.packet cursor maxName with
      | none => planned
      | some (qname, cursor) =>
          if q.packet.length < cursor + 4 then planned
          else
            let qtype := u16At q.packet cursor
            let qclass := u16At q.packet (cursor + 2)
            if classOf qclass ≠ dnsClassIn && classOf qclass ≠ dnsClassAny then
              plannedSoFar cfg q fqdns qdcount (cursor + 4) planned
            else
              match planQuestionAnswers (replyRoute q qclass) qname qtype cfg q.link fqdns planned with
              | .error planned => planned
              | .ok planned => plannedSoFar cfg q fqdns qdcount (cursor + 4) planned

/-- A set of offered records. -/
def OffersOnly (cfg : Config) (planned : PlannedRrSet) : Prop :=
  planned.length ≤ plannedRrMax ∧
    ∃ asked, PlansFor cfg asked planned ∧ ∀ a ∈ asked, Offered cfg a.1

theorem OffersOnly.nil : OffersOnly cfg [] :=
  ⟨Nat.zero_le _, [], PlansFor.nil, fun _ h => absurd h List.not_mem_nil⟩

theorem PlansFor.offered {asked : List Ask} (h : PlansFor cfg asked planned)
    (hoffered : ∀ a ∈ asked, Offered cfg a.1) : ∀ r ∈ planned.map (·.record), Offered cfg r := by
  intro r hr
  obtain ⟨a, ha, rfl⟩ := List.mem_map.mp ((h.mem r).mp hr)
  exact hoffered a ha

theorem replyRoute_ne_none (q : Query) (qclass : UInt16) : replyRoute q qclass ≠ Routes.none := by
  rw [replyRoute]
  split_ifs
  · exact fun h => nomatch congrArg Routes.legacyUnicast h
  · exact fun h => nomatch congrArg Routes.unicast h
  · exact fun h => nomatch congrArg Routes.multicast h

/-- What a question asks for, on a route. -/
theorem asks_answer (hcfg : Accepted cfg) (hf : FqdnsOf cfg fqdns) {routes : Routes}
    (hroutes : routes ≠ Routes.none) {qname : Bytes} {qtype : UInt16} {link : LinkContext} {a : Ask}
    (ha : a ∈ (askedRecords qname qtype cfg link fqdns).map (·, routes)) :
    (Answer cfg a.1 ∧ a.2 ≠ Routes.none) ∧ Offered cfg a.1 := by
  obtain ⟨r, hr, rfl⟩ := List.mem_map.mp ha
  exact ⟨⟨hcfg.askedRecords_answers hf hr, hroutes⟩, hcfg.offered_asked hf hr⟩

/-- A question adds offered records only. -/
theorem offersOnly_question (hcfg : Accepted cfg) (hf : FqdnsOf cfg fqdns) {routes : Routes}
    (hroutes : routes ≠ Routes.none) {qname : Bytes} {qtype : UInt16} {link : LinkContext}
    (h : OffersOnly cfg planned)
    (hok : planQuestionAnswers routes qname qtype cfg link fqdns planned = .ok planned') :
    OffersOnly cfg planned' := by
  obtain ⟨hlen, asked, hplans, hoffered⟩ := h
  rw [hcfg.planQuestionAnswers hf] at hok
  obtain ⟨hplans', hlen', -⟩ := planAsks_ok hcfg hplans hlen
    (fun a ha => (asks_answer hcfg hf hroutes ha).1) hok
  refine ⟨hlen', _, hplans', fun a ha => ?_⟩
  rcases List.mem_append.mp ha with ha | ha
  · exact hoffered a ha
  · exact (asks_answer hcfg hf hroutes ha).2

/-- A question whose answers have no room has added offered records only. -/
theorem offered_failed_question (hcfg : Accepted cfg) (hf : FqdnsOf cfg fqdns) {routes : Routes}
    (hroutes : routes ≠ Routes.none) {qname : Bytes} {qtype : UInt16} {link : LinkContext}
    (h : OffersOnly cfg planned)
    (herror : planQuestionAnswers routes qname qtype cfg link fqdns planned = .error planned') :
    ∀ r ∈ planned'.map (·.record), Offered cfg r := by
  obtain ⟨-, asked, hplans, hoffered⟩ := h
  rw [hcfg.planQuestionAnswers hf] at herror
  obtain ⟨done, a, rest, hasks, hplans', -⟩ := planAsks_error hcfg hplans
    (fun a ha => (asks_answer hcfg hf hroutes ha).1) herror
  apply hplans'.offered
  intro a ha
  rcases List.mem_append.mp ha with ha | ha
  · exact hoffered a ha
  · have hmem : a ∈ (askedRecords qname qtype cfg link fqdns).map (·, routes) := by
      rw [hasks]
      exact List.mem_append_left _ ha
    exact (asks_answer hcfg hf hroutes hmem).2

/-- The loop over the questions plans offered records only, whether it fails or not. -/
theorem offered_plannedSoFar (hcfg : Accepted cfg) (hf : FqdnsOf cfg fqdns) (h : OffersOnly cfg planned) :
    ∀ r ∈ (plannedSoFar cfg q fqdns n cursor planned).map (·.record), Offered cfg r := by
  have hstop : ∀ r ∈ planned.map (·.record), Offered cfg r := by
    obtain ⟨-, asked, hplans, hoffered⟩ := h
    exact hplans.offered hoffered
  induction n generalizing cursor planned with
  | zero => exact hstop
  | succ n ih =>
    rw [plannedSoFar]
    cases hname : decodeName q.packet cursor maxName with
    | none => exact hstop
    | some decoded =>
      dsimp only
      split_ifs with hshort hclass
      · exact hstop
      · exact ih h hstop
      · cases hplan : planQuestionAnswers (replyRoute q (u16At q.packet (decoded.2 + 2))) decoded.1
          (u16At q.packet decoded.2) cfg q.link fqdns planned with
        | error set => exact offered_failed_question hcfg hf (replyRoute_ne_none _ _) h hplan
        | ok set =>
          have hset := offersOnly_question hcfg hf (replyRoute_ne_none _ _) h hplan
          obtain ⟨hlen, asked, hplans, hoffered⟩ := hset
          exact ih ⟨hlen, asked, hplans, hoffered⟩ (hplans.offered hoffered)

/-- Where the loop does not fail, it returns what is planned. -/
theorem plannedSoFar_of_some {cursor' : Nat}
    (h : planQuestions cfg q fqdns n cursor planned = some (planned', cursor')) :
    plannedSoFar cfg q fqdns n cursor planned = planned' := by
  induction n generalizing cursor planned with
  | zero =>
    rw [planQuestions, Option.some.injEq, Prod.mk.injEq] at h
    exact h.1
  | succ n ih =>
    rw [planQuestions] at h
    rw [plannedSoFar]
    cases hname : decodeName q.packet cursor maxName with
    | none =>
      rw [hname] at h
      exact nomatch h
    | some decoded =>
      rw [hname] at h
      dsimp only at h ⊢
      split_ifs at h with hshort hclass
      · rw [if_neg hshort, if_pos hclass]
        exact ih h
      · rw [if_neg hshort, if_neg hclass]
        cases hplan : planQuestionAnswers (replyRoute q (u16At q.packet (decoded.2 + 2))) decoded.1
          (u16At q.packet decoded.2) cfg q.link fqdns planned with
        | error set =>
          rw [hplan] at h
          exact nomatch h
        | ok set =>
          rw [hplan] at h
          exact ih h

theorem Suppressed.records {part : List Bytes → List Bytes} {known : List KnownAnswer}
    (h : Suppressed part known planned planned') : planned'.map (·.record) = planned.map (·.record) := by
  induction h with
  | nil => rfl
  | cons hfirst _ ih => rw [List.map_cons, List.map_cons, hfirst.1, ih]

theorem records_suppress (packet : Bytes) (n cursor : Nat) (planned : PlannedRrSet) :
    (suppressPlannedKnownAnswers packet n cursor planned).map (·.record) = planned.map (·.record) :=
  (suppress_suppresses packet n cursor planned).records

end Answers

/-! ## Queries -/

/-- A packet that was received on a link, while these links were active. -/
structure Received where
  links : LinkContextSet
  query : Query
  /-- The scope that the handler is called with. -/
  scope_eq : query.scope = mdnsServiceScopeForLink links query.link

/-- The configuration that the packet is answered with. -/
def Received.config (received : Received) (cfg : Config) : Config :=
  mdnsConfigForScope cfg received.query.scope

/-- What is planned for the packet, also where planning fails. -/
def Received.planned (received : Received) (cfg : Config) (fqdns : Service → Bytes) : PlannedRrSet :=
  plannedSoFar (received.config cfg) received.query fqdns received.query.qdcount sizeofDnsHeader []

/-- The set holds what was planned for the packet, and shows its link nothing that is hidden there. -/
def Received.Plans (received : Received) (cfg : Config) (planned : PlannedRrSet) : Prop :=
  ∃ fqdns, buildInstanceFqdns (received.config cfg) = some fqdns ∧
    planned.map (·.record) = (received.planned cfg fqdns).map (·.record) ∧
    Shows cfg received.query.link (planned.map (·.record))

/-- The response waits for the sender of one of the packets, with what was planned for it. -/
def WaitsFor (cfg : Config) (asked : List Received) (d : Deferred) : Prop :=
  ∃ received ∈ asked, received.Plans cfg d.planned ∧ d.sockfd = received.query.sockfd ∧
    d.source = received.query.source ∧ d.multicastDest = received.query.multicastDest

/-- The response goes where one of the packets came from, with what was planned for it. -/
def SentFor (cfg : Config) (asked : List Received) (send : Send) : Prop :=
  ∃ received ∈ asked, received.Plans cfg send.planned ∧ send.sockfd = received.query.sockfd ∧
    (send.dest = received.query.source ∨ send.dest = received.query.multicastDest)

/-- The response that waits, and everything that is sent. -/
def AllFor (cfg : Config) (asked : List Received) (outcome : Option Deferred × List Send) : Prop :=
  (∀ d, outcome.1 = some d → WaitsFor cfg asked d) ∧ ∀ send ∈ outcome.2, SentFor cfg asked send

section Queries

variable {cfg : Config} {received : Received} {deferred : Option Deferred} {asked : List Received}
  {planned : PlannedRrSet}

theorem Received.Plans.suppressed (h : received.Plans cfg planned) (packet : Bytes) (n cursor : Nat) :
    received.Plans cfg (suppressPlannedKnownAnswers packet n cursor planned) := by
  obtain ⟨fqdns, hfqdns, hplanned, hshows⟩ := h
  refine ⟨fqdns, hfqdns, ?_, ?_⟩
  · rwa [records_suppress]
  · rwa [records_suppress]

/-- What is planned for a packet is shown on its link. -/
theorem shows_planned (hcfg : Accepted cfg) {fqdns : Service → Bytes}
    (hfqdns : buildInstanceFqdns (received.config cfg) = some fqdns) :
    Shows cfg received.query.link ((received.planned cfg fqdns).map (·.record)) := by
  have hscoped : Accepted (received.config cfg) := hcfg.scoped received.query.scope
  obtain ⟨fqdns', hfqdns', hf⟩ := buildInstanceFqdns_some hscoped
  obtain rfl := Option.some.inj (hfqdns'.symm.trans hfqdns)
  have hoffered : ∀ r ∈ (received.planned cfg fqdns').map (·.record), Offered (received.config cfg) r :=
    offered_plannedSoFar hscoped hf OffersOnly.nil
  apply @shows_of_offered cfg received.links
  rw [← received.scope_eq]
  exact hoffered

theorem AllFor.kept (h : ∀ d, deferred = some d → WaitsFor cfg asked d) : AllFor cfg asked (deferred, []) :=
  ⟨h, fun _ hsend => absurd hsend List.not_mem_nil⟩

theorem sentFor_sendRoutes {responseId : UInt16} {questions : Questions} {delay : Bool}
    {source multicastDest : Endpoint} {sockfd : Nat}
    (hreceived : received ∈ asked) (h : received.Plans cfg planned)
    (hsockfd : sockfd = received.query.sockfd) (hsource : source = received.query.source)
    (hdest : multicastDest = received.query.multicastDest) :
    ∀ send ∈ sendRoutes sockfd planned responseId questions source multicastDest delay,
      SentFor cfg asked send := by
  intro send hsend
  simp only [sendRoutes, List.mem_append] at hsend
  rcases hsend with (hsend | hsend) | hsend
  · split_ifs at hsend
    · rw [List.mem_singleton.mp hsend]
      exact ⟨received, hreceived, h, hsockfd, .inl hsource⟩
    · exact absurd hsend List.not_mem_nil
  · split_ifs at hsend
    · rw [List.mem_singleton.mp hsend]
      exact ⟨received, hreceived, h, hsockfd, .inl hsource⟩
    · exact absurd hsend List.not_mem_nil
  · split_ifs at hsend
    · rw [List.mem_singleton.mp hsend]
      exact ⟨received, hreceived, h, hsockfd, .inr hdest⟩
    · exact absurd hsend List.not_mem_nil

theorem allFor_continue {q : Query} (h : ∀ d, deferred = some d → WaitsFor cfg asked d) :
    AllFor cfg asked (continueDeferred deferred q) := by
  cases deferred with
  | none => exact AllFor.kept h
  | some d =>
    obtain ⟨received, hreceived, hplans, hsockfd, hsource, hdest⟩ := h d rfl
    have hsuppressed := hplans.suppressed q.packet q.ancount sizeofDnsHeader
    rw [continueDeferred]
    dsimp only
    split_ifs with hmatches htc
    · apply AllFor.kept
      intro d' hd'
      rw [← Option.some.inj hd']
      exact ⟨received, hreceived, hsuppressed, hsockfd, hsource, hdest⟩
    · refine ⟨fun d' hd' => ?_, sentFor_sendRoutes hreceived hsuppressed hsockfd hsource hdest⟩
      cases hd'
    · exact AllFor.kept h

theorem allFor_answer {fqdns : Service → Bytes} (hcfg : Accepted cfg) (hreceived : received ∈ asked)
    (hfqdns : buildInstanceFqdns (received.config cfg) = some fqdns)
    (h : ∀ d, deferred = some d → WaitsFor cfg asked d) :
    AllFor cfg asked (answerQuery (received.config cfg) received.query fqdns deferred) := by
  rw [answerQuery]
  dsimp only
  -- a plain query of the same sender drops what waits
  have hkept : ∀ d, (if deferredResponseMatchesSource deferred received.query && !received.query.truncated
      then none else deferred) = some d → WaitsFor cfg asked d := by
    intro d hd
    split_ifs at hd
    exact h d hd
  generalize (if deferredResponseMatchesSource deferred received.query && !received.query.truncated
    then none else deferred) = kept at hkept
  cases hquestions : planQuestions (received.config cfg) received.query fqdns received.query.qdcount
    sizeofDnsHeader [] with
  | none => exact AllFor.kept hkept
  | some answered =>
    obtain ⟨planned, cursor⟩ := answered
    have hplanned : received.planned cfg fqdns = planned := plannedSoFar_of_some hquestions
    have hplans : received.Plans cfg planned := by
      refine ⟨fqdns, hfqdns, by rw [hplanned], ?_⟩
      rw [← hplanned]
      exact shows_planned hcfg hfqdns
    have hsuppressed := hplans.suppressed received.query.packet received.query.ancount cursor
    dsimp only
    split_ifs with htc
    · apply AllFor.kept
      intro d hd
      rw [deferPlannedResponse] at hd
      split_ifs at hd
      rw [← Option.some.inj hd]
      exact ⟨received, hreceived, hsuppressed, rfl, rfl, rfl⟩
    · exact ⟨hkept, sentFor_sendRoutes hreceived hsuppressed rfl rfl rfl⟩

/-- A packet keeps the response that waits and everything sent within what the links show. -/
theorem allFor_handle (hcfg : Accepted cfg) (hreceived : received ∈ asked)
    (h : ∀ d, deferred = some d → WaitsFor cfg asked d) :
    AllFor cfg asked (handleQueryAnyScoped cfg deferred received.query) := by
  rw [handleQueryAnyScoped]
  by_cases hheader : received.query.packet.length < sizeofDnsHeader
  · rw [if_pos hheader]
    exact AllFor.kept h
  by_cases hresponse : (received.query.flags &&& dnsFlagQr != 0) = true
  · rw [if_neg hheader, if_pos hresponse]
    exact AllFor.kept h
  rw [if_neg hheader, if_neg hresponse]
  dsimp only
  cases hfqdns : buildInstanceFqdns (mdnsConfigForScope cfg received.query.scope) with
  | none => exact AllFor.kept h
  | some fqdns =>
    dsimp only
    by_cases hcount : received.query.qdcount = 0
    · rw [if_pos hcount]
      exact allFor_continue h
    · rw [if_neg hcount]
      exact allFor_answer hcfg hreceived hfqdns h

/-- The packets of a run, one after another. -/
theorem allFor_handleQueries (hcfg : Accepted cfg) (packets : List Received)
    (hasked : ∀ received ∈ packets, received ∈ asked)
    (h : ∀ d, deferred = some d → WaitsFor cfg asked d) :
    AllFor cfg asked (handleQueries cfg deferred (packets.map (·.query))) := by
  induction packets generalizing deferred with
  | nil => exact AllFor.kept h
  | cons first rest ih =>
    obtain ⟨hfirst, hrest⟩ := List.forall_mem_cons.mp hasked
    obtain ⟨hwaits, hsent⟩ := allFor_handle hcfg hfirst h
    obtain ⟨hwaits', hsent'⟩ := ih hrest hwaits
    rw [List.map_cons, handleQueries]
    refine ⟨hwaits', fun send hsend => ?_⟩
    rcases List.mem_append.mp hsend with hsend | hsend
    · exact hsent send hsend
    · exact hsent' send hsend

end Queries

/-! ## Everything that is planned or sent -/

/-- What an accepted configuration plans or appends for a link never shows a service that is hidden
there: for every packet, in every run of packets, and in every announcement and goodbye. -/
theorem hidden_services_not_shown {options cfg : Config} {rows : List AdiskShareRow} {usbCmd : Bytes}
    (hcfg : validateConfig options rows usbCmd = .ok cfg) :
    (∀ (received : Received) (fqdns : Service → Bytes),
        buildInstanceFqdns (received.config cfg) = some fqdns →
        Shows cfg received.query.link ((received.planned cfg fqdns).map (·.record))) ∧
      (∀ packets : List Received, AllFor cfg packets (handleQueries cfg none (packets.map (·.query)))) ∧
      ∀ (out : Outbound) (links newLinks : LinkContextSet),
        ∀ sent ∈ announceAllLinks out links cfg ++ sendLinkGoodbyes out links cfg ++
            sendLinkGoodbyesForMissing out links newLinks cfg,
          ∀ packet ∈ sent.2, Shows cfg sent.1 packet.records := by
  have haccepted := validateConfig_accepted hcfg
  refine ⟨fun received fqdns hfqdns => shows_planned haccepted hfqdns, ?_, ?_⟩
  · intro packets
    exact allFor_handleQueries haccepted packets (fun _ h => h) fun d hd => nomatch hd
  · intro out links newLinks sent hsent
    have hon : ∃ ttl link, sent = sendOnLink out links cfg ttl link := by
      rcases List.mem_append.mp hsent with hsent | hsent
      · rcases List.mem_append.mp hsent with hsent | hsent
        · obtain ⟨link, -, hlink⟩ := List.mem_map.mp hsent
          exact ⟨_, link, hlink.symm⟩
        · obtain ⟨link, -, hlink⟩ := List.mem_map.mp hsent
          exact ⟨_, link, hlink.symm⟩
      · obtain ⟨link, -, hlink⟩ := List.mem_map.mp hsent
        exact ⟨_, link, hlink.symm⟩
    obtain ⟨ttl, link, rfl⟩ := hon
    exact shows_sendOnLink haccepted out ttl

/-- The link towards the Internet. -/
def wanLink4 : LinkContext := { lanLink4 with name := "mgi0", isWan := true }

/-- Nothing that the capsule announces on its wide-area link is of a service for files. -/
theorem capsule_hides_services :
    Hidden (capsuleConfig 1 4) wanLink4 .smb ∧
      ∀ sent ∈ announceAllLinks ⟨true, true, fun _ => true, fun _ => true, fun _ => true, fun _ => true⟩
          [lanLink4, wanLink4] (capsuleConfig 1 4),
        ∀ packet ∈ sent.2, Shows (capsuleConfig 1 4) sent.1 packet.records := by
  have hvalid : validateConfig capsuleOptions [shareRow 0 4] [] = .ok (capsuleConfig 1 4) := by
    decide +kernel
  refine ⟨.inl ⟨rfl, by decide⟩, fun sent hsent => ?_⟩
  exact (hidden_services_not_shown hvalid).2.2 _ [lanLink4, wanLink4] [] sent
    (List.mem_append_left _ (List.mem_append_left _ hsent))

end TimeCapsule.Mdns
