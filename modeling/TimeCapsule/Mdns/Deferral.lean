import Mathlib.Algebra.Order.BigOperators.Group.List
import TimeCapsule.Mdns.Answered

/-!
# The response that waits

There is room for one response that waits for the known answers of its sender.  As long as no other
query is put off before it is due, it is sent, or its own sender or the end of its socket made it
pointless.
-/

namespace TimeCapsule.Mdns

open Lib

/-! ## What happens to the responder -/

/-- A packet that was received, the loop coming around, or the end of a socket. -/
inductive Event where
  | packet (q : Query) (received : q.packet.length ≤ bufSize)
  | timer (nowMs : Nat)
  | closed (sockfd : Nat)

/-- `clear_deferred_response_for_sockfd` -/
def clearDeferredResponseForSockfd (deferred : Option Deferred) (sockfd : Nat) : Option Deferred :=
  deferred.filter (·.sockfd != sockfd)

/-- `flush_deferred_response_if_due` -/
def flushDeferredResponseIfDue (deferred : Option Deferred) (nowMs : Nat) : Option Deferred × List Send :=
  match deferred with
  | none => (none, [])
  | some d => if nowMs < d.dueMs then (some d, []) else (none, d.flush)

/-- The response that waits afterwards, and what is sent. -/
def Event.step (cfg : Config) (deferred : Option Deferred) : Event → Option Deferred × List Send
  | .packet q _ => handleQueryAnyScoped cfg deferred q
  | .timer nowMs => flushDeferredResponseIfDue deferred nowMs
  | .closed sockfd => (clearDeferredResponseForSockfd deferred sockfd, [])

/-- The response that waits after all of the events. -/
def waiting (cfg : Config) (deferred : Option Deferred) (events : List Event) : Option Deferred :=
  events.foldl (fun deferred event => (event.step cfg deferred).1) deferred

/-! ## What becomes of a response -/

/-- The response after known answers of its own sender. -/
def Deferred.After (d d' : Deferred) : Prop :=
  ∃ known planned, d' = { d with planned } ∧ Suppressed cutAtZero known d.planned planned

/-- The packet comes from the sender of the response, on its socket. -/
def Deferred.Sender (d : Deferred) (q : Query) : Prop := deferredResponseMatchesSource (some d) q = true

/-- Everything that is left of the response goes out. -/
def Deferred.Goes (d : Deferred) : Prop := ∀ send ∈ d.flush, (sendPlannedResponseRoute send).isSome

/-- In one of the events the response is sent, or it need not be sent any more. -/
inductive Ends (cfg : Config) : Deferred → List Event → Prop
  /-- Its sender knows all of it. -/
  | known {d : Deferred} {events : List Event} (h : plannedSetHasAnyRoute d.planned = false) : Ends cfg d events
  | due {d : Deferred} {events : List Event} (nowMs : Nat)
      (hstep : (Event.timer nowMs).step cfg (some d) = (none, d.flush)) (hsent : d.Goes) :
      Ends cfg d (.timer nowMs :: events)
  /-- Its sender is done with its known answers. -/
  | continued {d d' : Deferred} {events : List Event} (q : Query) (received : q.packet.length ≤ bufSize)
      (hsender : d.Sender q) (hafter : d.After d')
      (hstep : (Event.packet q received).step cfg (some d) = (none, d'.flush)) (hsent : d'.Goes) :
      Ends cfg d (.packet q received :: events)
  /-- Its sender asks a new query, and gives all known answers with it. -/
  | replaced {d : Deferred} {events : List Event} (q : Query) (received : q.packet.length ≤ bufSize)
      (hsender : d.Sender q) (hquestions : q.qdcount ≠ 0) (hcomplete : q.truncated = false) :
      Ends cfg d (.packet q received :: events)
  | closed {d : Deferred} {events : List Event} : Ends cfg d (.closed d.sockfd :: events)
  | later {d d' : Deferred} {event : Event} {events : List Event}
      (hstep : (event.step cfg (some d)).1 = some d') (hafter : d.After d') (h : Ends cfg d' events) :
      Ends cfg d (event :: events)

/-- A query that can be put off comes when no response waits for its sender, and what is due for it fits
one packet on each route. -/
def Careful (cfg : Config) (deferred : Option Deferred) : Event → Prop
  | .packet q _ => ∀ questions behind fqdns, q.truncated = true → 0 < q.qdcount → q.Asking questions behind →
      buildInstanceFqdns (mdnsConfigForScope cfg q.scope) = some fqdns →
      Plannable (q.asks (mdnsConfigForScope cfg q.scope) fqdns questions) →
      (∀ d, deferred = some d → plannedSetHasAnyRoute d.planned = false) ∧
        ∀ route, replySize q behind (q.asks (mdnsConfigForScope cfg q.scope) fqdns questions) route ≤ bufSize
  | _ => True

/-- The response on one route. -/
def Deferred.sendOn (d : Deferred) (route : Route) : Send :=
  ⟨d.sockfd, d.planned, route, if route = .multicast then 0 else d.responseId, d.questions,
    if route = .multicast then d.multicastDest else d.source, false⟩

/-- The response fits one packet on each route. -/
structure Sound (d : Deferred) : Prop where
  storable : StorableSet d.planned
  encodes : ∀ legacyUnicast, ∀ rr ∈ d.planned, (rr.sent legacyUnicast).encode.isSome
  count : 0 < d.questions.count
  bytes : d.questions.bytes ≠ []
  fits : ∀ route, (d.sendOn route).size ≤ bufSize

section Sound

variable {d d' : Deferred} {route : Route} {known : List KnownAnswer} {planned set : PlannedRrSet}

theorem Deferred.After.refl (d : Deferred) : d.After d := ⟨[], d.planned, rfl, .nil _ _⟩

theorem Deferred.After.trans {d'' : Deferred} (h : d.After d') (h' : d'.After d'') : d.After d'' := by
  obtain ⟨known, planned, rfl, hset⟩ := h
  obtain ⟨known', planned', rfl, hset'⟩ := h'
  exact ⟨known ++ known', planned', rfl, hset.append hset'⟩

theorem mem_flush {send : Send} (h : send ∈ d.flush) :
    ∃ route, send = d.sendOn route ∧ plannedSetHasRoute d.planned route = true := by
  simp only [Deferred.flush, sendRoutes, List.mem_append] at h
  rcases h with (h | h) | h
  · split_ifs at h with hroute
    · exact ⟨.legacyUnicast, List.mem_singleton.mp h, hroute⟩
    · exact absurd h List.not_mem_nil
  · split_ifs at h with hroute
    · exact ⟨.unicast, List.mem_singleton.mp h, hroute⟩
    · exact absurd h List.not_mem_nil
  · split_ifs at h with hroute
    · exact ⟨.multicast, List.mem_singleton.mp h, hroute⟩
    · exact absurd h List.not_mem_nil

theorem Sound.goes (h : Sound d) : d.Goes := by
  intro send hsend
  obtain ⟨route, rfl, hroute⟩ := mem_flush hsend
  obtain ⟨wire, -, hsent⟩ := @sendPlannedResponseRoute_of_fits (d.sendOn route) h.storable (h.encodes _)
    h.count h.bytes hroute (h.fits route)
  rw [hsent]
  rfl

/-- Known answers take records away, and add none. -/
theorem recordsOn_sublist (h : Suppressed cutAtZero known planned set) :
    (recordsOn set route).Sublist (recordsOn planned route) := by
  induction h with
  | nil => exact List.Sublist.slnil
  | @cons rr rr' planned set hfirst _ ih =>
    obtain ⟨hrecord, hknown, hunknown⟩ := hfirst
    unfold recordsOn at ih ⊢
    by_cases hk : ∃ ka ∈ known, Known cutAtZero ka rr.record
    · have hnone : ¬ rr'.routes.has route = true := by
        rw [hknown hk, Routes.has_none]
        exact Bool.false_ne_true
      rw [List.filter_cons, if_neg hnone]
      exact ih.trans ((List.sublist_cons_self rr planned).filter _ |>.map _)
    · rw [List.filter_cons, List.filter_cons, hunknown hk]
      by_cases hroute : rr.routes.has route = true
      · rw [if_pos hroute, if_pos hroute, List.map_cons, List.map_cons, hrecord]
        exact ih.cons_cons _
      · rw [if_neg hroute, if_neg hroute]
        exact ih

theorem Sound.after (h : Sound d) (hafter : d.After d') : Sound d' := by
  obtain ⟨known, planned, rfl, hset⟩ := hafter
  have hrecord : ∀ rr' ∈ planned, ∃ rr ∈ d.planned, rr'.record = rr.record := by
    intro rr' hrr'
    obtain ⟨rr, hrr, hrecord, -⟩ := hset.mem_right hrr'
    exact ⟨rr, hrr, hrecord⟩
  refine ⟨⟨?_, ?_, ?_, ?_⟩, ?_, h.count, h.bytes, fun route => ?_⟩
  · exact hset.length_eq ▸ h.storable.count
  · intro rr' hrr'
    obtain ⟨rr, hrr, hsame⟩ := hrecord rr' hrr'
    exact hsame ▸ h.storable.owner rr hrr
  · intro rr' hrr'
    obtain ⟨rr, hrr, hsame⟩ := hrecord rr' hrr'
    exact hsame ▸ h.storable.zero rr hrr
  · intro rr' hrr'
    obtain ⟨rr, hrr, hsame⟩ := hrecord rr' hrr'
    exact hsame ▸ h.storable.rdata rr hrr
  · intro legacyUnicast rr' hrr'
    obtain ⟨rr, hrr, hsame⟩ := hrecord rr' hrr'
    have hsent : rr'.sent legacyUnicast = rr.sent legacyUnicast := by
      rw [PlannedRr.sent, PlannedRr.sent, hsame]
    rw [hsent]
    exact h.encodes legacyUnicast rr hrr
  · refine le_trans ?_ (h.fits route)
    have hsum : ((sentRecords planned route).map Record.encodedLength).sum ≤
        ((sentRecords d.planned route).map Record.encodedLength).sum := by
      rw [sentRecords_eq, sentRecords_eq]
      exact (((recordsOn_sublist hset).map _).map _).sum_le_sum fun _ _ => Nat.zero_le _
    exact Nat.add_le_add_left hsum _

end Sound

/-! ## One event -/

section Step

variable {options cfg : Config} {rows : List AdiskShareRow} {usbCmd : Bytes} {d : Deferred}
  {deferred : Option Deferred} {q : Query}

/-- A query that is put off waits with a response that fits. -/
theorem sound_of_deferred (hvalid : validateConfig options rows usbCmd = .ok cfg)
    (received : q.packet.length ≤ bufSize) (hheader : ¬ q.packet.length < sizeofDnsHeader)
    (hquery : ¬ (q.flags &&& dnsFlagQr != 0) = true) (hcount : 0 < q.qdcount) {fqdns : Service → Bytes}
    (hfqdns : buildInstanceFqdns (mdnsConfigForScope cfg q.scope) = some fqdns) {planned : PlannedRrSet}
    {behind : Nat}
    (hplan : planQuestions (mdnsConfigForScope cfg q.scope) q fqdns q.qdcount sizeofDnsHeader [] =
      some (planned, behind)) :
    ∃ questions, q.Asking questions behind ∧
      Plannable (q.asks (mdnsConfigForScope cfg q.scope) fqdns questions) ∧
      ((∀ route, replySize q behind (q.asks (mdnsConfigForScope cfg q.scope) fqdns questions) route ≤ bufSize) →
        ∀ d, deferPlannedResponse q (q.echoed behind)
            (suppressPlannedKnownAnswers q.packet q.ancount behind planned) = some d → Sound d) := by
  have hcfg := (validateConfig_accepted hvalid).scoped q.scope
  have hzero := (validateConfig_zeroFree hvalid).scoped q.scope
  obtain ⟨fqdns', hfqdns', hf⟩ := buildInstanceFqdns_some hcfg
  obtain rfl := Option.some.inj (hfqdns'.symm.trans hfqdns)
  obtain ⟨questions, hread⟩ := readQuestions_of_planQuestions hplan
  have hquery' : q.flags &&& dnsFlagQr = 0 := by
    rw [bne_iff_ne, not_not] at hquery
    exact hquery
  have hasking : q.Asking questions behind := ⟨Nat.not_lt.mp hheader, hquery', received, hread⟩
  have hasks := @asks_answers _ q fqdns' questions hcfg hf
  rw [@planQuestions_eq _ q fqdns' [] questions behind hcfg hf _ _ hread] at hplan
  cases hrun : planAsks (q.asks (mdnsConfigForScope cfg q.scope) fqdns' questions) [] with
  | error stopped =>
    rw [hrun] at hplan
    cases hplan
  | ok set =>
    rw [hrun] at hplan
    obtain ⟨rfl, -⟩ := Prod.mk.inj (Option.some.inj hplan)
    have hplannable := (planAsks_ok_iff hcfg hasks).mp ⟨set, hrun⟩
    refine ⟨questions, hasking, hplannable, fun hfits d hdefer => ?_⟩
    obtain ⟨hplans, -, -⟩ := planAsks_ok hcfg PlansFor.nil (Nat.zero_le _) hasks hrun
    rw [List.nil_append] at hplans
    have hset := suppress_suppresses q.packet q.ancount behind set
    rw [deferPlannedResponse] at hdefer
    split_ifs at hdefer
    obtain rfl := Option.some.inj hdefer
    refine ⟨storableSet_of_plans hcfg hzero hplans hplannable hset, encodes_sent hcfg hplans hset, hcount,
      (length_echoed hasking hcount).2, fun route => ?_⟩
    have hsize := @size_sendOn _ q set _ _ route questions behind hasking hcount hplans hset false
    exact (le_of_eq hsize).trans (hfits route)

/-- What an event does to the response that waits. -/
structure Outcome (cfg : Config) (deferred : Option Deferred) (event : Event) : Prop where
  /-- What waits afterwards can be sent. -/
  sound : ∀ d', (event.step cfg deferred).1 = some d' → Sound d'
  /-- What waited is at its end, or waits on. -/
  kept : ∀ d, deferred = some d → (∀ events, Ends cfg d (event :: events)) ∨
    ∃ d', (event.step cfg deferred).1 = some d' ∧ d.After d' ∧ d'.dueMs = d.dueMs ∧
      ∀ nowMs, event = .timer nowMs → nowMs < d.dueMs

theorem Outcome.unchanged {event : Event} (hsound : ∀ d, deferred = some d → Sound d)
    (hstep : (event.step cfg deferred).1 = deferred) (htimer : ∀ nowMs, event ≠ .timer nowMs) :
    Outcome cfg deferred event := by
  refine ⟨fun d' hd' => hsound d' (hstep ▸ hd'), fun d hd => .inr ⟨d, hstep.trans hd, .refl d, rfl, ?_⟩⟩
  intro nowMs hevent
  exact absurd hevent (htimer nowMs)

/-- With nothing waiting, nothing begins to wait. -/
theorem Outcome.nothing {event : Event} (hstep : (event.step cfg none).1 = none) :
    Outcome cfg none event := by
  constructor
  · intro d' hd'
    rw [hstep] at hd'
    cases hd'
  · intro d hd
    cases hd

theorem outcome_timer (hsound : ∀ d, deferred = some d → Sound d) (nowMs : Nat) :
    Outcome cfg deferred (.timer nowMs) := by
  cases deferred with
  | none => exact .nothing rfl
  | some d =>
    have hd := hsound d rfl
    by_cases hdue : nowMs < d.dueMs
    · have hstep : (Event.timer nowMs).step cfg (some d) = (some d, []) := if_pos hdue
      refine ⟨fun d' hd' => ?_, fun d₀ hd₀ => .inr ⟨d, by rw [hstep], ?_⟩⟩
      · rw [hstep] at hd'
        exact hsound d' hd'
      · obtain rfl := Option.some.inj hd₀
        refine ⟨.refl d, rfl, fun nowMs' hevent => ?_⟩
        rw [← Event.timer.inj hevent]
        exact hdue
    · have hstep : (Event.timer nowMs).step cfg (some d) = (none, d.flush) := if_neg hdue
      refine ⟨fun d' hd' => ?_, fun d₀ hd₀ => .inl fun events => ?_⟩
      · rw [hstep] at hd'
        cases hd'
      · obtain rfl := Option.some.inj hd₀
        exact .due nowMs hstep hd.goes

theorem outcome_closed (hsound : ∀ d, deferred = some d → Sound d) (sockfd : Nat) :
    Outcome cfg deferred (.closed sockfd) := by
  cases deferred with
  | none => exact .nothing rfl
  | some d =>
    by_cases hsame : d.sockfd = sockfd
    · subst hsame
      have hstep : ((Event.closed d.sockfd).step cfg (some d)).1 = none := by
        simp [Event.step, clearDeferredResponseForSockfd]
      refine ⟨fun d' hd' => ?_, fun d₀ hd₀ => .inl fun events => ?_⟩
      · rw [hstep] at hd'
        cases hd'
      · obtain rfl := Option.some.inj hd₀
        exact .closed
    · apply Outcome.unchanged hsound _ (fun _ => Event.noConfusion)
      simp [Event.step, clearDeferredResponseForSockfd, hsame]

/-- A packet without questions. -/
theorem outcome_continue (hsound : ∀ d, deferred = some d → Sound d) {received : q.packet.length ≤ bufSize}
    (hstep : (Event.packet q received).step cfg deferred = continueDeferred deferred q) :
    Outcome cfg deferred (.packet q received) := by
  cases deferred with
  | none => exact .nothing (by rw [hstep]; rfl)
  | some d =>
    by_cases hsender : deferredResponseMatchesSource (some d) q = true
    · have hafter : d.After { d with
          planned := suppressPlannedKnownAnswers q.packet q.ancount sizeofDnsHeader d.planned } :=
        ⟨_, _, rfl, suppress_suppresses q.packet q.ancount sizeofDnsHeader d.planned⟩
      have hd := (hsound d rfl).after hafter
      generalize hd' : ({ d with
          planned := suppressPlannedKnownAnswers q.packet q.ancount sizeofDnsHeader d.planned } : Deferred) = d'
        at hafter hd
      have hcontinue : continueDeferred (some d) q = if q.truncated then (some d', []) else (none, d'.flush) := by
        rw [continueDeferred, if_pos hsender, ← hd']
      rw [hcontinue] at hstep
      by_cases htc : q.truncated = true
      · rw [if_pos htc] at hstep
        refine ⟨fun d'' hd'' => ?_, fun d₀ hd₀ => .inr ⟨d', by rw [hstep], ?_⟩⟩
        · rw [hstep] at hd''
          exact Option.some.inj hd'' ▸ hd
        · obtain rfl := Option.some.inj hd₀
          exact ⟨hafter, by rw [← hd'], fun _ => Event.noConfusion⟩
      · rw [if_neg htc] at hstep
        refine ⟨fun d'' hd'' => ?_, fun d₀ hd₀ => .inl fun events => ?_⟩
        · rw [hstep] at hd''
          cases hd''
        · obtain rfl := Option.some.inj hd₀
          exact .continued q received hsender hafter hstep hd.goes
    · apply Outcome.unchanged hsound _ (fun _ => Event.noConfusion)
      rw [hstep, continueDeferred, if_neg hsender]

/-- A packet with questions. -/
theorem outcome_answer (hvalid : validateConfig options rows usbCmd = .ok cfg)
    (hsound : ∀ d, deferred = some d → Sound d) {received : q.packet.length ≤ bufSize}
    (hheader : ¬ q.packet.length < sizeofDnsHeader) (hquery : ¬ (q.flags &&& dnsFlagQr != 0) = true)
    (hcount : 0 < q.qdcount) {fqdns : Service → Bytes}
    (hfqdns : buildInstanceFqdns (mdnsConfigForScope cfg q.scope) = some fqdns)
    (hcareful : Careful cfg deferred (.packet q received))
    (hstep : (Event.packet q received).step cfg deferred =
      answerQuery (mdnsConfigForScope cfg q.scope) q fqdns deferred) :
    Outcome cfg deferred (.packet q received) := by
  by_cases hreplaced : (deferredResponseMatchesSource deferred q && !q.truncated) = true
  · -- the sender of the response asks anew
    have hparts := Bool.and_eq_true_iff.mp hreplaced
    have hcomplete : q.truncated = false := by simpa using hparts.2
    have hgone : ((Event.packet q received).step cfg deferred).1 = none := by
      rw [hstep, answerQuery, if_pos hreplaced, hcomplete]
      dsimp only
      cases planQuestions (mdnsConfigForScope cfg q.scope) q fqdns q.qdcount sizeofDnsHeader [] with
      | none => rfl
      | some answered => rfl
    refine ⟨fun d' hd' => ?_, fun d hd => .inl fun events => ?_⟩
    · rw [hgone] at hd'
      cases hd'
    · have hsender : d.Sender q := by
        rw [Deferred.Sender, ← hd]
        exact hparts.1
      exact .replaced q received hsender (Nat.ne_of_gt hcount) hcomplete
  cases hplan : planQuestions (mdnsConfigForScope cfg q.scope) q fqdns q.qdcount sizeofDnsHeader [] with
  | none =>
    apply Outcome.unchanged hsound _ (fun _ => Event.noConfusion)
    rw [hstep, answerQuery, if_neg hreplaced, hplan]
  | some answered =>
    obtain ⟨planned, behind⟩ := answered
    by_cases htc : q.truncated = true
    · have hput : ((Event.packet q received).step cfg deferred).1 = deferPlannedResponse q (q.echoed behind)
          (suppressPlannedKnownAnswers q.packet q.ancount behind planned) := by
        rw [hstep, answerQuery, hplan]
        dsimp only
        rw [if_pos htc]
        rfl
      obtain ⟨questions, hasking, hplannable, hsends⟩ :=
        sound_of_deferred hvalid received hheader hquery hcount hfqdns hplan
      obtain ⟨hnone, hfits⟩ := hcareful questions behind fqdns htc hcount hasking hfqdns hplannable
      refine ⟨fun d' hd' => hsends hfits d' (hput ▸ hd'), fun d hd => .inl fun events => ?_⟩
      exact .known (hnone d hd)
    · apply Outcome.unchanged hsound _ (fun _ => Event.noConfusion)
      rw [hstep, answerQuery, if_neg hreplaced, hplan]
      dsimp only
      rw [if_neg htc]

theorem outcome_packet (hvalid : validateConfig options rows usbCmd = .ok cfg)
    (hsound : ∀ d, deferred = some d → Sound d) (received : q.packet.length ≤ bufSize)
    (hcareful : Careful cfg deferred (.packet q received)) : Outcome cfg deferred (.packet q received) := by
  have hunchanged : handleQueryAnyScoped cfg deferred q = (deferred, []) →
      Outcome cfg deferred (.packet q received) := by
    intro h
    apply Outcome.unchanged hsound _ (fun _ => Event.noConfusion)
    rw [Event.step, h]
  by_cases hheader : q.packet.length < sizeofDnsHeader
  · exact hunchanged (by rw [handleQueryAnyScoped, if_pos hheader])
  by_cases hquery : (q.flags &&& dnsFlagQr != 0) = true
  · exact hunchanged (by rw [handleQueryAnyScoped, if_neg hheader, if_pos hquery])
  cases hfqdns : buildInstanceFqdns (mdnsConfigForScope cfg q.scope) with
  | none =>
    apply hunchanged
    rw [handleQueryAnyScoped, if_neg hheader, if_neg hquery]
    dsimp only
    rw [hfqdns]
  | some fqdns =>
    have hhandled : handleQueryAnyScoped cfg deferred q = if q.qdcount = 0 then continueDeferred deferred q
        else answerQuery (mdnsConfigForScope cfg q.scope) q fqdns deferred := by
      rw [handleQueryAnyScoped, if_neg hheader, if_neg hquery]
      dsimp only
      rw [hfqdns]
    by_cases hcount : q.qdcount = 0
    · rw [if_pos hcount] at hhandled
      exact outcome_continue hsound hhandled
    · rw [if_neg hcount] at hhandled
      exact outcome_answer hvalid hsound hheader hquery (Nat.pos_of_ne_zero hcount) hfqdns hcareful hhandled

theorem outcome (hvalid : validateConfig options rows usbCmd = .ok cfg)
    (hsound : ∀ d, deferred = some d → Sound d) {event : Event} (hcareful : Careful cfg deferred event) :
    Outcome cfg deferred event := by
  cases event with
  | packet q received => exact outcome_packet hvalid hsound received hcareful
  | timer nowMs => exact outcome_timer hsound nowMs
  | closed sockfd => exact outcome_closed hsound sockfd

end Step

/-! ## Runs -/

section Runs

variable {options cfg : Config} {rows : List AdiskShareRow} {usbCmd : Bytes}

end Runs

/-! ### A query for the disks, to be continued -/

end TimeCapsule.Mdns
