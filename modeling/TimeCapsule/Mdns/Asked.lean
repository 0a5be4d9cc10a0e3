import TimeCapsule.Mdns.Plan

/-!
# The records a question asks for

What the planning functions plan, as a list of records: a question asks for a list of records, and
planning an answer adds them one by one.
-/

namespace TimeCapsule.Mdns

open Lib

/-! ## Lists of records -/

/-- Plans a record, if it could be written. -/
def planRecord (routes : Routes) : Option Record → Plan
  | none => .error
  | some record =>
      if plannedRdataMax < record.rdata.length then .error else plannedRrAddRaw routes record

def planAll (routes : Routes) (records : List (Option Record)) : Plan :=
  Plan.inOrder (records.map (planRecord routes))

/-- The data of a TXT record with these texts. -/
def txtData (strings : List Bytes) : Option Bytes :=
  if strings = [] then some [0] else txtRdata strings

/-- The addresses that are shown for a link. -/
def linkAddresses (owner : Bytes) (link : LinkContext) (a aaaa : Bool) (ttl : UInt32) :
    List Record :=
  if owner = [] then []
  else
    (if a then link.ipv4.map fun addr => aRecord owner (be32 addr.addr.toNat) ttl else []) ++
      (if aaaa then
        (link.ipv6.filter (advertisesIpv6 link)).map fun addr =>
          aaaaRecord owner (ipv6CanonicalizeScopedAddress addr.addr).toList ttl
      else [])

namespace Service

def ptr (s : Service) (fqdn : Bytes) (ttl : UInt32) : Option Record :=
  ptrRecord s.serviceType fqdn ttl

def srv (s : Service) (cfg : Config) (fqdn : Bytes) (ttl : UInt32) : Option Record :=
  srvRecord fqdn cfg.hostFqdn (s.port cfg) ttl

def txt (s : Service) (cfg : Config) (fqdn : Bytes) (ttl : UInt32) : Option Record :=
  ((s.txts cfg).bind txtData).map (txtRecord fqdn · ttl)

/-- The records planned for a service. -/
def records (s : Service) (cfg : Config) (fqdn : Bytes) (link : LinkContext) (included : Included) :
    List (Option Record) :=
  if s.enabled cfg then
    (if included.ptr then [s.ptr fqdn cfg.ttl] else []) ++
      (if included.srv then [s.srv cfg fqdn cfg.ttl] else []) ++
      (if included.txt then [s.txt cfg fqdn cfg.ttl] else []) ++
      (linkAddresses cfg.hostFqdn link included.a included.aaaa cfg.ttl).map some
  else []

end Service

/-- The records that enumerate the enabled service types. -/
def enumerationRecords (cfg : Config) : List (Option Record) :=
  (allServices.filter (·.enabled cfg)).map fun s =>
    ptrRecord dnsSdServiceEnumerationName s.serviceType cfg.ttl

/-- The records a question for the name of an instance or of the host asks for. -/
def nameRecords (qname : Bytes) (qtype : UInt16) (cfg : Config) (link : LinkContext)
    (fqdns : Service → Bytes) : List (Option Record) :=
  (instanceAsked cfg qname fqdns).elim
    (if nameEquals qname cfg.hostFqdn then
      (linkAddresses cfg.hostFqdn link (qtype == dnsTypeA || qtype == dnsTypeAny)
        (qtype == dnsTypeAaaa || qtype == dnsTypeAny) cfg.ttl).map some
    else [])
    fun s => s.records cfg (fqdns s) link (Included.ofInstance qtype)

/-- The records a question asks for. -/
def questionRecords (qname : Bytes) (qtype : UInt16) (cfg : Config) (link : LinkContext)
    (fqdns : Service → Bytes) : List (Option Record) :=
  let asksPtr := qtype == dnsTypePtr || qtype == dnsTypeAny
  let asksType := fun s : Service => s.enabled cfg && nameEquals qname s.serviceType && asksPtr
  if nameEquals qname dnsSdServiceEnumerationName && asksPtr then enumerationRecords cfg
  else
    (firstTypes.find? asksType).elim
      ((generatedAppleTypes.filter asksType).flatMap (fun s =>
          s.records cfg (fqdns s) link Included.all) ++
        if generatedAppleTypes.any asksType then []
        else nameRecords qname qtype cfg link fqdns)
      fun s => s.records cfg (fqdns s) link Included.all

section Planning

variable (routes : Routes)

theorem inOrder_append (ps qs : List Plan) :
    Plan.inOrder (ps ++ qs) = fun set => Plan.inOrder ps set >>= Plan.inOrder qs := by
  funext set
  induction ps generalizing set with
  | nil => rfl
  | cons p ps ih =>
    show (p set >>= Plan.inOrder (ps ++ qs)) = (p set >>= Plan.inOrder ps) >>= Plan.inOrder qs
    cases p set with
    | error e => rfl
    | ok next => exact ih next

theorem inOrder_flatten (pss : List (List Plan)) :
    Plan.inOrder (pss.map Plan.inOrder) = Plan.inOrder pss.flatten := by
  induction pss with
  | nil => rfl
  | cons ps pss ih =>
    rw [List.flatten_cons, inOrder_append, ← ih]
    rfl

theorem planAll_nil : planAll routes [] = .ok := rfl

theorem inOrder_planAll (lists : List (List (Option Record))) :
    Plan.inOrder (lists.map (planAll routes)) = planAll routes lists.flatten := by
  have hmap : lists.map (planAll routes) =
      (lists.map (List.map (planRecord routes))).map Plan.inOrder := by
    rw [List.map_map]
    rfl
  rw [hmap, inOrder_flatten, planAll, List.map_flatten]

theorem when_planAll (c : Bool) (records : List (Option Record)) :
    Plan.when c (planAll routes records) = planAll routes (if c then records else []) := by
  cases c <;> rfl

theorem planAll_singleton (record : Option Record) :
    planAll routes [record] = planRecord routes record := by
  funext set
  show (planRecord routes record set >>= Except.ok) = _
  cases planRecord routes record set <;> rfl

/-! ### The planning functions -/

theorem addWritten_eq {w : Writer} {x : Option Bytes} (hw : Renders plannedRdataMax w x)
    (owner : Bytes) (type rrclass : UInt16) (ttl : UInt32) :
    addWritten routes owner type rrclass ttl w =
      planRecord routes (x.map (Record.mk owner type rrclass ttl)) := by
  funext set
  unfold addWritten
  rw [hw [] (Nat.zero_le _)]
  cases x with
  | none => rfl
  | some data =>
    rw [Option.bind_some, Option.map_some]
    unfold planRecord appendBytes
    dsimp only
    rw [List.length_nil, Nat.zero_add]
    by_cases h : plannedRdataMax < data.length
    · rw [if_pos h, if_pos h]
    · rw [if_neg h, if_neg h]
      rfl

theorem planRecord_short {record : Record} (h : record.rdata.length ≤ plannedRdataMax) :
    planRecord routes (some record) = plannedRrAddRaw routes record := by
  unfold planRecord
  exact if_neg (not_lt.mpr h)

theorem plannedRrAddName_eq (owner target : Bytes) (ttl : UInt32) :
    plannedRrAddName routes owner dnsTypePtr dnsClassIn ttl target =
      planAll routes [ptrRecord owner target ttl] := by
  rw [planAll_singleton]
  exact addWritten_eq routes (renders_encodeName _ target) owner dnsTypePtr dnsClassIn ttl

theorem plannedRrAddSrv_eq (owner target : Bytes) (port : UInt16) (ttl : UInt32) :
    plannedRrAddSrv routes owner target port ttl =
      planAll routes [srvRecord owner target port ttl] := by
  rw [planAll_singleton]
  exact addWritten_eq routes (renders_srvData _ target port) owner dnsTypeSrv dnsClassInUnique ttl

theorem plannedRrAddTxtItems_eq (owner : Bytes) (strings : List Bytes) (ttl : UInt32) :
    plannedRrAddTxtItems routes owner strings ttl =
      planAll routes [(txtData strings).map (txtRecord owner · ttl)] := by
  rw [planAll_singleton]
  unfold plannedRrAddTxtItems txtData
  by_cases h : strings = []
  · rw [if_pos h, if_pos h, Option.map_some,
      planRecord_short routes (by simp [txtRecord, plannedRdataMax])]
    rfl
  · rw [if_neg h, if_neg h]
    exact addWritten_eq routes (renders_appendTxtStrings _ strings) owner dnsTypeTxt
      dnsClassInUnique ttl

theorem planTxts_eq (cfg : Config) (fqdn : Bytes) (txts : Option (List Bytes)) :
    planTxts routes cfg fqdn txts =
      planAll routes [(txts.bind txtData).map (txtRecord fqdn · cfg.ttl)] := by
  funext set
  cases txts with
  | none => rfl
  | some strings =>
    show plannedRrAddTxtItems routes fqdn strings cfg.ttl set = _
    rw [plannedRrAddTxtItems_eq, Option.bind_some]

theorem plannedRrAddLinkAddresses_eq (owner : Bytes) (link : LinkContext) (a aaaa : Bool)
    (ttl : UInt32) :
    plannedRrAddLinkAddresses routes owner link a aaaa ttl =
      planAll routes ((linkAddresses owner link a aaaa ttl).map some) := by
  unfold plannedRrAddLinkAddresses linkAddresses
  by_cases ho : owner = []
  · rw [if_pos ho, if_pos ho]
    rfl
  rw [if_neg ho, if_neg ho]
  have h4 : (link.ipv4.map fun addr => plannedRrAddA routes owner addr.addr ttl) =
      ((link.ipv4.map fun addr => aRecord owner (be32 addr.addr.toNat) ttl).map some).map
        (planRecord routes) := by
    rw [List.map_map, List.map_map]
    apply List.map_congr_left
    intro addr _
    exact (planRecord_short routes (by simp [plannedRdataMax])).symm
  have h6 : (link.ipv6.map fun addr => Plan.when (advertisesIpv6 link addr)
        (plannedRrAddAaaa routes owner (ipv6CanonicalizeScopedAddress addr.addr) ttl)) =
      (link.ipv6.map fun addr => if advertisesIpv6 link addr then
        [some (aaaaRecord owner (ipv6CanonicalizeScopedAddress addr.addr).toList ttl)] else []).map
          (planAll routes) := by
    rw [List.map_map]
    apply List.map_congr_left
    intro addr _
    rw [Function.comp_apply, ← when_planAll, planAll_singleton, planRecord_short _
      (by simp [aaaaRecord, plannedRdataMax])]
    rfl
  have hfilter : (link.ipv6.map fun addr => if advertisesIpv6 link addr then
        [some (aaaaRecord owner (ipv6CanonicalizeScopedAddress addr.addr).toList ttl)] else []).flatten =
      ((link.ipv6.filter (advertisesIpv6 link)).map fun addr =>
        aaaaRecord owner (ipv6CanonicalizeScopedAddress addr.addr).toList ttl).map some := by
    induction link.ipv6 with
    | nil => rfl
    | cons addr rest ih =>
      rw [List.map_cons, List.flatten_cons, ih, List.filter_cons]
      split <;> simp
  rw [h6, inOrder_planAll, hfilter, h4]
  show Plan.inOrder [Plan.when a (planAll routes _), Plan.when aaaa (planAll routes _)] = _
  rw [when_planAll, when_planAll]
  refine (inOrder_planAll routes [_, _]).trans ?_
  congr 1
  cases a <;> cases aaaa <;> simp

theorem planServiceRecords_eq (cfg : Config) (s : Service) (fqdn : Bytes) (link : LinkContext)
    (included : Included) {addTxt : Plan} (htxt : addTxt = planAll routes [s.txt cfg fqdn cfg.ttl]) :
    planServiceRecords routes cfg s fqdn link included addTxt =
      planAll routes (s.records cfg fqdn link included) := by
  unfold planServiceRecords Service.records
  by_cases h : s.enabled cfg
  · rw [if_neg (by simp [h]), if_pos h, htxt, plannedRrAddName_eq, plannedRrAddSrv_eq,
      plannedRrAddLinkAddresses_eq, when_planAll, when_planAll, when_planAll]
    refine (inOrder_planAll routes [_, _, _, _]).trans ?_
    simp only [List.flatten_cons, List.flatten_nil, List.append_nil, List.append_assoc]
    rfl
  · rw [if_pos (by simp [h]), if_neg h]
    rfl

theorem planRecords_eq (cfg : Config) (s : Service) (fqdn : Bytes) (link : LinkContext)
    (included : Included) :
    planRecords routes cfg s fqdn link included =
      planAll routes (s.records cfg fqdn link included) := by
  cases s with
  | smb => exact planServiceRecords_eq routes cfg _ fqdn link included (plannedRrAddTxtItems_eq ..)
  | afp => exact planServiceRecords_eq routes cfg _ fqdn link included (plannedRrAddTxtItems_eq ..)
  | _ => exact planServiceRecords_eq routes cfg _ fqdn link included (planTxts_eq ..)

theorem planServiceTypeEnumerationRecords_eq (cfg : Config) :
    planServiceTypeEnumerationRecords routes cfg = planAll routes (enumerationRecords cfg) := by
  have htype : ∀ s : Service, planServiceTypeEnumerationType routes s.serviceType cfg.ttl =
      planAll routes [ptrRecord dnsSdServiceEnumerationName s.serviceType cfg.ttl] := by
    intro s
    unfold planServiceTypeEnumerationType
    rw [if_neg (by cases s <;> decide), plannedRrAddName_eq]
  have hfilter : ∀ services : List Service, (services.map fun s => if s.enabled cfg then
        [ptrRecord dnsSdServiceEnumerationName s.serviceType cfg.ttl] else []).flatten =
      (services.filter (·.enabled cfg)).map fun s =>
        ptrRecord dnsSdServiceEnumerationName s.serviceType cfg.ttl := by
    intro services
    induction services with
    | nil => rfl
    | cons s rest ih =>
      rw [List.map_cons, List.flatten_cons, ih, List.filter_cons]
      split <;> simp
  unfold planServiceTypeEnumerationRecords enumerationRecords
  rw [← hfilter, ← inOrder_planAll, List.map_map]
  congr 1
  apply List.map_congr_left
  intro s _
  rw [htype, when_planAll]
  rfl

theorem planNameAnswers_eq (qname : Bytes) (qtype : UInt16) (cfg : Config) (link : LinkContext)
    (fqdns : Service → Bytes) :
    planNameAnswers routes qname qtype cfg link fqdns =
      planAll routes (nameRecords qname qtype cfg link fqdns) := by
  unfold planNameAnswers nameRecords
  cases instanceAsked cfg qname fqdns with
  | none =>
    rw [plannedRrAddLinkAddresses_eq, when_planAll]
    rfl
  | some s => exact planRecords_eq ..

theorem planGenerated_eq (p : Service → Bool) (cfg : Config) (link : LinkContext)
    (fqdns : Service → Bytes) (services : List Service) :
    Plan.inOrder (services.map fun s => Plan.when (p s)
        (planRecords routes cfg s (fqdns s) link Included.all)) =
      planAll routes ((services.filter p).flatMap fun s =>
        s.records cfg (fqdns s) link Included.all) := by
  have hfilter : (services.map fun s =>
      if p s then s.records cfg (fqdns s) link Included.all else []).flatten =
      (services.filter p).flatMap fun s => s.records cfg (fqdns s) link Included.all := by
    induction services with
    | nil => rfl
    | cons s rest ih =>
      rw [List.map_cons, List.flatten_cons, ih, List.filter_cons]
      split <;> simp
  rw [← hfilter, ← inOrder_planAll, List.map_map]
  congr 1
  apply List.map_congr_left
  intro s _
  rw [planRecords_eq, when_planAll]
  rfl

/-- Answering a question plans the records it asks for. -/
theorem planQuestionAnswers_eq (qname : Bytes) (qtype : UInt16) (cfg : Config) (link : LinkContext)
    (fqdns : Service → Bytes) :
    planQuestionAnswers routes qname qtype cfg link fqdns =
      planAll routes (questionRecords qname qtype cfg link fqdns) := by
  unfold planQuestionAnswers questionRecords
  dsimp only
  split
  · exact planServiceTypeEnumerationRecords_eq routes cfg
  rw [planGenerated_eq, planNameAnswers_eq, when_planAll]
  generalize firstTypes.find? _ = first
  cases first with
  | some s => exact planRecords_eq ..
  | none =>
    refine (inOrder_planAll routes [_, _]).trans ?_
    rw [List.flatten_cons, List.flatten_cons, List.flatten_nil, List.append_nil, Option.elim_none]
    congr 2
    cases generatedAppleTypes.any _ <;> rfl

end Planning

end TimeCapsule.Mdns
