import TimeCapsule.Mdns.Service

/-!
# Planning the answers to a question

A query's answers are collected in a set of planned records, each with the routes it is to be sent
on.  Planning a record that is already in the set adds its routes.  Planning fails, with the set as
it stands, when a name does not encode, a record's data is too long or the set is full.
-/

namespace TimeCapsule.Mdns

open Lib

def plannedRrMax : Nat := 192
def plannedRdataMax : Nat := 1024

inductive Route where
  | unicast
  | multicast
  | legacyUnicast
deriving DecidableEq, Repr

/-- The routes of a planned record, a bit mask in the source. -/
structure Routes where
  unicast : Bool
  multicast : Bool
  legacyUnicast : Bool
deriving DecidableEq, Repr

namespace Routes

def none : Routes := ⟨false, false, false⟩

def has (routes : Routes) : Route → Bool
  | .unicast => routes.unicast
  | .multicast => routes.multicast
  | .legacyUnicast => routes.legacyUnicast

def union (a b : Routes) : Routes :=
  ⟨a.unicast || b.unicast, a.multicast || b.multicast, a.legacyUnicast || b.legacyUnicast⟩

@[simp] theorem has_none (route : Route) : none.has route = false := by
  cases route <;> rfl

@[simp] theorem has_union (a b : Routes) (route : Route) :
    (a.union b).has route = (a.has route || b.has route) := by
  cases route <;> rfl

end Routes

structure PlannedRr where
  record : Record
  routes : Routes
deriving DecidableEq, Repr

abbrev PlannedRrSet := List PlannedRr

abbrev Plan := PlannedRrSet → Except PlannedRrSet PlannedRrSet

namespace Plan

def when (c : Bool) (p : Plan) : Plan := if c then p else .ok

def inOrder : List Plan → Plan
  | [] => .ok
  | p :: ps => fun set => p set >>= inOrder ps

end Plan

/-! ## Adding a record -/

/-- Whether the planned record has this type, class, owner and data. -/
def PlannedRr.isFor (rr : PlannedRr) (record : Record) : Bool :=
  rr.record.type == record.type && rr.record.rrclass == record.rrclass &&
    nameEquals rr.record.owner record.owner && rr.record.rdata == record.rdata

/-- The set with the routes added to the first planned record that is the given one, if any is. -/
def mergeRoutes (routes : Routes) (record : Record) : PlannedRrSet → Option PlannedRrSet
  | [] => none
  | rr :: rest =>
      if rr.isFor record then some ({ rr with routes := rr.routes.union routes } :: rest)
      else (mergeRoutes routes record rest).map (rr :: ·)

def plannedRrAddRaw (routes : Routes) (record : Record) : Plan := fun set =>
  if routes = Routes.none || record.owner = [] then .ok set
  else if plannedRdataMax < record.rdata.length then .error set
  else
    match mergeRoutes routes record set with
    | some merged => .ok merged
    | none =>
        if plannedRrMax ≤ set.length then .error set
        else .ok (set ++ [⟨{ record with owner := record.owner.take (maxName - 1) }, routes⟩])

/-- The data is written to a buffer of its own, then the record is added. -/
def addWritten (routes : Routes) (owner : Bytes) (type rrclass : UInt16) (ttl : UInt32)
    (rdata : Writer) : Plan := fun set =>
  match rdata [] with
  | none => .error set
  | some data => plannedRrAddRaw routes ⟨owner, type, rrclass, ttl, data⟩ set

def plannedRrAddName (routes : Routes) (owner : Bytes) (type rrclass : UInt16) (ttl : UInt32)
    (target : Bytes) : Plan :=
  addWritten routes owner type rrclass ttl (encodeName plannedRdataMax target)

def plannedRrAddSrv (routes : Routes) (owner target : Bytes) (port : UInt16) (ttl : UInt32) : Plan :=
  addWritten routes owner dnsTypeSrv dnsClassInUnique ttl (srvData plannedRdataMax target port)

def plannedRrAddTxtItems (routes : Routes) (owner : Bytes) (strings : List Bytes) (ttl : UInt32) :
    Plan :=
  if strings = [] then plannedRrAddRaw routes ⟨owner, dnsTypeTxt, dnsClassInUnique, ttl, [0]⟩
  else
    addWritten routes owner dnsTypeTxt dnsClassInUnique ttl (appendTxtStrings plannedRdataMax strings)

def plannedRrAddTxtEmpty (routes : Routes) (owner : Bytes) (ttl : UInt32) : Plan :=
  plannedRrAddTxtItems routes owner [] ttl

def plannedRrAddA (routes : Routes) (owner : Bytes) (addr : Ipv4) (ttl : UInt32) : Plan :=
  plannedRrAddRaw routes ⟨owner, dnsTypeA, dnsClassInUnique, ttl, be32 addr.toNat⟩

def plannedRrAddAaaa (routes : Routes) (owner : Bytes) (addr : In6Addr) (ttl : UInt32) : Plan :=
  plannedRrAddRaw routes ⟨owner, dnsTypeAaaa, dnsClassInUnique, ttl, addr.toList⟩

/-- Whether an IPv6 address of the link is shown. -/
def advertisesIpv6 (link : LinkContext) (addr : LinkIpv6Addr) : Bool :=
  linkIpv6AddrIsSambaBindable addr && !(addr.linkLocal && link.ifindex == 0)

def plannedRrAddLinkAddresses (routes : Routes) (owner : Bytes) (link : LinkContext)
    (includeA includeAaaa : Bool) (ttl : UInt32) : Plan :=
  if owner = [] then .ok
  else
    Plan.inOrder
      [Plan.when includeA
          (Plan.inOrder (link.ipv4.map fun addr => plannedRrAddA routes owner addr.addr ttl)),
        Plan.when includeAaaa
          (Plan.inOrder (link.ipv6.map fun addr =>
            Plan.when (advertisesIpv6 link addr)
              (plannedRrAddAaaa routes owner (ipv6CanonicalizeScopedAddress addr.addr) ttl)))]

/-! ## The records of a service -/

/-- Which records of a service are planned. -/
structure Included where
  ptr : Bool
  srv : Bool
  txt : Bool
  a : Bool
  aaaa : Bool
deriving DecidableEq, Repr

def Included.all : Included := ⟨true, true, true, true, true⟩

/-- What the functions that plan a service's records share; `addTxt` adds the TXT record, if its
texts can be built. -/
def planServiceRecords (routes : Routes) (cfg : Config) (s : Service) (instanceFqdn : Bytes)
    (link : LinkContext) (included : Included) (addTxt : Plan) : Plan :=
  if !s.enabled cfg then .ok
  else
    Plan.inOrder
      [Plan.when included.ptr
          (plannedRrAddName routes s.serviceType dnsTypePtr dnsClassIn cfg.ttl instanceFqdn),
        Plan.when included.srv (plannedRrAddSrv routes instanceFqdn cfg.hostFqdn (s.port cfg) cfg.ttl),
        Plan.when included.txt addTxt,
        plannedRrAddLinkAddresses routes cfg.hostFqdn link included.a included.aaaa cfg.ttl]

/-- The texts are built, then planned. -/
def planTxts (routes : Routes) (cfg : Config) (instanceFqdn : Bytes) (txts : Option (List Bytes)) :
    Plan := fun set =>
  match txts with
  | none => .error set
  | some strings => plannedRrAddTxtItems routes instanceFqdn strings cfg.ttl set

section Services

variable (routes : Routes) (cfg : Config) (instanceFqdn : Bytes) (link : LinkContext)
  (included : Included)

def planSmbRecords : Plan :=
  planServiceRecords routes cfg .smb instanceFqdn link included
    (plannedRrAddTxtEmpty routes instanceFqdn cfg.ttl)

def planAfpRecords : Plan :=
  planServiceRecords routes cfg .afp instanceFqdn link included
    (plannedRrAddTxtEmpty routes instanceFqdn cfg.ttl)

def planAdiskRecords : Plan :=
  planServiceRecords routes cfg .adisk instanceFqdn link included
    (planTxts routes cfg instanceFqdn (buildAdiskTxts cfg))

def planDeviceInfoRecords : Plan :=
  planServiceRecords routes cfg .deviceInfo instanceFqdn link included
    (planTxts routes cfg instanceFqdn ((buildModelTxt cfg.deviceModel).map fun txt => [txt]))

def planAirportRecords : Plan :=
  planServiceRecords routes cfg .airport instanceFqdn link included
    (planTxts routes cfg instanceFqdn ((buildAirportTxt cfg).map fun txt => [txt]))

def planRiousbprintRecords : Plan :=
  planServiceRecords routes cfg .riousbprint instanceFqdn link included
    (planTxts routes cfg instanceFqdn (buildRiousbprintTxtItems cfg))

def planPdlDatastreamRecords : Plan :=
  planServiceRecords routes cfg .pdlDatastream instanceFqdn link included
    (planTxts routes cfg instanceFqdn (buildPdlDatastreamTxtItems cfg))

end Services

/-- The function that plans a service's records. -/
def planRecords (routes : Routes) (cfg : Config) (s : Service) (instanceFqdn : Bytes)
    (link : LinkContext) (included : Included) : Plan :=
  match s with
  | .smb => planSmbRecords routes cfg instanceFqdn link included
  | .afp => planAfpRecords routes cfg instanceFqdn link included
  | .adisk => planAdiskRecords routes cfg instanceFqdn link included
  | .deviceInfo => planDeviceInfoRecords routes cfg instanceFqdn link included
  | .airport => planAirportRecords routes cfg instanceFqdn link included
  | .riousbprint => planRiousbprintRecords routes cfg instanceFqdn link included
  | .pdlDatastream => planPdlDatastreamRecords routes cfg instanceFqdn link included

def planServiceTypeEnumerationType (routes : Routes) (serviceType : Bytes) (ttl : UInt32) : Plan :=
  if serviceType = [] then .ok
  else plannedRrAddName routes dnsSdServiceEnumerationName dnsTypePtr dnsClassIn ttl serviceType

/-- The services, in the order their types are enumerated and asked for. -/
def allServices : List Service :=
  [.smb, .afp, .adisk, .deviceInfo, .airport, .riousbprint, .pdlDatastream]

def planServiceTypeEnumerationRecords (routes : Routes) (cfg : Config) : Plan :=
  Plan.inOrder (allServices.map fun s =>
    Plan.when (s.enabled cfg) (planServiceTypeEnumerationType routes s.serviceType cfg.ttl))

/-! ## Questions -/

/-- The names of the enabled services' instances, if all of them can be built. -/
def buildInstanceFqdns (cfg : Config) : Option (Service → Bytes) :=
  if allServices.all fun s => !s.enabled cfg || (s.buildFqdn cfg).isSome then
    some fun s => if s.enabled cfg then (s.buildFqdn cfg).getD [] else []
  else none

/-- What a question for an instance's name asks for. -/
def Included.ofInstance (qtype : UInt16) : Included :=
  let srv := qtype == dnsTypeSrv || qtype == dnsTypeAny
  { ptr := false
    srv
    txt := qtype == dnsTypeTxt || qtype == dnsTypeAny
    a := srv
    aaaa := srv }

/-- The first service whose instance the question names.  Names of instances are compared only where
the service is enabled. -/
def instanceAsked (cfg : Config) (qname : Bytes) (fqdns : Service → Bytes) : Option Service :=
  allServices.find? fun s => s.enabled cfg && nameEquals qname (fqdns s)

/-- The services whose type is asked for before all others, and alone. -/
def firstTypes : List Service := [.smb, .afp, .adisk, .deviceInfo]

/-- The services whose types are looked at one after the other. -/
def generatedAppleTypes : List Service := [.airport, .riousbprint, .pdlDatastream]

/-- The answers to a question for the name of an instance or of the host. -/
def planNameAnswers (routes : Routes) (qname : Bytes) (qtype : UInt16) (cfg : Config)
    (link : LinkContext) (fqdns : Service → Bytes) : Plan :=
  (instanceAsked cfg qname fqdns).elim
    (Plan.when (nameEquals qname cfg.hostFqdn)
      (plannedRrAddLinkAddresses routes cfg.hostFqdn link (qtype == dnsTypeA || qtype == dnsTypeAny)
        (qtype == dnsTypeAaaa || qtype == dnsTypeAny) cfg.ttl))
    fun s => planRecords routes cfg s (fqdns s) link (Included.ofInstance qtype)

def planQuestionAnswers (routes : Routes) (qname : Bytes) (qtype : UInt16) (cfg : Config)
    (link : LinkContext) (fqdns : Service → Bytes) : Plan :=
  let asksPtr := qtype == dnsTypePtr || qtype == dnsTypeAny
  let asksType := fun s : Service => s.enabled cfg && nameEquals qname s.serviceType && asksPtr
  if nameEquals qname dnsSdServiceEnumerationName && asksPtr then
    planServiceTypeEnumerationRecords routes cfg
  else
    (firstTypes.find? asksType).elim
      (Plan.inOrder
        [Plan.inOrder (generatedAppleTypes.map fun s =>
            Plan.when (asksType s) (planRecords routes cfg s (fqdns s) link Included.all)),
          Plan.when (!generatedAppleTypes.any asksType)
            (planNameAnswers routes qname qtype cfg link fqdns)])
      fun s => planRecords routes cfg s (fqdns s) link Included.all

end TimeCapsule.Mdns
