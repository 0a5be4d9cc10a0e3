import TimeCapsule.Mdns.Announce

/-!
# Queries and announcements

A PTR query for a service type is answered from the planned records, announcements are built by
functions of their own.  Both have the same records exactly when the planned TXT data and the
announced packets stay within their limits.
-/

namespace TimeCapsule.Mdns

open Lib

/-- The set that planning leaves, also where it fails. -/
def plannedRecords : Except PlannedRrSet PlannedRrSet → List Record
  | .ok set => set.map (·.record)
  | .error set => set.map (·.record)

/-- The records a PTR query for the name plans. -/
def ptrQueryRecords (cfg : Config) (link : LinkContext) (routes : Routes) (qname : Bytes) :
    List Record :=
  (buildInstanceFqdns cfg).elim [] fun fqdns =>
    plannedRecords (planQuestionAnswers routes qname dnsTypePtr cfg link fqdns [])

/-- Whether a record is the service's: its own, or an address of the host. -/
def Service.owns (s : Service) (cfg : Config) (r : Record) : Bool :=
  [Owner.service s, Owner.inst s, Owner.host].any fun o => r.owner == o.text cfg

/-- The service's records in the announcement packets. -/
def announcedRecords (accepts : Bytes → Bool) (cfg : Config) (link : LinkContext) (s : Service) :
    List Record :=
  ((sendAnnouncementAnyScoped accepts cfg link cfg.ttl .lan).2.flatMap (·.records)).filter
    (s.owns cfg)

/-- The services that may start another packet, up to this one. -/
def flushedUpTo : Service → List Service
  | .pdlDatastream => [.pdlDatastream]
  | .riousbprint => [.pdlDatastream, .riousbprint]
  | .airport => [.pdlDatastream, .riousbprint, .airport]
  | _ => []

/-- The data of the service's TXT record can be planned. -/
def TxtPlannable (cfg : Config) (s : Service) : Prop :=
  ∀ data ∈ (s.txts cfg).bind txtData, data.length ≤ plannedRdataMax

/-- The service's records are placed in a packet: the core records fit the first one, and the
services from then on each fit one of their own, with every full packet accepted. -/
def Placed (accepts : Bytes → Bool) (cfg : Config) (link : LinkContext) (s : Service) : Prop :=
  fitsPacket (coreRecords cfg link cfg.ttl) ∧
    Packs fitsPacket (acceptsRecords accepts) (coreRecords cfg link cfg.ttl)
      ((flushedUpTo s).map (·.announced cfg cfg.ttl))

section Sizes

theorem wireNameFrom_length {name label wire : Bytes} {escaped : Bool}
    (h : wireNameFrom name escaped label = some wire) :
    1 ≤ wire.length ∧ wire.length ≤ label.length + name.length + 2 := by
  induction name generalizing escaped label wire with
  | nil =>
    cases escaped with
    | true => cases h
    | false =>
      unfold wireNameFrom at h
      split at h
      · obtain rfl := Option.some.inj h
        simp
      · obtain rfl := Option.some.inj h
        simp
  | cons ch rest ih =>
    rw [List.length_cons]
    cases escaped with
    | true =>
      unfold wireNameFrom at h
      split at h
      · cases h
      · have hlen := ih h
        rw [List.length_append, List.length_singleton] at hlen
        omega
    | false =>
      unfold wireNameFrom at h
      split at h
      · have hlen := ih h
        omega
      split at h
      · split at h
        · split at h
          · obtain rfl := Option.some.inj h
            simp
          · cases h
        · obtain ⟨tail, htail, rfl⟩ := Option.map_eq_some_iff.mp h
          have hlen := ih htail
          simp only [List.length_append, List.length_cons, List.length_nil] at hlen ⊢
          omega
      split at h
      · cases h
      · have hlen := ih h
        rw [List.length_append, List.length_singleton] at hlen
        omega

theorem wireName_length {name wire : Bytes} (h : wireName name = some wire) :
    1 ≤ wire.length ∧ wire.length ≤ name.length + 2 := by
  unfold wireName at h
  split at h
  · cases h
  · simpa using wireNameFrom_length h

/-- A record takes at least eleven bytes. -/
theorem encode_length {r : Record} {bytes : Bytes} (h : r.encode = some bytes) :
    11 ≤ bytes.length := by
  unfold Record.encode at h
  obtain ⟨owner, howner, rfl⟩ := Option.map_eq_some_iff.mp h
  have hlen := (wireName_length howner).1
  simp only [List.length_append, length_be16, length_be32]
  omega

theorem encodeAll_length {rs : List Record} {bytes : Bytes} (h : encodeAll rs = some bytes) :
    11 * rs.length ≤ bytes.length := by
  induction rs generalizing bytes with
  | nil => simp
  | cons r rs ih =>
    obtain ⟨first, hfirst, h⟩ := Option.bind_eq_some_iff.mp h
    obtain ⟨rest, hrest, rfl⟩ := Option.map_eq_some_iff.mp h
    have hr := encode_length hfirst
    have hrs := ih hrest
    rw [List.length_append, List.length_cons]
    omega

theorem fitsPacket_length {rs : List Record} (h : fitsPacket rs) : 11 * rs.length ≤ bufSize := by
  unfold fitsPacket at h
  cases hall : encodeAll rs with
  | none => simp [hall] at h
  | some bytes =>
    have hlen := encodeAll_length hall
    simp only [hall, Option.any_some, decide_eq_true_eq] at h
    omega

end Sizes

section Agreement

variable {cfg : Config} {s : Service} {link : LinkContext}

theorem buildInstanceFqdns_some (hcfg : Accepted cfg) :
    ∃ fqdns, buildInstanceFqdns cfg = some fqdns ∧ FqdnsOf cfg fqdns := by
  unfold buildInstanceFqdns
  rw [if_pos]
  · refine ⟨_, rfl, fun s hs => ?_⟩
    rw [if_pos hs, hcfg.fqdn hs, Option.getD_some]
  · rw [List.all_eq_true]
    intro s _
    by_cases hs : s.enabled cfg
    · simp [hs, hcfg.fqdn hs]
    · simp [hs]

/-- A PTR question for a service type asks for all records of the service. -/
theorem questionRecords_serviceType (hs : s.enabled cfg) {qname : Bytes}
    (hq : nameEquals qname s.serviceType) (fqdns : Service → Bytes) :
    questionRecords qname dnsTypePtr cfg link fqdns =
      s.records cfg (fqdns s) link Included.all := by
  have hcanonical := nameEquals_iff.mp hq
  have henumeration : nameEquals qname dnsSdServiceEnumerationName = false := by
    rw [Bool.eq_false_iff, ne_eq, nameEquals_iff, hcanonical]
    cases s <;> decide
  have htype : (fun s' : Service => s'.enabled cfg && nameEquals qname s'.serviceType &&
      (dnsTypePtr == dnsTypePtr || dnsTypePtr == dnsTypeAny)) = fun s' => decide (s' = s) := by
    funext s'
    by_cases h : s' = s
    · subst h
      simp [hs, hq]
    · have hother : nameEquals qname s'.serviceType = false := by
        rw [Bool.eq_false_iff]
        intro hq'
        have hsame := hcanonical.symm.trans (nameEquals_iff.mp hq')
        exact h (Owner.serviceType_inj s s' (nameEquals_iff.mpr hsame)).symm
      simp [h, hother]
  unfold questionRecords
  dsimp only
  rw [henumeration, htype, Bool.false_and, if_neg (by decide)]
  cases s <;> simp [firstTypes, generatedAppleTypes, List.find?]

/-- The three records of an enabled service. -/
theorem Accepted.announced_eq (hcfg : Accepted cfg) (hs : s.enabled cfg) (ttl : UInt32) :
    ∃ ptrData srvData txtBytes,
      ptrData.length ≤ plannedRdataMax ∧ srvData.length ≤ plannedRdataMax ∧
      (s.txts cfg).bind txtData = some txtBytes ∧
      [s.ptr ((Owner.inst s).text cfg) ttl, s.srv cfg ((Owner.inst s).text cfg) ttl,
        s.txt cfg ((Owner.inst s).text cfg) ttl] =
        [some ⟨s.serviceType, dnsTypePtr, dnsClassIn, ttl, ptrData⟩,
          some ⟨(Owner.inst s).text cfg, dnsTypeSrv, dnsClassInUnique, ttl, srvData⟩,
          some ⟨(Owner.inst s).text cfg, dnsTypeTxt, dnsClassInUnique, ttl, txtBytes⟩] ∧
      s.announced cfg ttl =
        [⟨s.serviceType, dnsTypePtr, dnsClassIn, ttl, ptrData⟩,
          ⟨(Owner.inst s).text cfg, dnsTypeSrv, dnsClassInUnique, ttl, srvData⟩,
          ⟨(Owner.inst s).text cfg, dnsTypeTxt, dnsClassInUnique, ttl, txtBytes⟩] := by
  obtain ⟨ptrData, hptrData, hptr⟩ := hcfg.ptr_some hs ttl
  obtain ⟨srvData, hsrvData, hsrv⟩ := hcfg.srv_some hs ((Owner.inst s).text cfg) ttl
  obtain ⟨txtBytes, hbind, htxt⟩ := hcfg.txt_some hs ((Owner.inst s).text cfg) ttl
  refine ⟨ptrData, srvData, txtBytes, ?_, ?_, hbind, by rw [hptr, hsrv, htxt, txtRecord], ?_⟩
  · have hname := hcfg.text_length (o := .inst s) hs
    have hlen := (wireName_length hptrData).2
    unfold maxName at hname
    unfold plannedRdataMax
    omega
  · obtain ⟨name, hname, rfl⟩ := Option.map_eq_some_iff.mp hsrvData
    have hhost := hcfg.text_length (o := .host) trivial
    have hlen := (wireName_length hname).2
    unfold maxName at hhost
    unfold plannedRdataMax
    simp only [List.length_append, length_be16]
    omega
  · unfold Service.announced
    rw [if_pos hs, hptr, hsrv, htxt]
    rfl

/-- The records of a service have the service's names. -/
theorem Accepted.owner_announced (hcfg : Accepted cfg) {ttl : UInt32} {r : Record}
    (h : r ∈ s.announced cfg ttl) :
    r.owner = (Owner.service s).text cfg ∨ r.owner = (Owner.inst s).text cfg := by
  by_cases hs : s.enabled cfg
  · obtain ⟨ptrData, srvData, txtBytes, -, -, -, -, heq⟩ := hcfg.announced_eq hs ttl
    rw [heq] at h
    simp only [List.mem_cons, List.not_mem_nil, or_false] at h
    rcases h with rfl | rfl | rfl
    · exact Or.inl (Owner.text_service cfg s).symm
    · exact Or.inr rfl
    · exact Or.inr rfl
  · unfold Service.announced at h
    rw [if_neg hs] at h
    cases h

theorem text_inj' {o o' : Owner} (h : o.text cfg = o'.text cfg) : o = o' :=
  Owner.text_inj cfg (h ▸ nameEquals_refl _)

/-- Of the announced records, a service owns its own. -/
theorem Accepted.owns_announced (hcfg : Accepted cfg) {s' : Service} {ttl : UInt32} {r : Record}
    (h : r ∈ s'.announced cfg ttl) : s.owns cfg r ↔ s' = s := by
  unfold Service.owns
  simp only [List.any_cons, List.any_nil, Bool.or_false, Bool.or_eq_true, beq_iff_eq]
  constructor
  · intro howns
    rcases hcfg.owner_announced h with ho | ho <;> rw [ho] at howns
    · rcases howns with heq | heq | heq <;> cases text_inj' heq
      rfl
    · rcases howns with heq | heq | heq <;> cases text_inj' heq
      rfl
  · rintro rfl
    rcases hcfg.owner_announced h with ho | ho
    · exact Or.inl ho
    · exact Or.inr (Or.inl ho)

theorem Accepted.owns_address (hcfg : Accepted cfg) {r : Record}
    (h : r ∈ linkAddresses cfg.hostFqdn link true true cfg.ttl) : s.owns cfg r := by
  obtain ⟨hne, howner, -⟩ := mem_linkAddresses h
  have hhost : cfg.hostFqdn = Owner.host.text cfg := by
    rcases hcfg.hostFqdn with hhost | ⟨hhost, -⟩
    · exact hhost
    · exact absurd hhost hne
  unfold Service.owns
  simp [howner, hhost]

theorem Accepted.address_not_announced (hcfg : Accepted cfg) {ttl : UInt32} {r : Record}
    (h : r ∈ linkAddresses cfg.hostFqdn link true true cfg.ttl) : r ∉ s.announced cfg ttl := by
  intro hr
  obtain ⟨hne, howner, -⟩ := mem_linkAddresses h
  have hhost : cfg.hostFqdn = Owner.host.text cfg := by
    rcases hcfg.hostFqdn with hhost | ⟨hhost, -⟩
    · exact hhost
    · exact absurd hhost hne
  rw [hhost] at howner
  rcases hcfg.owner_announced hr with ho | ho <;> cases text_inj' (howner.symm.trans ho)

theorem Accepted.announced_disjoint (hcfg : Accepted cfg) {s' : Service} {ttl : UInt32}
    {r : Record} (h : r ∈ s.announced cfg ttl) (h' : r ∈ s'.announced cfg ttl) : s' = s :=
  (hcfg.owns_announced h').mp ((hcfg.owns_announced h).mpr rfl)

/-- The service is announced with the core records, or in the group that ends the list. -/
theorem mem_core_or_flushed (s : Service) :
    (flushedUpTo s = [] ∧ ∀ (cfg : Config) (link : LinkContext) (ttl : UInt32),
      ∀ r ∈ s.announced cfg ttl, r ∈ coreRecords cfg link ttl) ∨
    ∃ before after, flushedServices = before ++ s :: after ∧ flushedUpTo s = before ++ [s] ∧
      s ∉ before := by
  unfold coreRecords
  cases s with
  | smb => exact Or.inl ⟨rfl, fun cfg link ttl r hr => by simp [hr]⟩
  | afp => exact Or.inl ⟨rfl, fun cfg link ttl r hr => by simp [hr]⟩
  | adisk => exact Or.inl ⟨rfl, fun cfg link ttl r hr => by simp [hr]⟩
  | deviceInfo => exact Or.inl ⟨rfl, fun cfg link ttl r hr => by simp [hr]⟩
  | pdlDatastream => exact Or.inr ⟨[], [.riousbprint, .airport], rfl, rfl, by decide⟩
  | riousbprint => exact Or.inr ⟨[.pdlDatastream], [.airport], rfl, rfl, by decide⟩
  | airport => exact Or.inr ⟨[.pdlDatastream, .riousbprint], [], rfl, rfl, by decide⟩

theorem mem_core_cases {r : Record} {ttl : UInt32} (h : r ∈ coreRecords cfg link ttl) :
    (∃ s : Service, s ∉ flushedServices ∧ r ∈ s.announced cfg ttl) ∨
      r ∈ linkAddresses cfg.hostFqdn link true true ttl := by
  unfold coreRecords at h
  simp only [List.mem_append] at h
  rcases h with (((h | h) | h) | h) | h
  · exact Or.inl ⟨.smb, by decide, h⟩
  · exact Or.inl ⟨.afp, by decide, h⟩
  · exact Or.inr h
  · exact Or.inl ⟨.adisk, by decide, h⟩
  · exact Or.inl ⟨.deviceInfo, by decide, h⟩

/-- What an announcement places of a service. -/
theorem mem_announcedRecords (hcfg : Accepted cfg) (accepts : Bytes → Bool) (link : LinkContext)
    (s : Service) (r : Record) :
    r ∈ announcedRecords accepts cfg link s ↔
      fitsPacket (coreRecords cfg link cfg.ttl) ∧
        (r ∈ linkAddresses cfg.hostFqdn link true true cfg.ttl ∨
          r ∈ s.announced cfg cfg.ttl ∧ Placed accepts cfg link s) := by
  unfold announcedRecords Placed
  rw [sendAnnouncement_sent accepts hcfg]
  by_cases hcore : fitsPacket (coreRecords cfg link cfg.ttl)
  swap
  · rw [if_neg hcore]
    simp [hcore]
  rw [if_pos hcore, List.mem_filter, List.flatMap_map]
  have hflat : (pack fitsPacket (acceptsRecords accepts) (coreRecords cfg link cfg.ttl)
      (flushedServices.map (·.announced cfg cfg.ttl))).flatMap
        (fun rs => (announcementPacket rs).records) =
      (pack fitsPacket (acceptsRecords accepts) (coreRecords cfg link cfg.ttl)
        (flushedServices.map (·.announced cfg cfg.ttl))).flatten :=
    List.flatMap_id
  rw [hflat]
  have haddress : r ∈ linkAddresses cfg.hostFqdn link true true cfg.ttl →
      r ∈ coreRecords cfg link cfg.ttl := by
    intro h
    unfold coreRecords
    simp [h]
  have hplaced : r ∈ s.announced cfg cfg.ttl →
      (r ∈ (pack fitsPacket (acceptsRecords accepts) (coreRecords cfg link cfg.ttl)
        (flushedServices.map (·.announced cfg cfg.ttl))).flatten ↔
      Packs fitsPacket (acceptsRecords accepts) (coreRecords cfg link cfg.ttl)
        ((flushedUpTo s).map (·.announced cfg cfg.ttl))) := by
    intro hr
    rcases mem_core_or_flushed s with ⟨hnone, hmem⟩ | ⟨before, after, hall, hupto, hbefore⟩
    · rw [hnone]
      constructor
      · intro _
        exact ⟨by simp, by simp [flushes]⟩
      · intro _
        exact mem_pack_of_mem (hmem cfg link cfg.ttl r hr)
    · rw [hall, hupto, List.map_append, List.map_append, List.map_cons]
      apply mem_pack_iff (fun a b h => fitsPacket_append h) hr
      · intro hrcore
        rcases mem_core_cases hrcore with ⟨s', hs', hr'⟩ | haddr
        · rw [hcfg.announced_disjoint hr hr', hall] at hs'
          simp at hs'
        · exact hcfg.address_not_announced haddr hr
      · intro g hg hrg
        obtain ⟨s', hs', rfl⟩ := List.mem_map.mp hg
        rw [hcfg.announced_disjoint hr hrg] at hs'
        exact hbefore hs'
  constructor
  · rintro ⟨hmem, howns⟩
    refine ⟨hcore, ?_⟩
    rcases mem_of_mem_pack hmem with h | ⟨g, hg, h⟩
    · rcases mem_core_cases h with ⟨s', -, hr⟩ | haddr
      · obtain rfl := (hcfg.owns_announced hr).mp howns
        exact Or.inr ⟨hr, hcore, (hplaced hr).mp hmem⟩
      · exact Or.inl haddr
    · obtain ⟨s', -, rfl⟩ := List.mem_map.mp hg
      obtain rfl := (hcfg.owns_announced h).mp howns
      exact Or.inr ⟨h, hcore, (hplaced h).mp hmem⟩
  · rintro ⟨-, haddr | ⟨hr, -, hpacks⟩⟩
    · exact ⟨mem_pack_of_mem (haddress haddr), hcfg.owns_address haddr⟩
    · exact ⟨(hplaced hr).mpr hpacks, (hcfg.owns_announced hr).mpr rfl⟩

/-- The asks of a PTR query for the service type. -/
theorem ptrQuery_asks (hs : s.enabled cfg) {qname : Bytes}
    (hq : nameEquals qname s.serviceType) {fqdns : Service → Bytes} (hf : FqdnsOf cfg fqdns) :
    askedRecords qname dnsTypePtr cfg link fqdns =
      s.announced cfg cfg.ttl ++ linkAddresses cfg.hostFqdn link true true cfg.ttl := by
  unfold askedRecords Service.announced
  rw [questionRecords_serviceType hs hq, Service.records, if_pos hs, hf s hs, if_pos hs]
  show List.filterMap id ([s.ptr _ cfg.ttl, s.srv cfg _ cfg.ttl, s.txt cfg _ cfg.ttl] ++
    (linkAddresses cfg.hostFqdn link true true cfg.ttl).map some) = _
  rw [List.filterMap_append]
  congr 1
  rw [List.filterMap_map]
  exact List.filterMap_some

/-- What a PTR query plans: all records of the service and the addresses if planning succeeds, and
else the records before the one it fails at. -/
theorem ptrQuery_planned (hcfg : Accepted cfg) (hs : s.enabled cfg) (link : LinkContext)
    {routes : Routes} (hroutes : routes ≠ Routes.none) {qname : Bytes}
    (hq : nameEquals qname s.serviceType) :
    ∃ done rest, s.announced cfg cfg.ttl ++ linkAddresses cfg.hostFqdn link true true cfg.ttl =
        done ++ rest ∧
      (∀ r, r ∈ ptrQueryRecords cfg link routes qname ↔ r ∈ done) ∧
      (∀ r ∈ done, r.rdata.length ≤ plannedRdataMax) ∧
      (rest = [] ∨ ∃ r tail, rest = r :: tail ∧
        (plannedRdataMax < r.rdata.length ∨ plannedRrMax ≤ done.length)) := by
  obtain ⟨fqdns, hfqdns, hf⟩ := buildInstanceFqdns_some hcfg
  let asks : List Ask := (askedRecords qname dnsTypePtr cfg link fqdns).map (·, routes)
  have hasks : ∀ a ∈ asks, Answer cfg a.1 ∧ a.2 ≠ Routes.none := by
    intro a ha
    obtain ⟨r, hr, rfl⟩ := List.mem_map.mp ha
    exact ⟨hcfg.askedRecords_answers hf hr, hroutes⟩
  have hrecords : asks.map Prod.fst =
      s.announced cfg cfg.ttl ++ linkAddresses cfg.hostFqdn link true true cfg.ttl := by
    show (List.map _ _).map Prod.fst = _
    rw [List.map_map]
    exact (List.map_id _).trans (ptrQuery_asks hs hq hf)
  have hquery : ptrQueryRecords cfg link routes qname = plannedRecords (planAsks asks []) := by
    unfold ptrQueryRecords
    rw [hfqdns, Option.elim_some, hcfg.planQuestionAnswers hf]
  rw [hquery]
  cases hrun : planAsks asks [] with
  | ok set =>
    obtain ⟨hplans, -, hdata⟩ := planAsks_ok hcfg PlansFor.nil (Nat.zero_le _) hasks hrun
    rw [List.nil_append] at hplans
    refine ⟨asks.map Prod.fst, [], by rw [hrecords, List.append_nil], hplans.mem, ?_, Or.inl rfl⟩
    intro r hr
    obtain ⟨a, ha, rfl⟩ := List.mem_map.mp hr
    exact hdata a ha
  | error set =>
    obtain ⟨done, a, rest, hsplit, hplans, hdata, hreason⟩ :=
      planAsks_error hcfg PlansFor.nil hasks hrun
    rw [List.nil_append] at hplans
    refine ⟨done.map Prod.fst, (a :: rest).map Prod.fst, ?_, hplans.mem, ?_,
      Or.inr ⟨a.1, rest.map Prod.fst, rfl, ?_⟩⟩
    · rw [← hrecords, hsplit, List.map_append]
    · intro r hr
      obtain ⟨d, hd, rfl⟩ := List.mem_map.mp hr
      exact hdata d hd
    · refine hreason.imp id fun h => ?_
      rw [List.length_map]
      have hcount := hplans.length_eq
      have hle : distinct done ≤ (done.map Prod.fst).length := List.toFinset_card_le _
      rw [List.length_map] at hle
      omega

/-- A PTR query for a service type plans exactly the service's announced records if and only if its
TXT data can be planned and its records are placed in an announcement. -/
theorem ptr_query_matches_announcement_iff (options : Config) (rows : List AdiskShareRow)
    (usbCmd : Bytes) (hcfg : validateConfig options rows usbCmd = .ok cfg) (hs : s.enabled cfg)
    (link : LinkContext) (accepts : Bytes → Bool) {routes : Routes} (hroutes : routes ≠ Routes.none)
    {qname : Bytes} (hq : nameEquals qname s.serviceType) :
    (∀ r, r ∈ ptrQueryRecords cfg link routes qname ↔ r ∈ announcedRecords accepts cfg link s) ↔
      TxtPlannable cfg s ∧ Placed accepts cfg link s := by
  replace hcfg := validateConfig_accepted hcfg
  obtain ⟨done, rest, hsplit, hplanned, hdone, hrest⟩ := ptrQuery_planned hcfg hs link hroutes hq
  obtain ⟨ptrData, srvData, txtBytes, hptrLen, hsrvLen, htxts, -, hannounced⟩ :=
    hcfg.announced_eq hs cfg.ttl
  have haddr : ∀ r ∈ linkAddresses cfg.hostFqdn link true true cfg.ttl, r.rdata.length ≤ 16 :=
    fun r hr => (mem_linkAddresses hr).2.2.2.2.2
  have htxtPlannable : TxtPlannable cfg s ↔ txtBytes.length ≤ plannedRdataMax := by
    unfold TxtPlannable
    rw [htxts]
    simp
  have hnotAddress : ∀ r ∈ s.announced cfg cfg.ttl,
      r ∉ linkAddresses cfg.hostFqdn link true true cfg.ttl :=
    fun r hr haddress => hcfg.address_not_announced haddress hr
  rw [htxtPlannable]
  constructor
  · intro hsame
    have hptr : (⟨s.serviceType, dnsTypePtr, dnsClassIn, cfg.ttl, ptrData⟩ : Record) ∈
        s.announced cfg cfg.ttl := by
      rw [hannounced]
      simp
    have htxt : (⟨(Owner.inst s).text cfg, dnsTypeTxt, dnsClassInUnique, cfg.ttl, txtBytes⟩ : Record) ∈
        s.announced cfg cfg.ttl := by
      rw [hannounced]
      simp
    -- planning never fails at its first record, so the PTR record is planned
    have hptrDone : (⟨s.serviceType, dnsTypePtr, dnsClassIn, cfg.ttl, ptrData⟩ : Record) ∈ done := by
      rw [hannounced] at hsplit
      cases done with
      | cons d done =>
        have hhead := congrArg List.head? hsplit
        simp only [List.cons_append, List.head?_cons, Option.some.injEq] at hhead
        rw [hhead]
        exact List.mem_cons_self
      | nil =>
        rcases hrest with rfl | ⟨r, tail, rfl, hlong | hfull⟩
        · cases hsplit
        · have hhead := congrArg List.head? hsplit
          simp only [List.cons_append, List.nil_append, List.head?_cons, Option.some.injEq] at hhead
          rw [← hhead] at hlong
          exact absurd hptrLen (not_le.mpr hlong)
        · simp [plannedRrMax] at hfull
    have hplaced : Placed accepts cfg link s := by
      have h := (hsame _).mp ((hplanned _).mpr hptrDone)
      rw [mem_announcedRecords hcfg] at h
      rcases h.2 with haddress | ⟨-, hplaced⟩
      · exact absurd haddress (hnotAddress _ hptr)
      · exact hplaced
    refine ⟨?_, hplaced⟩
    have h := (hsame _).mpr ((mem_announcedRecords hcfg accepts link s _).mpr
      ⟨hplaced.1, Or.inr ⟨htxt, hplaced⟩⟩)
    exact hdone _ ((hplanned _).mp h)
  · rintro ⟨htxtLen, hplaced⟩ r
    have hall : rest = [] := by
      rcases hrest with hnil | ⟨x, tail, rfl, hlong | hfull⟩
      · exact hnil
      · exfalso
        have hx : x ∈ s.announced cfg cfg.ttl ++
            linkAddresses cfg.hostFqdn link true true cfg.ttl := by
          rw [hsplit]
          simp
        rw [hannounced] at hx
        simp only [List.mem_append, List.mem_cons, List.not_mem_nil, or_false] at hx
        rcases hx with (rfl | rfl | rfl) | hx
        · exact absurd hptrLen (not_le.mpr hlong)
        · exact absurd hsrvLen (not_le.mpr hlong)
        · exact absurd htxtLen (not_le.mpr hlong)
        · have hlen := haddr x hx
          unfold plannedRdataMax at hlong
          omega
      · exfalso
        -- the addresses fit the first packet, so there are few of them
        have hcore := fitsPacket_length hplaced.1
        unfold coreRecords at hcore
        simp only [List.length_append] at hcore
        have hcount := congrArg List.length hsplit
        rw [hannounced] at hcount
        simp only [List.length_append, List.length_cons, List.length_nil] at hcount
        unfold bufSize at hcore
        unfold plannedRrMax at hfull
        omega
    rw [hall, List.append_nil] at hsplit
    rw [hplanned, ← hsplit, mem_announcedRecords hcfg, List.mem_append]
    constructor
    · rintro (hr | hr)
      · exact ⟨hplaced.1, Or.inr ⟨hr, hplaced⟩⟩
      · exact ⟨hplaced.1, Or.inl hr⟩
    · rintro ⟨-, hr | ⟨hr, -⟩⟩
      · exact Or.inr hr
      · exact Or.inl hr

end Agreement

/-! ### A configuration whose disks are described at length -/

def capsuleOptions : Config where
  instanceName := ascii "Time Capsule"
  hostLabel := ascii "capsule"
  hostFqdn := []
  adiskSysWama := ascii "00:11:22:33:44:55"
  adiskDisks := []
  deviceModel := []
  airportWama := []
  airportRama := []
  airportRam2 := []
  airportRast := []
  airportRana := []
  airportSyfl := []
  airportSyap := []
  airportSyvs := []
  airportSrcv := []
  airportBjsd := []
  riousbprintInstanceName := []
  riousbprintNote := []
  riousbprintMfg := []
  riousbprintMdl := []
  riousbprintSerial := []
  riousbprintCmd := []
  port := 445
  adiskPort := 9
  afpPort := 548
  airportPort := 5009
  riousbprintPort := 10000
  pdlDatastreamPort := 9100
  ttl := 120
  diskless := false
  advertiseAfp := false

/-- A row of the shares file; the share's name has this many letters. -/
def shareRow (n letters : Nat) : AdiskShareRow where
  shareName := List.replicate letters (UInt8.ofNat (97 + n))
  diskKey := ascii "dk" ++ [UInt8.ofNat (48 + n)]
  uuid := ascii "00000000-0000-0000-0000-000000000000"
  diskAdvf := ascii "0x1093"

def lanLink4 : LinkContext where
  name := "bridge0"
  flags := 0x41
  ifindex := 1
  isWan := false
  mdnsIpv4Transport := true
  mdnsIpv4TransportAddr := 0
  mdnsIpv6Transport := false
  ipv4 := [⟨0x0a000101, 0xffffff00⟩]
  ipv6 := []

def shareDisk (n letters : Nat) : AdiskDisk :=
  let row := shareRow n letters
  ⟨row.shareName, row.diskKey, row.diskAdvf, row.uuid⟩

/-- The accepted configuration with this many disks. -/
def capsuleConfig (disks letters : Nat) : Config :=
  { capsuleOptions with
    adiskDisks := (List.range disks).map (shareDisk · letters)
    hostFqdn := ascii "capsule.local." }

/-- With one disk the two agree as far as the limits allow. -/
theorem single_disk_query_matches_iff :
    (∀ r, r ∈ ptrQueryRecords (capsuleConfig 1 4) lanLink4 ⟨false, true, false⟩ adiskServiceType ↔
        r ∈ announcedRecords (fun _ => true) (capsuleConfig 1 4) lanLink4 .adisk) ↔
      TxtPlannable (capsuleConfig 1 4) .adisk ∧
        Placed (fun _ => true) (capsuleConfig 1 4) lanLink4 .adisk :=
  ptr_query_matches_announcement_iff capsuleOptions [shareRow 0 4] [] (by decide +kernel) (by decide)
    lanLink4 (fun _ => true) (by decide) (by decide)

/-- Eight disks with names of 64 letters: the TXT record is announced, and a query for the type does
not plan it. -/
theorem eight_disk_query_differs :
    validateConfig capsuleOptions ((List.range 8).map (shareRow · 64)) [] = .ok (capsuleConfig 8 64) ∧
      Service.adisk.enabled (capsuleConfig 8 64) ∧
      ¬ ∀ r, r ∈ ptrQueryRecords (capsuleConfig 8 64) lanLink4 ⟨false, true, false⟩ adiskServiceType ↔
        r ∈ announcedRecords (fun _ => true) (capsuleConfig 8 64) lanLink4 .adisk := by
  refine ⟨by decide +kernel, by decide +kernel, fun h => ?_⟩
  have hsub : ¬ ∀ r ∈ announcedRecords (fun _ => true) (capsuleConfig 8 64) lanLink4 .adisk,
      r ∈ ptrQueryRecords (capsuleConfig 8 64) lanLink4 ⟨false, true, false⟩ adiskServiceType := by
    decide +kernel
  exact hsub fun r hr => (h r).mpr hr

end TimeCapsule.Mdns
