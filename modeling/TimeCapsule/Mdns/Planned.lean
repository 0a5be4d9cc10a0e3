import Mathlib.Data.Finset.Card
import TimeCapsule.Mdns.Asked

/-!
# What a planned set holds

Planning a list of records leads to a set that holds each of them once, with all routes it was asked
for on, or fails at the first record that is too long or has no room.
-/

namespace TimeCapsule.Mdns

open Lib

/-- A record as the answers of the configuration hold it: one of its owners, its time to live, and
the class of the type. -/
structure Answer (cfg : Config) (r : Record) : Prop where
  owner : ∃ o : Owner, o.Used cfg ∧ r.owner = o.text cfg
  ttl : r.ttl = cfg.ttl
  rrclass : r.rrclass = if r.type = dnsTypePtr then dnsClassIn else dnsClassInUnique

/-- A record and the routes it is asked for on. -/
abbrev Ask := Record × Routes

def planAsks (asks : List Ask) : Plan :=
  Plan.inOrder (asks.map fun a => planRecord a.2 (some a.1))

/-- The set holds what was asked for. -/
structure PlansFor (cfg : Config) (asked : List Ask) (set : PlannedRrSet) : Prop where
  answers : ∀ rr ∈ set, Answer cfg rr.record
  nodup : (set.map (·.record)).Nodup
  mem : ∀ r, r ∈ set.map (·.record) ↔ r ∈ asked.map Prod.fst
  routes : ∀ rr ∈ set, ∀ route, rr.routes.has route ↔ ∃ a ∈ asked, a.1 = rr.record ∧ a.2.has route

section Planned

variable {cfg : Config} {asked asks : List Ask} {set set' : PlannedRrSet} {r r' : Record}
  {routes : Routes}

theorem Answer.ext (h : Answer cfg r) (h' : Answer cfg r') (htype : r.type = r'.type)
    (howner : nameEquals r.owner r'.owner) (hrdata : r.rdata = r'.rdata) : r = r' := by
  obtain ⟨o, -, ho⟩ := h.owner
  obtain ⟨o', -, ho'⟩ := h'.owner
  rw [ho, ho'] at howner
  obtain rfl := Owner.text_inj cfg howner
  have hclass := h.rrclass
  have hclass' := h'.rrclass
  have httl := h.ttl
  have httl' := h'.ttl
  obtain ⟨owner, type, rrclass, ttl, rdata⟩ := r
  obtain ⟨owner', type', rrclass', ttl', rdata'⟩ := r'
  dsimp only at ho ho' htype hrdata hclass hclass' httl httl'
  rw [ho, ho', htype, hclass, hclass', htype, httl, httl', hrdata]

theorem nameEquals_refl (name : Bytes) : nameEquals name name := nameEquals_iff.mpr rfl

/-- Among answers, comparing type, class, owner and data is comparing records. -/
theorem Answer.isFor_iff {rr : PlannedRr} (h : Answer cfg rr.record) (h' : Answer cfg r) :
    rr.isFor r ↔ rr.record = r := by
  unfold PlannedRr.isFor
  constructor
  · intro hfor
    simp only [Bool.and_eq_true, beq_iff_eq] at hfor
    exact h.ext h' hfor.1.1.1 hfor.1.2 hfor.2
  · rintro rfl
    simp [nameEquals_refl]

def PlannedRr.addRoutes (r : Record) (routes : Routes) (rr : PlannedRr) : PlannedRr :=
  if rr.record = r then { rr with routes := rr.routes.union routes } else rr

theorem PlannedRr.record_addRoutes (rr : PlannedRr) :
    (rr.addRoutes r routes).record = rr.record := by
  unfold addRoutes
  split <;> rfl

theorem map_addRoutes_of_not_mem (h : r ∉ set.map (·.record)) :
    set.map (PlannedRr.addRoutes r routes) = set := by
  apply List.map_congr_left (g := id) _ |>.trans (List.map_id set)
  intro rr hrr
  unfold PlannedRr.addRoutes
  rw [if_neg]
  · rfl
  · rintro rfl
    exact h (List.mem_map_of_mem hrr)

theorem mergeRoutes_eq (hset : ∀ rr ∈ set, Answer cfg rr.record)
    (hnodup : (set.map (·.record)).Nodup) (hr : Answer cfg r) :
    mergeRoutes routes r set =
      if r ∈ set.map (·.record) then some (set.map (PlannedRr.addRoutes r routes)) else none := by
  induction set with
  | nil => rfl
  | cons rr rest ih =>
    rw [List.map_cons, List.nodup_cons] at hnodup
    unfold mergeRoutes
    by_cases hfor : rr.isFor r
    · obtain rfl := ((hset rr List.mem_cons_self).isFor_iff hr).mp hfor
      rw [if_pos hfor, if_pos (by simp), List.map_cons, map_addRoutes_of_not_mem hnodup.1]
      unfold PlannedRr.addRoutes
      rw [if_pos rfl]
    · have hne : rr.record ≠ r := fun h => hfor (((hset rr List.mem_cons_self).isFor_iff hr).mpr h)
      rw [if_neg hfor, ih (fun x hx => hset x (List.mem_cons_of_mem _ hx)) hnodup.2, List.map_cons,
        List.map_cons]
      have hkeep : PlannedRr.addRoutes r routes rr = rr := by
        unfold PlannedRr.addRoutes
        rw [if_neg hne]
      rw [hkeep]
      by_cases hmem : r ∈ rest.map (·.record)
      · rw [if_pos hmem, if_pos (List.mem_cons_of_mem _ hmem), Option.map_some]
      · rw [if_neg hmem, if_neg (by simp [hne.symm, hmem]), Option.map_none]

theorem PlansFor.nil : PlansFor cfg [] [] :=
  ⟨by simp, List.nodup_nil, by simp, by simp⟩

/-- A record that is already planned. -/
theorem PlansFor.merged (h : PlansFor cfg asked set) (hmem : r ∈ set.map (·.record)) :
    PlansFor cfg (asked ++ [(r, routes)]) (set.map (PlannedRr.addRoutes r routes)) := by
  have hrecords : (set.map (PlannedRr.addRoutes r routes)).map (·.record) = set.map (·.record) := by
    rw [List.map_map]
    exact List.map_congr_left fun rr _ => rr.record_addRoutes
  constructor
  · intro rr' hrr'
    obtain ⟨rr, hrr, rfl⟩ := List.mem_map.mp hrr'
    rw [PlannedRr.record_addRoutes]
    exact h.answers rr hrr
  · rw [hrecords]
    exact h.nodup
  · intro x
    rw [hrecords, h.mem, List.map_append, List.mem_append]
    constructor
    · exact Or.inl
    · rintro (hx | hx)
      · exact hx
      · rw [List.map_singleton, List.mem_singleton] at hx
        rw [hx]
        exact (h.mem r).mp hmem
  · intro rr' hrr' route
    obtain ⟨rr, hrr, rfl⟩ := List.mem_map.mp hrr'
    rw [PlannedRr.record_addRoutes]
    simp only [List.mem_append, List.mem_singleton, or_and_right, exists_or, exists_eq_left]
    rw [← h.routes rr hrr route]
    unfold PlannedRr.addRoutes
    by_cases hr : rr.record = r
    · rw [if_pos hr, Routes.has_union, Bool.or_eq_true]
      simp [hr]
    · rw [if_neg hr]
      simp [Ne.symm hr]

/-- A record that is planned for the first time. -/
theorem PlansFor.added (h : PlansFor cfg asked set) (hr : Answer cfg r)
    (hmem : r ∉ set.map (·.record)) :
    PlansFor cfg (asked ++ [(r, routes)]) (set ++ [⟨r, routes⟩]) := by
  constructor
  · intro rr hrr
    rcases List.mem_append.mp hrr with hrr | hrr
    · exact h.answers rr hrr
    · rw [List.mem_singleton.mp hrr]
      exact hr
  · rw [List.map_append, List.map_singleton, List.nodup_append]
    refine ⟨h.nodup, List.nodup_singleton _, ?_⟩
    intro x hx y hy hxy
    rw [List.mem_singleton] at hy
    rw [hxy, hy] at hx
    exact hmem hx
  · intro x
    rw [List.map_append, List.map_append, List.mem_append, List.mem_append, h.mem]
    rfl
  · intro rr hrr route
    simp only [List.mem_append, List.mem_singleton, or_and_right, exists_or, exists_eq_left]
    rcases List.mem_append.mp hrr with hold | hrr
    · have hne : r ≠ rr.record := by
        rintro rfl
        exact hmem (List.mem_map_of_mem hold)
      rw [← h.routes rr hold route]
      simp [hne]
    · rw [List.mem_singleton.mp hrr]
      have hno : ¬ ∃ a ∈ asked, a.1 = r ∧ a.2.has route := by
        rintro ⟨a, ha, rfl, -⟩
        exact hmem ((h.mem a.1).mpr (List.mem_map_of_mem ha))
      simp [hno]

/-- One record is added, or finds its data too long or the set full. -/
theorem planRecord_cases (hcfg : Accepted cfg) (h : PlansFor cfg asked set) (hr : Answer cfg r)
    (hroutes : routes ≠ Routes.none) :
    (r.rdata.length ≤ plannedRdataMax ∧
        ∃ set', planRecord routes (some r) set = .ok set' ∧
          PlansFor cfg (asked ++ [(r, routes)]) set' ∧
          (r ∈ set.map (·.record) ∧ set'.length = set.length ∨ set'.length ≤ plannedRrMax)) ∨
      (planRecord routes (some r) set = .error set ∧
        (plannedRdataMax < r.rdata.length ∨
          r ∉ set.map (·.record) ∧ plannedRrMax ≤ set.length)) := by
  obtain ⟨o, hused, howner⟩ := hr.owner
  have hlen : r.owner.length < maxName := howner ▸ hcfg.text_length hused
  have hne : r.owner ≠ [] := by
    rw [howner]
    unfold Owner.text dotted
    simp
  by_cases hlong : plannedRdataMax < r.rdata.length
  · right
    refine ⟨?_, Or.inl hlong⟩
    unfold planRecord
    dsimp only
    rw [if_pos hlong]
  have hraw : planRecord routes (some r) set =
      if r ∈ set.map (·.record) then .ok (set.map (PlannedRr.addRoutes r routes))
      else if plannedRrMax ≤ set.length then .error set else .ok (set ++ [⟨r, routes⟩]) := by
    rw [planRecord_short routes (not_lt.mp hlong)]
    unfold plannedRrAddRaw
    rw [if_neg (by simp [hroutes, hne]), if_neg hlong, mergeRoutes_eq h.answers h.nodup hr,
      List.take_of_length_le (by unfold maxName at hlen ⊢; omega)]
    by_cases hmem : r ∈ set.map (·.record)
    · rw [if_pos hmem, if_pos hmem]
    · rw [if_neg hmem, if_neg hmem]
  by_cases hmem : r ∈ set.map (·.record)
  · left
    rw [if_pos hmem] at hraw
    exact ⟨not_lt.mp hlong, _, hraw, h.merged hmem, Or.inl ⟨hmem, by simp⟩⟩
  rw [if_neg hmem] at hraw
  by_cases hfull : plannedRrMax ≤ set.length
  · right
    rw [if_pos hfull] at hraw
    exact ⟨hraw, Or.inr ⟨hmem, hfull⟩⟩
  · left
    rw [if_neg hfull] at hraw
    refine ⟨not_lt.mp hlong, _, hraw, h.added hr hmem, Or.inr ?_⟩
    rw [List.length_append, List.length_singleton]
    omega

/-- A plan that succeeds plans every record. -/
theorem planAsks_ok (hcfg : Accepted cfg) (h : PlansFor cfg asked set)
    (hlen : set.length ≤ plannedRrMax)
    (hasks : ∀ a ∈ asks, Answer cfg a.1 ∧ a.2 ≠ Routes.none) (hok : planAsks asks set = .ok set') :
    PlansFor cfg (asked ++ asks) set' ∧ set'.length ≤ plannedRrMax ∧
      ∀ a ∈ asks, a.1.rdata.length ≤ plannedRdataMax := by
  induction asks generalizing asked set with
  | nil =>
    obtain rfl := Except.ok.inj hok
    rw [List.append_nil]
    exact ⟨h, hlen, by simp⟩
  | cons a rest ih =>
    obtain ⟨ha, hrest⟩ := List.forall_mem_cons.mp hasks
    obtain ⟨next, hnext, hok⟩ := bind_eq_ok.mp hok
    rcases planRecord_cases hcfg h ha.1 ha.2 with ⟨hshort, next', hnext', hfor, hsize⟩ | ⟨herror, -⟩
    · obtain rfl := Except.ok.inj (hnext.symm.trans hnext')
      have hlen' : next.length ≤ plannedRrMax := by omega
      obtain ⟨hplans, hsize', hdata⟩ := ih hfor hlen' hrest hok
      rw [List.append_assoc] at hplans
      exact ⟨hplans, hsize', List.forall_mem_cons.mpr ⟨hshort, hdata⟩⟩
    · cases herror.symm.trans hnext

/-- A plan that fails has planned the records before the one it fails at. -/
theorem planAsks_error (hcfg : Accepted cfg) (h : PlansFor cfg asked set)
    (hasks : ∀ a ∈ asks, Answer cfg a.1 ∧ a.2 ≠ Routes.none)
    (herror : planAsks asks set = .error set') :
    ∃ done a rest, asks = done ++ a :: rest ∧ PlansFor cfg (asked ++ done) set' ∧
      (∀ d ∈ done, d.1.rdata.length ≤ plannedRdataMax) ∧
      (plannedRdataMax < a.1.rdata.length ∨
        a.1 ∉ set'.map (·.record) ∧ plannedRrMax ≤ set'.length) := by
  induction asks generalizing asked set with
  | nil => cases herror
  | cons a rest ih =>
    obtain ⟨ha, hrest⟩ := List.forall_mem_cons.mp hasks
    rcases planRecord_cases hcfg h ha.1 ha.2 with ⟨hshort, next, hnext, hfor, -⟩ | ⟨hfail, hreason⟩
    · have herror' : planAsks rest next = .error set' := by
        have hrun : planAsks (a :: rest) set =
            planRecord a.2 (some a.1) set >>= planAsks rest := rfl
        rw [hrun, hnext] at herror
        exact herror
      obtain ⟨done, b, tail, rfl, hplans, hdata, hreason⟩ := ih hfor hrest herror'
      rw [List.append_assoc] at hplans
      exact ⟨a :: done, b, tail, rfl, hplans, List.forall_mem_cons.mpr ⟨hshort, hdata⟩, hreason⟩
    · have hset : set = set' := by
        have hrun : planAsks (a :: rest) set =
            planRecord a.2 (some a.1) set >>= planAsks rest := rfl
        rw [hrun, hfail] at herror
        exact Except.error.inj herror
      subst hset
      exact ⟨[], a, rest, rfl, by rwa [List.append_nil], by simp, hreason⟩

/-- The number of different records asked for. -/
def distinct (asked : List Ask) : Nat := (asked.map Prod.fst).toFinset.card

theorem PlansFor.length_eq (h : PlansFor cfg asked set) : set.length = distinct asked := by
  have hsame : (set.map (·.record)).toFinset = (asked.map Prod.fst).toFinset := by
    ext r
    rw [List.mem_toFinset, List.mem_toFinset]
    exact h.mem r
  rw [distinct, ← hsame, List.toFinset_card_of_nodup h.nodup, List.length_map]

/-- What is asked for can be planned: no data is too long, and there are not too many records. -/
def Plannable (asks : List Ask) : Prop :=
  (∀ a ∈ asks, a.1.rdata.length ≤ plannedRdataMax) ∧ distinct asks ≤ plannedRrMax

theorem distinct_le_append (asks rest : List Ask) : distinct asks ≤ distinct (asks ++ rest) := by
  apply Finset.card_le_card
  intro r
  simp only [List.mem_toFinset, List.map_append, List.mem_append]
  exact Or.inl

theorem planAsks_ok_iff (hcfg : Accepted cfg)
    (hasks : ∀ a ∈ asks, Answer cfg a.1 ∧ a.2 ≠ Routes.none) :
    (∃ set', planAsks asks [] = .ok set') ↔ Plannable asks := by
  constructor
  · rintro ⟨set', hok⟩
    obtain ⟨hplans, hlen, hdata⟩ := planAsks_ok hcfg PlansFor.nil (Nat.zero_le _) hasks hok
    rw [List.nil_append] at hplans
    exact ⟨hdata, hplans.length_eq ▸ hlen⟩
  · rintro ⟨hdata, hcount⟩
    cases hrun : planAsks asks [] with
    | ok set' => exact ⟨set', rfl⟩
    | error set' =>
      obtain ⟨done, a, rest, rfl, hplans, -, hlong | ⟨hnew, hfull⟩⟩ :=
        planAsks_error hcfg PlansFor.nil hasks hrun
      · exact absurd (hdata a (by simp)) (not_le.mpr hlong)
      · rw [List.nil_append] at hplans
        have hmore : (set' ++ [PlannedRr.mk a.1 a.2]).length = distinct (done ++ [a]) :=
          (hplans.added (hasks a (by simp)).1 hnew).length_eq
        rw [List.length_append, List.length_singleton] at hmore
        have hle := distinct_le_append (done ++ [a]) rest
        rw [List.append_assoc, List.singleton_append] at hle
        omega

end Planned

/-! ## The records of an accepted configuration -/

/-- The names the handler builds for the enabled services. -/
def FqdnsOf (cfg : Config) (fqdns : Service → Bytes) : Prop :=
  ∀ s : Service, s.enabled cfg → fqdns s = (Owner.inst s).text cfg

/-- The record could be written, and is an answer. -/
def IsAnswer (cfg : Config) (x : Option Record) : Prop := ∃ r, x = some r ∧ Answer cfg r

section Accepted

variable {cfg : Config} {s : Service} {link : LinkContext} {fqdns : Service → Bytes}

theorem Answer.encodes {r : Record} (hcfg : Accepted cfg) (h : Answer cfg r) : r.encode.isSome := by
  obtain ⟨o, hused, howner⟩ := h.owner
  unfold Record.encode
  rw [Option.isSome_map, howner]
  exact hcfg.text_encodes hused

theorem txtRdata_isSome {strings : List Bytes} (h : ShortTxts strings) :
    (txtRdata strings).isSome := by
  induction strings with
  | nil => rfl
  | cons t rest ih =>
    unfold txtRdata
    rw [if_neg (not_lt.mpr (h t List.mem_cons_self)), Option.isSome_map]
    exact ih fun x hx => h x (List.mem_cons_of_mem t hx)

theorem txtData_isSome {strings : List Bytes} (h : ShortTxts strings) :
    (txtData strings).isSome := by
  unfold txtData
  split
  · rfl
  · exact txtRdata_isSome h

theorem Accepted.txt_some (hcfg : Accepted cfg) (hs : s.enabled cfg) (fqdn : Bytes) (ttl : UInt32) :
    ∃ data, (s.txts cfg).bind txtData = some data ∧
      s.txt cfg fqdn ttl = some (txtRecord fqdn data ttl) := by
  obtain ⟨strings, hstrings⟩ := Option.isSome_iff_exists.mp (hcfg.txts s hs)
  obtain ⟨data, hdata⟩ := Option.isSome_iff_exists.mp (txtData_isSome (Service.txts_short hstrings))
  have hbind : (s.txts cfg).bind txtData = some data := by rw [hstrings, Option.bind_some, hdata]
  exact ⟨data, hbind, by rw [Service.txt, hbind, Option.map_some]⟩

theorem Accepted.ptr_some (hcfg : Accepted cfg) (hs : s.enabled cfg) (ttl : UInt32) :
    ∃ data, wireName ((Owner.inst s).text cfg) = some data ∧
      s.ptr ((Owner.inst s).text cfg) ttl =
        some ⟨s.serviceType, dnsTypePtr, dnsClassIn, ttl, data⟩ := by
  obtain ⟨data, hdata⟩ := Option.isSome_iff_exists.mp (hcfg.text_encodes (o := .inst s) hs)
  exact ⟨data, hdata, by rw [Service.ptr, ptrRecord, hdata, Option.map_some]⟩

theorem Accepted.srv_some (hcfg : Accepted cfg) (hs : s.enabled cfg) (fqdn : Bytes) (ttl : UInt32) :
    ∃ data, srvRdata (Owner.host.text cfg) (s.port cfg) = some data ∧
      s.srv cfg fqdn ttl = some ⟨fqdn, dnsTypeSrv, dnsClassInUnique, ttl, data⟩ := by
  obtain ⟨name, hname⟩ := Option.isSome_iff_exists.mp (hcfg.text_encodes (o := .host) trivial)
  have hdata : srvRdata (Owner.host.text cfg) (s.port cfg) =
      some (be16 0 ++ be16 0 ++ be16 (s.port cfg).toNat ++ name) := by
    rw [srvRdata, hname, Option.map_some]
  refine ⟨_, hdata, ?_⟩
  rw [Service.srv, srvRecord, hcfg.hostFqdn_of_enabled hs, hdata, Option.map_some]

theorem mem_linkAddresses {r : Record} {owner : Bytes} {a aaaa : Bool} {ttl : UInt32}
    (h : r ∈ linkAddresses owner link a aaaa ttl) :
    owner ≠ [] ∧ r.owner = owner ∧ (r.type = dnsTypeA ∨ r.type = dnsTypeAaaa) ∧
      r.rrclass = dnsClassInUnique ∧ r.ttl = ttl ∧ r.rdata.length ≤ 16 := by
  unfold linkAddresses at h
  split at h
  · cases h
  next howner =>
  refine ⟨howner, ?_⟩
  rcases List.mem_append.mp h with h | h
  · split at h
    · obtain ⟨addr, -, rfl⟩ := List.mem_map.mp h
      exact ⟨rfl, Or.inl rfl, rfl, rfl, by simp [aRecord]⟩
    · cases h
  · split at h
    · obtain ⟨addr, -, rfl⟩ := List.mem_map.mp h
      exact ⟨rfl, Or.inr rfl, rfl, rfl, by simp [aaaaRecord]⟩
    · cases h

theorem Accepted.addresses (hcfg : Accepted cfg) {r : Record} {a aaaa : Bool}
    (h : r ∈ linkAddresses cfg.hostFqdn link a aaaa cfg.ttl) : Answer cfg r := by
  obtain ⟨hne, howner, htype, hclass, httl, -⟩ := mem_linkAddresses h
  have hhost : cfg.hostFqdn = Owner.host.text cfg := by
    rcases hcfg.hostFqdn with hhost | ⟨hhost, -⟩
    · exact hhost
    · exact absurd hhost hne
  refine ⟨⟨.host, trivial, howner.trans hhost⟩, httl, ?_⟩
  rw [hclass, if_neg]
  rcases htype with htype | htype <;> rw [htype] <;> decide

theorem Accepted.records (hcfg : Accepted cfg) (hf : FqdnsOf cfg fqdns) {included : Included}
    {x : Option Record} (h : x ∈ s.records cfg (fqdns s) link included) : IsAnswer cfg x := by
  unfold Service.records at h
  split at h
  · next hs =>
    rw [hf s hs] at h
    simp only [List.mem_append] at h
    rcases h with ((h | h) | h) | h
    · split at h
      · obtain ⟨data, -, hptr⟩ := hcfg.ptr_some hs cfg.ttl
        obtain rfl := (List.mem_singleton.mp h).trans hptr
        exact ⟨_, rfl, ⟨.service s, trivial, (Owner.text_service cfg s).symm⟩, rfl, rfl⟩
      · cases h
    · split at h
      · obtain ⟨data, -, hsrv⟩ := hcfg.srv_some hs ((Owner.inst s).text cfg) cfg.ttl
        obtain rfl := (List.mem_singleton.mp h).trans hsrv
        exact ⟨_, rfl, ⟨.inst s, hs, rfl⟩, rfl, rfl⟩
      · cases h
    · split at h
      · obtain ⟨data, -, htxt⟩ := hcfg.txt_some hs ((Owner.inst s).text cfg) cfg.ttl
        obtain rfl := (List.mem_singleton.mp h).trans htxt
        exact ⟨_, rfl, ⟨.inst s, hs, rfl⟩, rfl, rfl⟩
      · cases h
    · obtain ⟨r, hr, rfl⟩ := List.mem_map.mp h
      exact ⟨r, rfl, hcfg.addresses hr⟩
  · cases h

/-- Every record a question asks for can be written. -/
theorem Accepted.questionRecords (hcfg : Accepted cfg) (hf : FqdnsOf cfg fqdns) {qname : Bytes}
    {qtype : UInt16} {x : Option Record} (h : x ∈ questionRecords qname qtype cfg link fqdns) :
    IsAnswer cfg x := by
  unfold Mdns.questionRecords at h
  dsimp only at h
  split at h
  · unfold enumerationRecords at h
    obtain ⟨s, -, rfl⟩ := List.mem_map.mp h
    obtain ⟨data, hdata⟩ := Option.isSome_iff_exists.mp
      (Owner.text_service cfg s ▸ hcfg.text_encodes (o := .service s) trivial)
    refine ⟨_, by rw [ptrRecord, hdata, Option.map_some], ⟨.enumeration, trivial, ?_⟩, rfl, rfl⟩
    exact (Owner.text_enumeration cfg).symm
  revert h
  generalize firstTypes.find? _ = first
  intro h
  cases first with
  | some s => exact hcfg.records hf h
  | none =>
    rcases List.mem_append.mp h with h | h
    · obtain ⟨s, -, h⟩ := List.mem_flatMap.mp h
      exact hcfg.records hf h
    split at h
    · cases h
    unfold nameRecords at h
    revert h
    generalize instanceAsked cfg qname fqdns = asked
    intro h
    cases asked with
    | some s => exact hcfg.records hf h
    | none =>
      rw [Option.elim_none] at h
      split at h
      · obtain ⟨r, hr, rfl⟩ := List.mem_map.mp h
        exact ⟨r, rfl, hcfg.addresses hr⟩
      · cases h

/-- The records asked for, which can all be written. -/
def askedRecords (qname : Bytes) (qtype : UInt16) (cfg : Config) (link : LinkContext)
    (fqdns : Service → Bytes) : List Record :=
  (Mdns.questionRecords qname qtype cfg link fqdns).filterMap id

theorem map_some_filterMap_id {xs : List (Option Record)} (h : ∀ x ∈ xs, x.isSome) :
    (xs.filterMap id).map some = xs := by
  induction xs with
  | nil => rfl
  | cons x xs ih =>
    obtain ⟨hx, hxs⟩ := List.forall_mem_cons.mp h
    obtain ⟨r, rfl⟩ := Option.isSome_iff_exists.mp hx
    show some r :: (xs.filterMap id).map some = some r :: xs
    rw [ih hxs]

theorem IsAnswer.isSome {x : Option Record} (h : IsAnswer cfg x) : x.isSome := by
  obtain ⟨r, rfl, -⟩ := h
  rfl

theorem Accepted.askedRecords_answers (hcfg : Accepted cfg) (hf : FqdnsOf cfg fqdns)
    {qname : Bytes} {qtype : UInt16} {r : Record}
    (h : r ∈ askedRecords qname qtype cfg link fqdns) : Answer cfg r := by
  obtain ⟨x, hx, hr⟩ := List.mem_filterMap.mp h
  obtain ⟨r', rfl, hanswer⟩ := hcfg.questionRecords hf hx
  obtain rfl := Option.some.inj hr
  exact hanswer

/-- Answering a question is planning the records it asks for. -/
theorem Accepted.planQuestionAnswers (hcfg : Accepted cfg) (hf : FqdnsOf cfg fqdns)
    (routes : Routes) (qname : Bytes) (qtype : UInt16) (link : LinkContext) :
    planQuestionAnswers routes qname qtype cfg link fqdns =
      planAsks ((askedRecords qname qtype cfg link fqdns).map (·, routes)) := by
  rw [planQuestionAnswers_eq,
    ← map_some_filterMap_id fun x hx => (hcfg.questionRecords hf hx).isSome]
  unfold planAll planAsks askedRecords
  rw [List.map_map, List.map_map]
  rfl

end Accepted

end TimeCapsule.Mdns
