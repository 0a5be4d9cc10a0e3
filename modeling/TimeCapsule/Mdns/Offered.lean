import TimeCapsule.Mdns.Announced
import TimeCapsule.Mdns.Scope

/-!
# Records that are offered

Every record that is planned for a question or announced is one of an enabled service, or an address of
the host.
-/

namespace TimeCapsule.Mdns

open Lib

/-- The record is owned by the type of the service or by a name right below it, or enumerates the
type. -/
def Record.IsOf (r : Record) (s : Service) : Prop :=
  nameEquals r.owner s.serviceType ∨ nameEquals (parentName r.owner) s.serviceType ∨
    nameEquals r.owner dnsSdServiceEnumerationName ∧ wireName s.serviceType = some r.rdata

/-! ## The records that are offered -/

/-- What owns a record, and the service that it is there for. -/
inductive Offered (cfg : Config) (r : Record) : Prop
  | host (howner : r.owner = Owner.host.text cfg)
  | type {s : Service} (hs : s.enabled cfg) (howner : r.owner = (Owner.service s).text cfg)
  | inst {s : Service} (hs : s.enabled cfg) (howner : r.owner = (Owner.inst s).text cfg)
  | enumeration {s : Service} (hs : s.enabled cfg) (howner : r.owner = Owner.enumeration.text cfg)
      (hrdata : wireName s.serviceType = some r.rdata)

section Offered

variable {cfg : Config} {link : LinkContext} {fqdns : Service → Bytes} {s : Service} {r : Record}
  {set set' : PlannedRrSet}

theorem wireName_serviceType_inj {s s' : Service} (h : wireName s.serviceType = wireName s'.serviceType) :
    s = s' := by
  revert h
  cases s <;> cases s' <;> decide +kernel

theorem parentName_text (o : Owner) : parentName (o.text cfg) = o.rest := parentName_dotted _ _

theorem rest_eq_serviceType {o : Owner} (h : nameEquals o.rest s.serviceType) : o = .inst s := by
  rcases @Owner.kind_of_rest o (.inst s) h with h | ⟨_, _, _, h⟩
  · exact h
  · cases h

/-- A record that is offered is one of enabled services only. -/
theorem Offered.enabled (h : Offered cfg r) (hof : r.IsOf s) : s.enabled cfg := by
  -- the owner that a record of the service has
  have howner : ∀ {o : Owner}, r.owner = o.text cfg → o = .service s ∨ o = .inst s ∨
      o = .enumeration ∧ wireName s.serviceType = some r.rdata := by
    intro o ho
    rw [Record.IsOf, ho, parentName_text, ← Owner.text_service cfg s, ← Owner.text_enumeration cfg] at hof
    rcases hof with h | h | ⟨h, hrdata⟩
    · exact .inl (Owner.text_inj cfg h)
    · rw [Owner.text_service] at h
      exact .inr (.inl (rest_eq_serviceType h))
    · rw [Owner.text_service] at hrdata
      exact .inr (.inr ⟨Owner.text_inj cfg h, hrdata⟩)
  cases h with
  | host ho => rcases howner ho with h | h | ⟨h, _⟩ <;> cases h
  | type hs ho =>
    rcases howner ho with h | h | ⟨h, _⟩ <;> cases h
    exact hs
  | inst hs ho =>
    rcases howner ho with h | h | ⟨h, _⟩ <;> cases h
    exact hs
  | enumeration hs ho hrdata =>
    rcases howner ho with h | h | ⟨_, hrdata'⟩
    · cases h
    · cases h
    · rwa [wireName_serviceType_inj (hrdata'.trans hrdata.symm)]

theorem Accepted.offered_address (hcfg : Accepted cfg) {a aaaa : Bool} {ttl : UInt32}
    (h : r ∈ linkAddresses cfg.hostFqdn link a aaaa ttl) : Offered cfg r := by
  obtain ⟨hne, howner, _⟩ := mem_linkAddresses h
  rcases hcfg.hostFqdn with hhost | ⟨hhost, _⟩
  · exact .host (howner.trans hhost)
  · exact absurd hhost hne

theorem Accepted.offered_records (hcfg : Accepted cfg) (hf : FqdnsOf cfg fqdns) {included : Included}
    (h : some r ∈ s.records cfg (fqdns s) link included) : Offered cfg r := by
  unfold Service.records at h
  split at h
  · next hs =>
    rw [hf s hs] at h
    simp only [List.mem_append] at h
    rcases h with ((h | h) | h) | h
    · split at h
      · obtain ⟨data, _, hptr⟩ := hcfg.ptr_some hs cfg.ttl
        cases (List.mem_singleton.mp h).trans hptr
        exact .type hs (Owner.text_service cfg s).symm
      · cases h
    · split at h
      · obtain ⟨data, _, hsrv⟩ := hcfg.srv_some hs ((Owner.inst s).text cfg) cfg.ttl
        cases (List.mem_singleton.mp h).trans hsrv
        exact .inst hs rfl
      · cases h
    · split at h
      · obtain ⟨data, _, htxt⟩ := hcfg.txt_some hs ((Owner.inst s).text cfg) cfg.ttl
        cases (List.mem_singleton.mp h).trans htxt
        exact .inst hs rfl
      · cases h
    · obtain ⟨r', hr', heq⟩ := List.mem_map.mp h
      cases heq
      exact hcfg.offered_address hr'
  · cases h

/-- A question asks for records of enabled services and addresses. -/
theorem Accepted.offered_asked (hcfg : Accepted cfg) (hf : FqdnsOf cfg fqdns) {qname : Bytes}
    {qtype : UInt16} (h : r ∈ askedRecords qname qtype cfg link fqdns) : Offered cfg r := by
  obtain ⟨x, h, rfl⟩ := List.mem_filterMap.mp h
  unfold Mdns.questionRecords at h
  dsimp only [id] at h
  split at h
  · obtain ⟨s, hs, heq⟩ := List.mem_map.mp h
    obtain ⟨data, hdata, heq⟩ := Option.map_eq_some_iff.mp heq
    have henabled := (List.mem_filter.mp hs).2
    cases heq
    exact .enumeration henabled (Owner.text_enumeration cfg).symm hdata
  revert h
  generalize firstTypes.find? _ = first
  intro h
  cases first with
  | some s => exact hcfg.offered_records hf h
  | none =>
    rcases List.mem_append.mp h with h | h
    · obtain ⟨s, _, h⟩ := List.mem_flatMap.mp h
      exact hcfg.offered_records hf h
    split at h
    · cases h
    unfold nameRecords at h
    revert h
    generalize instanceAsked cfg qname fqdns = asked
    intro h
    cases asked with
    | some s => exact hcfg.offered_records hf h
    | none =>
      rw [Option.elim_none] at h
      split at h
      · obtain ⟨r', hr', heq⟩ := List.mem_map.mp h
        cases heq
        exact hcfg.offered_address hr'
      · cases h

theorem Accepted.offered_announced (hcfg : Accepted cfg) {ttl : UInt32} {group : List Record}
    (hgroup : group ∈ announcedGroups cfg link ttl) (hr : r ∈ group) : Offered cfg r := by
  have hservice : ∀ s : Service, r ∈ s.announced cfg ttl → Offered cfg r := by
    intro s h
    have henabled : s.enabled cfg := by
      unfold Service.announced at h
      split at h
      · next hs => exact hs
      · cases h
    rcases hcfg.owner_announced h with howner | howner
    · exact .type henabled howner
    · exact .inst henabled howner
  simp only [announcedGroups, flushedServices, List.map_cons, List.map_nil, List.cons_append,
    List.nil_append, List.mem_cons, List.not_mem_nil, or_false] at hgroup
  rcases hgroup with rfl | rfl | rfl | rfl | rfl | rfl | rfl | rfl
  case inr.inr.inl => exact hcfg.offered_address hr
  all_goals exact hservice _ hr

end Offered

end TimeCapsule.Mdns
