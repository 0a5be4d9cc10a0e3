import TimeCapsule.Lib.Except
import TimeCapsule.Mdns.Active

/-!
# Offered and bound links

The responder decides which links are for the LAN from its active links, the service helper from all
links that were found.  They agree unless the fallback to unnamed links, or the helper's refusal of a
cut list, comes in between.
-/

namespace TimeCapsule.Mdns

open Lib

/-! ## Kept links -/

theorem insertLinkContext_perm (sorted : LinkContextSet) (link : LinkContext) :
    (insertLinkContext sorted link).Perm (link :: sorted) := by
  unfold insertLinkContext
  dsimp only
  generalize hbehind : sorted.reverse.takeWhile (linkContextBefore link) = behind
  generalize hfront : sorted.reverse.dropWhile (linkContextBefore link) = front
  have hsorted : sorted = front.reverse ++ behind.reverse := by
    rw [← List.reverse_append, ← hbehind, ← hfront, List.takeWhile_append_dropWhile,
      List.reverse_reverse]
  have htake : sorted.take (sorted.length - behind.length) = front.reverse := by
    rw [hsorted, List.length_append, List.length_reverse, List.length_reverse,
      Nat.add_sub_cancel, ← List.length_reverse, List.take_left]
  rw [htake]
  exact List.perm_middle.trans (List.Perm.of_eq (congrArg (link :: ·) hsorted.symm))

theorem sortLinkContexts_perm (set : LinkContextSet) : (sortLinkContexts set).Perm set := by
  have hfold : ∀ (rest done : LinkContextSet), (rest.foldl insertLinkContext done).Perm (done ++ rest) := by
    intro rest
    induction rest with
    | nil =>
      intro done
      rw [List.append_nil]
      exact List.Perm.refl done
    | cons link rest ih =>
      intro done
      have hstep := (ih (insertLinkContext done link)).trans
        ((insertLinkContext_perm done link).append_right rest)
      exact hstep.trans List.perm_middle.symm
  exact hfold set []

variable {keep : LinkContext → Bool} {links : LinkContextSet} {link : LinkContext}

theorem keepLinkContexts_subset (h : link ∈ (keepLinkContexts keep links).links) :
    link ∈ links ∧ keep link := by
  have hmem := List.mem_of_mem_take ((sortLinkContexts_perm _).mem_iff.mp h)
  exact List.mem_filter.mp hmem

theorem mem_keepLinkContexts (hlen : links.length ≤ maxIfaceContexts) :
    link ∈ (keepLinkContexts keep links).links ↔ link ∈ links ∧ keep link := by
  have hfit : (links.filter keep).length ≤ maxIfaceContexts :=
    (List.length_filter_le keep links).trans hlen
  unfold keepLinkContexts
  dsimp only
  rw [(sortLinkContexts_perm _).mem_iff, List.take_of_length_le hfit, List.mem_filter]

theorem keepLinkContexts_length_le :
    (keepLinkContexts keep links).links.length ≤ maxIfaceContexts := by
  unfold keepLinkContexts
  dsimp only
  rw [(sortLinkContexts_perm _).length_eq, List.length_take]
  exact Nat.min_le_left _ _

theorem keepLinkContexts_not_truncated (hlen : links.length ≤ maxIfaceContexts) :
    (keepLinkContexts keep links).truncated = false := by
  have hfit : (links.filter keep).length ≤ maxIfaceContexts :=
    (List.length_filter_le keep links).trans hlen
  unfold keepLinkContexts
  dsimp only
  rw [decide_eq_false_iff_not, not_lt]
  exact hfit

/-! ## Links for the LAN -/

/-- A link with a LAN name, no WAN role and an address for Samba. -/
def LanNamed (link : LinkContext) : Prop :=
  link.isWan = false ∧ ifaceNameIsStrongLan link.name ∧ link.hasSambaAddress

/-- A link without a reported name, no WAN role and a private address for Samba. -/
def LanUnnamed (link : LinkContext) : Prop :=
  link.isWan = false ∧ link.isUnnamedPrivateLanFallback

theorem hasSambaAddress_of_private (h : link.hasPrivateLanSambaAddress) : link.hasSambaAddress := by
  unfold LinkContext.hasPrivateLanSambaAddress at h
  unfold LinkContext.hasSambaAddress
  rw [Bool.or_eq_true, List.any_eq_true, List.any_eq_true] at h ⊢
  apply Or.imp _ _ h
  · rintro ⟨a, ha, hbind⟩
    rw [Bool.and_eq_true] at hbind
    exact ⟨a, ha, hbind.1⟩
  · rintro ⟨a, ha, hbind⟩
    rw [Bool.and_eq_true] at hbind
    exact ⟨a, ha, hbind.1⟩

theorem LanUnnamed.hasSambaAddress (h : LanUnnamed link) : link.hasSambaAddress := by
  have hfallback := h.2
  unfold LinkContext.isUnnamedPrivateLanFallback at hfallback
  rw [Bool.and_eq_true] at hfallback
  exact hasSambaAddress_of_private hfallback.2

theorem mem_lanNamed (hlen : links.length ≤ maxIfaceContexts) :
    link ∈ (filterSmbBindLinkContexts links true false).links ↔ link ∈ links ∧ LanNamed link := by
  unfold filterSmbBindLinkContexts LanNamed
  rw [mem_keepLinkContexts hlen]
  simp [and_assoc]

theorem mem_lanUnnamed (hlen : links.length ≤ maxIfaceContexts) :
    link ∈ (filterSmbBindLinkContexts links true true).links ↔ link ∈ links ∧ LanUnnamed link := by
  unfold filterSmbBindLinkContexts LanUnnamed
  rw [mem_keepLinkContexts hlen]
  constructor
  · rintro ⟨hmem, hkeep⟩
    simp at hkeep
    exact ⟨hmem, hkeep.1⟩
  · rintro ⟨hmem, hlan⟩
    have hsamba := LanUnnamed.hasSambaAddress hlan
    simp [hmem, hlan.1, hlan.2, hsamba]

/-- The selection: the named links or, without any, the unnamed ones. -/
theorem mem_smbBindLinkContexts (hlen : links.length ≤ maxIfaceContexts) :
    link ∈ (smbBindLinkContexts links true).links ↔
      link ∈ links ∧ (LanNamed link ∨ LanUnnamed link ∧ ∀ l ∈ links, ¬ LanNamed l) := by
  unfold smbBindLinkContexts
  dsimp only
  by_cases hnamed : ∀ l ∈ links, ¬ LanNamed l
  · have hempty : (filterSmbBindLinkContexts links true false).links = [] := by
      apply List.eq_nil_iff_forall_not_mem.mpr
      intro l hl
      obtain ⟨hmem, hlan⟩ := (mem_lanNamed hlen).mp hl
      exact hnamed l hmem hlan
    rw [hempty, List.isEmpty_nil, Bool.and_self, if_pos rfl, mem_lanUnnamed hlen]
    constructor
    · rintro ⟨hmem, hlan⟩
      exact ⟨hmem, Or.inr ⟨hlan, hnamed⟩⟩
    · rintro ⟨hmem, hlan | hlan⟩
      · exact absurd hlan (hnamed link hmem)
      · exact ⟨hmem, hlan.1⟩
  · have hsome : ∃ l ∈ links, LanNamed l := by
      by_contra hno
      apply hnamed
      intro l hl hlan
      exact hno ⟨l, hl, hlan⟩
    obtain ⟨l, hl, hlan⟩ := hsome
    have hne : (filterSmbBindLinkContexts links true false).links.isEmpty = false := by
      have hmem := (mem_lanNamed hlen).mpr ⟨hl, hlan⟩
      rw [List.isEmpty_eq_false_iff]
      exact List.ne_nil_of_mem hmem
    rw [hne, Bool.and_false, if_neg (by decide), mem_lanNamed hlen]
    constructor
    · rintro ⟨hmem, hlan'⟩
      exact ⟨hmem, Or.inl hlan'⟩
    · rintro ⟨hmem, hlan' | hlan'⟩
      · exact ⟨hmem, hlan'⟩
      · exact absurd hlan (hlan'.2 l hl)

theorem smbBindLinkContexts_not_truncated (hlen : links.length ≤ maxIfaceContexts) :
    (smbBindLinkContexts links true).truncated = false := by
  unfold smbBindLinkContexts
  dsimp only
  split
  · exact keepLinkContexts_not_truncated hlen
  · exact keepLinkContexts_not_truncated hlen

/-! ### Only the topology matters -/

theorem LanNamed.congr {a b : LinkContext} (h : a.withoutTransports = b.withoutTransports)
    (ha : LanNamed a) : LanNamed b := by
  have hcongr : LanNamed a.withoutTransports ↔ LanNamed b.withoutTransports := by rw [h]
  exact hcongr.mp ha

theorem LanUnnamed.congr {a b : LinkContext} (h : a.withoutTransports = b.withoutTransports)
    (ha : LanUnnamed a) : LanUnnamed b := by
  have hcongr : LanUnnamed a.withoutTransports ↔ LanUnnamed b.withoutTransports := by rw [h]
  exact hcongr.mp ha

theorem containsTopology_iff :
    LinkContextSet.containsTopology links link ↔
      ∃ l ∈ links, l.withoutTransports = link.withoutTransports := by
  unfold LinkContextSet.containsTopology
  rw [List.any_eq_true]
  exact exists_congr fun l => and_congr_right fun _ => topologyEqual_iff

theorem mdnsServiceScopeForLink_eq_lan (hlen : links.length ≤ maxIfaceContexts) :
    mdnsServiceScopeForLink links link = .lan ↔
      ∃ l ∈ links, l.withoutTransports = link.withoutTransports ∧
        (LanNamed link ∨ LanUnnamed link ∧ ∀ l ∈ links, ¬ LanNamed l) := by
  unfold mdnsServiceScopeForLink
  have hscope : (if LinkContextSet.containsTopology (smbBindLinkContexts links true).links link
      then MdnsServiceScope.lan else MdnsServiceScope.wan) = .lan ↔
      LinkContextSet.containsTopology (smbBindLinkContexts links true).links link := by
    split <;> simp [*]
  rw [hscope, containsTopology_iff]
  constructor
  · rintro ⟨l, hl, heq⟩
    obtain ⟨hmem, hlan⟩ := (mem_smbBindLinkContexts hlen).mp hl
    refine ⟨l, hmem, heq, ?_⟩
    exact hlan.imp (LanNamed.congr heq) fun h => ⟨LanUnnamed.congr heq h.1, h.2⟩
  · rintro ⟨l, hmem, heq, hlan⟩
    refine ⟨l, (mem_smbBindLinkContexts hlen).mpr ⟨hmem, ?_⟩, heq⟩
    exact hlan.imp (LanNamed.congr heq.symm) fun h => ⟨LanUnnamed.congr heq.symm h.1, h.2⟩

/-! ## What Samba is bound to -/

/-- The helper succeeds, and the link is one of those whose addresses it prints. -/
def BindsSmbd (found : LinkDiscovery) (link : LinkContext) : Prop :=
  ∃ bound tokens own, selectSmbBindLinks (some found) true = .ok bound ∧
    printSmbBindInterfacesWithPolicy (some found) true = .ok tokens ∧
    LinkContextSet.containsTopology bound link ∧
    linkBindTokens link = some own ∧ own ≠ [] ∧ ∀ token ∈ own, token ∈ tokens

theorem linkBindTokens_congr {a b : LinkContext} (h : a.withoutTransports = b.withoutTransports) :
    linkBindTokens a = linkBindTokens b := by
  have hcongr : linkBindTokens a.withoutTransports = linkBindTokens b.withoutTransports := by rw [h]
  exact hcongr

theorem linkBindTokens_ok (hle : ∀ a ∈ link.ipv6, a.prefixLen ≤ 128) :
    (linkBindTokens link).isSome := by
  have hcidrs : ((link.ipv6.filter linkIpv6AddrIsSambaBindable).mapM linkContextIpv6Cidr).isSome := by
    apply mapM_isSome
    intro a ha
    obtain ⟨hmem, hbind⟩ := List.mem_filter.mp ha
    have hnonneg : 0 ≤ a.prefixLen := by
      unfold linkIpv6AddrIsSambaBindable at hbind
      rw [Bool.and_eq_true, decide_eq_true_eq] at hbind
      exact hbind.1
    have hsmall := hle a hmem
    unfold linkContextIpv6Cidr
    rw [if_neg (by simp; omega)]
    rfl
  obtain ⟨cidrs, hcidrs⟩ := Option.isSome_iff_exists.mp hcidrs
  unfold linkBindTokens
  rw [hcidrs]
  rfl

theorem linkBindTokens_ne_nil (hsamba : link.hasSambaAddress) {tokens : List Cidr}
    (h : linkBindTokens link = some tokens) : tokens ≠ [] := by
  unfold linkBindTokens at h
  obtain ⟨cidrs, hcidrs, h⟩ := Option.bind_eq_some_iff.mp h
  obtain rfl := Option.some.inj h
  unfold LinkContext.hasSambaAddress at hsamba
  rw [Bool.or_eq_true, List.any_eq_true, List.any_eq_true] at hsamba
  rw [← List.length_pos_iff, List.length_append, List.length_map, length_mapM hcidrs]
  rcases hsamba with ⟨a, ha, hbind⟩ | ⟨a, ha, hbind⟩
  · have hpos := List.length_pos_of_mem (List.mem_filter.mpr ⟨ha, hbind⟩)
    omega
  · have hpos := List.length_pos_of_mem (List.mem_filter.mpr ⟨ha, hbind⟩)
    omega

/-- Selected links with admitted prefix lengths are all printed. -/
theorem printSmbLinkBindTokens_ok (hne : links ≠ []) (hsamba : ∀ l ∈ links, l.hasSambaAddress)
    (hle : ∀ l ∈ links, ∀ a ∈ l.ipv6, a.prefixLen ≤ 128) :
    ∃ tokens, printSmbLinkBindTokens links = some tokens ∧
      ∀ l ∈ links, ∃ own, linkBindTokens l = some own ∧ own ≠ [] ∧ ∀ token ∈ own, token ∈ tokens := by
  have hall : ∀ l ∈ links, ∃ own, linkBindTokens l = some own ∧ own ≠ [] := by
    intro l hl
    obtain ⟨own, hown⟩ := Option.isSome_iff_exists.mp (linkBindTokens_ok (hle l hl))
    exact ⟨own, hown, linkBindTokens_ne_nil (hsamba l hl) hown⟩
  have hsome : (links.mapM linkBindTokens).isSome :=
    mapM_isSome fun l hl => linkBindTokens_ok (hle l hl)
  obtain ⟨lists, hlists⟩ := Option.isSome_iff_exists.mp hsome
  have hprinted : lists.flatten ≠ [] := by
    obtain ⟨l, hl⟩ := List.exists_mem_of_ne_nil links hne
    obtain ⟨own, hown, hne'⟩ := hall l hl
    obtain ⟨token, htoken⟩ := List.exists_mem_of_ne_nil own hne'
    exact List.ne_nil_of_mem (List.mem_flatten.mpr ⟨own, mem_of_mapM hlists hl hown, htoken⟩)
  refine ⟨lists.flatten, ?_, ?_⟩
  · unfold printSmbLinkBindTokens
    rw [hlists]
    show (if lists.flatten.isEmpty then none else some lists.flatten) = _
    rw [if_neg (by simpa using hprinted)]
  · intro l hl
    obtain ⟨own, hown, hne'⟩ := hall l hl
    refine ⟨own, hown, hne', ?_⟩
    intro token htoken
    exact List.mem_flatten.mpr ⟨own, mem_of_mapM hlists hl hown, htoken⟩

variable {found : LinkDiscovery}

theorem selectSmbBindLinks_eq_ok {bound : LinkContextSet}
    (h : selectSmbBindLinks (some found) true = .ok bound) :
    found.truncated = false ∧ bound = (smbBindLinkContexts found.links true).links := by
  unfold selectSmbBindLinks at h
  dsimp only at h
  obtain ⟨_, h⟩ := ite_error_eq_ok.mp h
  obtain ⟨htruncated, h⟩ := ite_error_eq_ok.mp h
  obtain ⟨_, h⟩ := ite_error_eq_ok.mp h
  obtain ⟨_, h⟩ := ite_error_eq_ok.mp h
  rw [Bool.not_eq_true] at htruncated
  exact ⟨htruncated, (Except.ok.inj h).symm⟩

/-- A link is bound when it has the topology of a selected one and the list was not cut. -/
theorem bindsSmbd_iff :
    BindsSmbd found link ↔ found.truncated = false ∧
      ∃ l ∈ found.links, l.withoutTransports = link.withoutTransports ∧
        (LanNamed l ∨ LanUnnamed l ∧ ∀ l ∈ found.links, ¬ LanNamed l) := by
  have hselected : ∀ l : LinkContext, l ∈ (smbBindLinkContexts found.links true).links ↔
      l ∈ found.links ∧ (LanNamed l ∨ LanUnnamed l ∧ ∀ l ∈ found.links, ¬ LanNamed l) :=
    fun _ => mem_smbBindLinkContexts found.length_le
  constructor
  · rintro ⟨bound, tokens, own, hselect, _, hcontains, _⟩
    obtain ⟨htruncated, rfl⟩ := selectSmbBindLinks_eq_ok hselect
    obtain ⟨l, hl, heq⟩ := containsTopology_iff.mp hcontains
    obtain ⟨hmem, hlan⟩ := (hselected l).mp hl
    exact ⟨htruncated, l, hmem, heq, hlan⟩
  · rintro ⟨htruncated, l, hmem, heq, hlan⟩
    have hl := (hselected l).mpr ⟨hmem, hlan⟩
    have hne := List.ne_nil_of_mem hl
    have hfound := List.ne_nil_of_mem hmem
    have hselect : selectSmbBindLinks (some found) true =
        .ok (smbBindLinkContexts found.links true).links := by
      unfold selectSmbBindLinks
      dsimp only
      rw [if_neg (by simpa using hfound), if_neg (by simp [htruncated]), if_neg (by simpa using hne),
        smbBindLinkContexts_not_truncated found.length_le, if_neg (by decide)]
    obtain ⟨tokens, hprint, hown⟩ := printSmbLinkBindTokens_ok hne
      (fun l hl => ((hselected l).mp hl).2.elim (fun h => h.2.2) fun h => h.1.hasSambaAddress)
      (fun l hl => found.prefixLen_le l ((hselected l).mp hl).1)
    obtain ⟨own, hlown, hne', hsub⟩ := hown l hl
    refine ⟨_, tokens, own, hselect, ?_, containsTopology_iff.mpr ⟨l, hl, heq⟩,
      linkBindTokens_congr heq ▸ hlown, hne', hsub⟩
    unfold printSmbBindInterfacesWithPolicy
    rw [hselect]
    show (printSmbLinkBindTokens _).elim (Except.error ServiceExit.autoIpProbeFailed) Except.ok =
      Except.ok tokens
    rw [hprint]
    rfl

/-! ## Agreement -/

/-- The active links that the responder can have of the links it found: from acquiring its sockets or
from a successful change of its links. -/
inductive ActiveOf (found : LinkDiscovery) : LinkContextSet → Prop where
  | acquired {sharedBind : Bool} {w w' : NetWorld} {status : Int} {sockets : MdnsSocketPair}
      {active : LinkContextSet}
      (h : EndsIn (acquireDualstackMdnsSockets sharedBind
        (filterAdvertiseLinkContexts found.links).links) w (status, sockets, active) w') :
      ActiveOf found active
  | changed {sharedBind : Bool} {w w' : NetWorld} {sockets sockets' : MdnsSocketPair}
      {oldActive active : LinkContextSet}
      (h : EndsIn (applyRuntimeLinkChange sharedBind sockets oldActive
        (filterAdvertiseLinkContexts found.links).links) w (true, sockets', active) w') :
      ActiveOf found active

theorem ActiveOf.narrowed {active : LinkContextSet} (h : ActiveOf found active) :
    NarrowedFrom (filterAdvertiseLinkContexts found.links).links active := by
  cases h with
  | @acquired sharedBind w w' status sockets active h =>
    have hnarrowed := Prog.wp_returns (acquireDualstackMdnsSockets_yields sharedBind _ w) h
    exact hnarrowed
  | @changed sharedBind w w' sockets sockets' oldActive active h =>
    have hnarrowed := Prog.wp_returns (applyRuntimeLinkChange_yields sharedBind sockets oldActive _ w) h
    exact hnarrowed

theorem ActiveOf.length_le {active : LinkContextSet} (h : ActiveOf found active) :
    active.length ≤ maxIfaceContexts :=
  h.narrowed.length_le.trans keepLinkContexts_length_le

theorem ActiveOf.exists_found {active : LinkContextSet} (h : ActiveOf found active)
    (hlink : link ∈ active) :
    ∃ l ∈ found.links, l.withoutTransports = link.withoutTransports := by
  obtain ⟨l, hl, heq⟩ := h.narrowed.exists_old hlink
  exact ⟨l, (keepLinkContexts_subset hl).1, heq⟩

/-- The links that are offered as LAN links are bound exactly when there are none, or the list of
found links was not cut and a link with a LAN name is active, unless none was found. -/
theorem lan_links_bound_iff {active : LinkContextSet} (h : ActiveOf found active) :
    (∀ link ∈ active, mdnsServiceScopeForLink active link = .lan → BindsSmbd found link) ↔
      (∀ link ∈ active, ¬ LanNamed link ∧ ¬ LanUnnamed link) ∨
      (found.truncated = false ∧
        ((∃ link ∈ active, LanNamed link) ∨ ∀ link ∈ found.links, ¬ LanNamed link)) := by
  have hscope : ∀ link : LinkContext, mdnsServiceScopeForLink active link = .lan ↔
      ∃ l ∈ active, l.withoutTransports = link.withoutTransports ∧
        (LanNamed link ∨ LanUnnamed link ∧ ∀ l ∈ active, ¬ LanNamed l) :=
    fun _ => mdnsServiceScopeForLink_eq_lan h.length_le
  constructor
  · intro hbound
    by_cases hnone : ∀ link ∈ active, ¬ LanNamed link ∧ ¬ LanUnnamed link
    · exact Or.inl hnone
    apply Or.inr
    by_cases hnamed : ∃ link ∈ active, LanNamed link
    · obtain ⟨link, hlink, hlan⟩ := hnamed
      have hoffered := (hscope link).mpr ⟨link, hlink, rfl, Or.inl hlan⟩
      have hbind := bindsSmbd_iff.mp (hbound link hlink hoffered)
      exact ⟨hbind.1, Or.inl ⟨link, hlink, hlan⟩⟩
    · -- no active link is named, so an unnamed one is offered
      have hunnamed : ∃ link ∈ active, LanUnnamed link := by
        by_contra hno
        apply hnone
        intro link hlink
        exact ⟨fun hlan => hnamed ⟨link, hlink, hlan⟩, fun hlan => hno ⟨link, hlink, hlan⟩⟩
      obtain ⟨link, hlink, hlan⟩ := hunnamed
      have hno : ∀ l ∈ active, ¬ LanNamed l := fun l hl hl' => hnamed ⟨l, hl, hl'⟩
      have hoffered := (hscope link).mpr ⟨link, hlink, rfl, Or.inr ⟨hlan, hno⟩⟩
      obtain ⟨htruncated, l, hl, heq, hbind⟩ := bindsSmbd_iff.mp (hbound link hlink hoffered)
      refine ⟨htruncated, Or.inr ?_⟩
      rcases hbind with hbind | hbind
      · exact absurd (hbind.congr heq) (hno link hlink)
      · exact hbind.2
  · intro hcond link hlink hoffered
    obtain ⟨_, _, _, hlan⟩ := (hscope link).mp hoffered
    rcases hcond with hnone | ⟨htruncated, hcond⟩
    · rcases hlan with hlan | hlan
      · exact absurd hlan (hnone link hlink).1
      · exact absurd hlan.1 (hnone link hlink).2
    obtain ⟨l, hl, heq⟩ := h.exists_found hlink
    apply bindsSmbd_iff.mpr
    refine ⟨htruncated, l, hl, heq, ?_⟩
    rcases hlan with hlan | ⟨hlan, hno⟩
    · exact Or.inl (hlan.congr heq.symm)
    · apply Or.inr
      refine ⟨hlan.congr heq.symm, ?_⟩
      rcases hcond with ⟨named, hnamed, hnamed'⟩ | hcond
      · exact absurd hnamed' (hno named hnamed)
      · exact hcond

/-- A bridge with an IPv6 address only, and a private IPv4 address without a reported name. -/
def bridgeIpv6Link : LinkContext where
  name := "bridge0"
  flags := 0x43
  ifindex := 2
  isWan := false
  mdnsIpv4Transport := false
  mdnsIpv4TransportAddr := 0
  mdnsIpv6Transport := true
  ipv4 := []
  ipv6 := [⟨#v[0xfd, 0, 0, 0, 0, 0, 0, 0, 0, 0, 0, 0, 0, 0, 0, 1], 0, 64, false⟩]

def unnamedIpv4Link : LinkContext := { lanLink 0x0a000101 with name := "ip4-10.0.1.1", flags := 0x43 }

def bridgeDiscovery : LinkDiscovery where
  links := [unnamedIpv4Link, bridgeIpv6Link]
  truncated := false
  length_le := by decide
  prefixLen_le := by decide

/-- The system refuses the IPv6 socket: the bridge is not active, the unnamed link is offered as the
LAN link, and Samba is bound to the bridge only. -/
theorem unnamed_link_offered_not_bound :
    ∃ active link, ActiveOf bridgeDiscovery active ∧ link ∈ active ∧
      mdnsServiceScopeForLink active link = .lan ∧ ¬ BindsSmbd bridgeDiscovery link := by
  refine ⟨[{ unnamedIpv4Link with mdnsIpv4TransportAddr := 0x0a000101 }],
    { unnamedIpv4Link with mdnsIpv4TransportAddr := 0x0a000101 }, ?_, List.mem_singleton.mpr rfl,
    by decide +kernel, ?_⟩
  · have hlinks : (filterAdvertiseLinkContexts bridgeDiscovery.links).links =
        [unnamedIpv4Link, bridgeIpv6Link] := by decide +kernel
    have hend : ∃ w', EndsIn (applyRuntimeLinkChange false ⟨false, false⟩ []
        [unnamedIpv4Link, bridgeIpv6Link]) ⟨none, none⟩ (true, ⟨true, false⟩,
          [{ unnamedIpv4Link with mdnsIpv4TransportAddr := 0x0a000101 }]) w' :=
      ⟨_, Prog.run_returns none [none, some (Errno.other 48)]⟩
    obtain ⟨w', hend⟩ := hend
    rw [← hlinks] at hend
    exact ActiveOf.changed hend
  · rintro ⟨bound, tokens, own, hselect, _, hcontains, _⟩
    have hbound := (selectSmbBindLinks_eq_ok hselect).2
    have hbridge : (smbBindLinkContexts bridgeDiscovery.links true).links = [bridgeIpv6Link] := by
      decide +kernel
    rw [hbound, hbridge] at hcontains
    revert hcontains
    decide +kernel

def lanDiscovery : LinkDiscovery where
  links := [lanLink 0x0a000101]
  truncated := false
  length_le := by decide
  prefixLen_le := by decide

/-- An active bridge is offered and bound. -/
theorem lanDiscovery_bound :
    ∃ active, ActiveOf lanDiscovery active ∧ active ≠ [] ∧
      ∀ link ∈ active, mdnsServiceScopeForLink active link = .lan → BindsSmbd lanDiscovery link := by
  have hlinks : (filterAdvertiseLinkContexts lanDiscovery.links).links = [lanLink 0x0a000101] := by
    decide +kernel
  have hend : ∃ w', EndsIn (applyRuntimeLinkChange false ⟨false, false⟩ [] [lanLink 0x0a000101])
      ⟨none, none⟩ (true, ⟨true, false⟩,
        [{ lanLink 0x0a000101 with mdnsIpv4TransportAddr := 0x0a000101 }]) w' :=
    ⟨_, Prog.run_returns none []⟩
  obtain ⟨w', hend⟩ := hend
  rw [← hlinks] at hend
  have hactive := ActiveOf.changed hend
  refine ⟨_, hactive, List.cons_ne_nil _ _, (lan_links_bound_iff hactive).mpr (Or.inr ⟨rfl, Or.inl ?_⟩)⟩
  refine ⟨_, List.mem_singleton.mpr rfl, rfl, ?_, ?_⟩
  · decide +kernel
  · decide +kernel

end TimeCapsule.Mdns
