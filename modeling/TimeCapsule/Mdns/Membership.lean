import TimeCapsule.Mdns.Transport

/-!
# What joining and dropping do

One specification for each function on a socket.  Joining only adds memberships: those it records
and the kernel-selected one.  Dropping only removes the listed ones, except where the kernel
refuses.
-/

namespace TimeCapsule.Mdns

open Lib

/-- All ends of the program, whatever the kernel answers, satisfy `Q`. -/
abbrev Ensures {α : Type} (p : NetM α) (w : NetWorld) (Q : α → NetWorld → Prop) : Prop :=
  p.wp netKernel (fun _ _ _ => True) (fun _ _ => True) Q w

section Rules

variable {α β : Type} {p : NetM α} {f : α → NetM β} {w : NetWorld} {Q : α → NetWorld → Prop}

theorem ensures_ret {a : α} (h : Q a w) : Ensures (.ret a) w Q := h

theorem ensures_bind {R : β → NetWorld → Prop} (h : Ensures p w Q)
    (hf : ∀ a w', Q a w' → Ensures (f a) w' R) : Ensures (p.bind f) w R :=
  Prog.wp_bind.mpr (Prog.wp_mono h hf)

theorem ensures_call {op : NetOp} {k : Option Errno → NetM α}
    (h : ∀ f, Ensures (k (netKernel.step op f w).1) (netKernel.step op f w).2 Q) :
    Ensures (.call op k) w Q :=
  fun f _ => ⟨trivial, h f⟩

end Rules

/-! ## Keys -/

/-- The key of the membership a link needs in a family. -/
def LinkContext.transportKey (link : LinkContext) : Family → Option MembershipKey
  | .ipv4 => if link.hasMdnsIpv4Transport then some (linkPreferredIpv4Source link) else none
  | .ipv6 => if link.hasMdnsIpv6Transport then some link.ifindex else none

def LinkContextSet.transportKeys (set : LinkContextSet) (family : Family) : List MembershipKey :=
  set.filterMap (·.transportKey family)

/-- The membership on an interface of the kernel's choice. -/
def IsKernelSelected : Family → MembershipKey → Prop
  | .ipv4, key => key = 0
  | .ipv6, _ => False

theorem linkSetHasIpv4Membership_iff {set : Option LinkContextSet} {addr : Ipv4} :
    linkSetHasIpv4Membership set addr = true ↔
      addr ∈ LinkContextSet.transportKeys (set.getD []) .ipv4 := by
  simp only [linkSetHasIpv4Membership, LinkContextSet.transportKeys, LinkContext.transportKey,
    List.any_eq_true, Bool.and_eq_true, beq_iff_eq, List.mem_filterMap,
    Option.ite_none_right_eq_some, Option.some.injEq]

theorem ifindex_ne_zero {link : LinkContext} (h : link.hasMdnsIpv6Transport = true) :
    link.ifindex ≠ 0 := by
  simp only [LinkContext.hasMdnsIpv6Transport, Bool.and_eq_true, bne_iff_ne] at h
  exact h.1.2

theorem linkSetHasIpv6Membership_iff {set : Option LinkContextSet} {ifindex : UInt32} :
    linkSetHasIpv6Membership set ifindex = true ↔
      ifindex ∈ LinkContextSet.transportKeys (set.getD []) .ipv6 := by
  simp only [linkSetHasIpv6Membership, LinkContextSet.transportKeys, LinkContext.transportKey,
    List.any_eq_true, Bool.and_eq_true, beq_iff_eq, bne_iff_ne, List.mem_filterMap,
    Option.ite_none_right_eq_some, Option.some.injEq]
  constructor
  · exact fun h => h.2
  · rintro ⟨link, hl, htransport, rfl⟩
    exact ⟨ifindex_ne_zero htransport, link, hl, htransport, rfl⟩

theorem needIpv4Socket_iff {set : LinkContextSet} :
    set.needIpv4Socket = true ↔ set.transportKeys .ipv4 ≠ [] := by
  simp only [LinkContextSet.needIpv4Socket, LinkContextSet.transportKeys, List.any_eq_true, ne_eq,
    List.filterMap_eq_nil_iff, not_forall, LinkContext.transportKey, ite_eq_right_iff,
    reduceCtorEq, imp_false, not_not, exists_prop]

theorem needIpv6Socket_iff {set : LinkContextSet} :
    set.needIpv6Socket = true ↔ set.transportKeys .ipv6 ≠ [] := by
  simp only [LinkContextSet.needIpv6Socket, LinkContextSet.transportKeys, List.any_eq_true, ne_eq,
    List.filterMap_eq_nil_iff, not_forall, LinkContext.transportKey, ite_eq_right_iff,
    reduceCtorEq, imp_false, not_not, exists_prop]

theorem transportKeys_cons (link : LinkContext) (set : LinkContextSet) (family : Family) :
    LinkContextSet.transportKeys (link :: set) family =
      (link.transportKey family).toList ++ LinkContextSet.transportKeys set family := by
  cases h : link.transportKey family <;> simp [LinkContextSet.transportKeys, h]

/-- Links without a transport have no key. -/
theorem transportKeys_compact (set : LinkContextSet) (family : Family) :
    set.compact.transportKeys family = set.transportKeys family := by
  induction set with
  | nil => rfl
  | cons link set ih =>
    rw [transportKeys_cons, ← ih]
    cases h : link.hasAnyMdnsTransport with
    | true =>
      rw [LinkContextSet.compact, List.filter_cons_of_pos h, transportKeys_cons]
      rfl
    | false =>
      have hkey : link.transportKey family = none := by
        simp only [LinkContext.hasAnyMdnsTransport, Bool.or_eq_false_iff] at h
        cases family <;> simp [LinkContext.transportKey, h]
      rw [LinkContextSet.compact, List.filter_cons_of_neg (by simp [h]), hkey]
      rfl

theorem transportKeys_disable4 (set : LinkContextSet) :
    set.disableMdnsIpv4Transport.transportKeys .ipv4 = [] ∧
      set.disableMdnsIpv4Transport.transportKeys .ipv6 = set.transportKeys .ipv6 := by
  refine ⟨?_, ?_⟩
  · simp [LinkContextSet.disableMdnsIpv4Transport, LinkContextSet.transportKeys,
      LinkContext.transportKey, LinkContext.hasMdnsIpv4Transport]
  · simp only [LinkContextSet.disableMdnsIpv4Transport, LinkContextSet.transportKeys,
      List.filterMap_map]
    rfl

theorem transportKeys_disable6 (set : LinkContextSet) :
    set.disableMdnsIpv6Transport.transportKeys .ipv6 = [] ∧
      set.disableMdnsIpv6Transport.transportKeys .ipv4 = set.transportKeys .ipv4 := by
  refine ⟨?_, ?_⟩
  · simp [LinkContextSet.disableMdnsIpv6Transport, LinkContextSet.transportKeys,
      LinkContext.transportKey, LinkContext.hasMdnsIpv6Transport]
  · simp only [LinkContextSet.disableMdnsIpv6Transport, LinkContextSet.transportKeys,
      List.filterMap_map]
    rfl

/-! ## Joining -/

/-- The world after a join on an open socket. -/
def NetWorld.joined (w : NetWorld) (family : Family) (key : MembershipKey) : NetWorld :=
  match w.socket family with
  | none => w
  | some s => w.setSocket family (some { s with memberships := insert key s.memberships })

theorem ensures_addMembership {family : Family} {key : MembershipKey} {w : NetWorld}
    {Q : Option Errno → NetWorld → Prop} (hok : Q none (w.joined family key))
    (hfail : ∀ e, Q (some e) w) : Ensures (Prog.op (.addMembership family key)) w Q := by
  refine ensures_call fun fault => ?_
  simp only [netKernel, NetWorld.joined] at *
  rcases hs : w.socket family with _ | s
  · exact hfail _
  · rw [hs] at hok
    cases fault with
    | some e => exact hfail e
    | none =>
      simp only
      split
      · exact hfail _
      · exact hok

/-- A successful join has joined the address or an interface of the kernel's choice; a failed one
has changed nothing. -/
theorem joinMdnsMulticastGroup_spec (addr : Ipv4) (w : NetWorld) :
    Ensures (joinMdnsMulticastGroup addr) w fun error w' =>
      match error with
      | none => ∃ key, (key = addr ∨ key = 0) ∧ w' = w.joined .ipv4 key
      | some _ => w' = w := by
  unfold joinMdnsMulticastGroup
  split
  · refine ensures_bind (Q := fun e w' => match e with
      | none => w' = w.joined .ipv4 addr | some _ => w' = w)
      (ensures_addMembership rfl fun _ => rfl) fun e w' h => ?_
    cases e with
    | none => exact ⟨addr, Or.inl rfl, h⟩
    | some e =>
      obtain rfl := h
      refine ensures_bind (Q := fun e w'' => match e with
        | none => w'' = w'.joined .ipv4 0 | some _ => w'' = w')
        (ensures_addMembership rfl fun _ => rfl) fun e w'' h => ?_
      cases e with
      | none => exact ⟨0, Or.inr rfl, h⟩
      | some _ => exact h
  · exact ensures_addMembership ⟨0, Or.inr rfl, rfl⟩ fun _ => rfl

theorem joinMdnsMulticastGroup6_spec (ifindex : UInt32) (w : NetWorld) :
    Ensures (joinMdnsMulticastGroup6 ifindex) w fun error w' =>
      match error with
      | none => w' = w.joined .ipv6 ifindex
      | some _ => w' = w := by
  unfold joinMdnsMulticastGroup6
  split
  · exact rfl
  · exact ensures_addMembership rfl fun _ => rfl

theorem setOutboundMulticastInterface_spec (addr : Ipv4) (w : NetWorld) :
    Ensures (setOutboundMulticastInterface addr) w fun _ w' => w' = w := by
  unfold setOutboundMulticastInterface
  split
  · refine ensures_call fun f => ?_
    cases f with
    | none => exact rfl
    | some e =>
      refine ensures_call fun f => ?_
      cases f <;> exact rfl
  · exact ensures_call fun _ => rfl

theorem setOutboundMulticastInterface6_spec (ifindex : UInt32) (w : NetWorld) :
    Ensures (setOutboundMulticastInterface6 ifindex) w fun _ w' => w' = w := by
  unfold setOutboundMulticastInterface6
  split
  · exact rfl
  · exact ensures_call fun _ => rfl

/-- What the delta has recorded for a family. -/
def MembershipDelta.keys (delta : MembershipDelta) : Family → List MembershipKey
  | .ipv4 => delta.ipv4
  | .ipv6 => delta.ipv6

/-- A socket after memberships for `links` were joined: `joined` lists the ones recorded, `old` the
ones that were there already. -/
structure Grown (family : Family) (old joined : List MembershipKey) (s s' : KernelSocket) :
    Prop where
  grows : s.memberships ⊆ s'.memberships
  refused_eq : s'.refused = s.refused
  bounded : ∀ k ∈ s'.memberships, k ∈ s.memberships ∨ IsKernelSelected family k ∨ k ∈ joined
  fresh : ∀ k ∈ joined, k ≠ 0 ∧ k ∉ old

/-- The key is held on the socket, or the kernel-selected membership stands in for it. -/
def KernelSocket.Serves (s : KernelSocket) (family : Family) (key : MembershipKey) : Prop :=
  key ∈ s.memberships ∨ ∃ k ∈ s.memberships, IsKernelSelected family k

theorem KernelSocket.Serves.mono {s s' : KernelSocket} {family : Family} {key : MembershipKey}
    (h : s.Serves family key) (hs : s.memberships ⊆ s'.memberships) : s'.Serves family key := by
  rcases h with h | ⟨k, hk, hsel⟩
  · exact Or.inl (hs h)
  · exact Or.inr ⟨k, hs hk, hsel⟩

theorem Grown.refl (family : Family) (old : List MembershipKey) (s : KernelSocket) :
    Grown family old [] s s :=
  ⟨Finset.Subset.refl _, rfl, fun _ hk => Or.inl hk, nofun⟩

theorem Grown.trans {family : Family} {old j₁ j₂ : List MembershipKey} {s₁ s₂ s₃ : KernelSocket}
    (h₁ : Grown family old j₁ s₁ s₂) (h₂ : Grown family old j₂ s₂ s₃) :
    Grown family old (j₁ ++ j₂) s₁ s₃ where
  grows := h₁.grows.trans h₂.grows
  refused_eq := h₂.refused_eq.trans h₁.refused_eq
  bounded k hk := by
    rcases h₂.bounded k hk with h | h | h
    · rcases h₁.bounded k h with h | h | h
      · exact Or.inl h
      · exact Or.inr (Or.inl h)
      · exact Or.inr (Or.inr (List.mem_append_left _ h))
    · exact Or.inr (Or.inl h)
    · exact Or.inr (Or.inr (List.mem_append_right _ h))
  fresh k hk := (List.mem_append.mp hk).elim (h₁.fresh k) (h₂.fresh k)

/-- One join, under the key itself or under the kernel-selected one. -/
theorem Grown.join {family : Family} {old : List MembershipKey} {s : KernelSocket}
    {key k : MembershipKey} (hk : k = key ∨ IsKernelSelected family k) (hne : key ≠ 0)
    (hold : key ∉ old) :
    Grown family old [key] s { s with memberships := insert k s.memberships } where
  grows := Finset.subset_insert _ _
  refused_eq := rfl
  bounded j hj := by
    rcases Finset.mem_insert.mp hj with rfl | hj
    · rcases hk with rfl | hsel
      · exact Or.inr (Or.inr (List.mem_singleton_self _))
      · exact Or.inr (Or.inl hsel)
    · exact Or.inl hj
  fresh j hj := by
    obtain rfl := List.mem_singleton.mp hj
    exact ⟨hne, hold⟩

/-- The worlds between which memberships of one family were joined. -/
def GrownWorld (family : Family) (old joined : List MembershipKey) (w w' : NetWorld) : Prop :=
  ∃ s s', w.socket family = some s ∧ w' = w.setSocket family (some s') ∧
    Grown family old joined s s'

theorem NetWorld.setSocket_self {w : NetWorld} {family : Family} {s : Option KernelSocket}
    (h : w.socket family = s) : w.setSocket family s = w := by
  subst h
  cases family <;> rfl

theorem NetWorld.setSocket_setSocket (w : NetWorld) (family : Family) (s s' : Option KernelSocket) :
    (w.setSocket family s).setSocket family s' = w.setSocket family s' := by
  cases family <;> rfl

theorem GrownWorld.refl {family : Family} {w : NetWorld} {s : KernelSocket}
    (hs : w.socket family = some s) (old : List MembershipKey) : GrownWorld family old [] w w :=
  ⟨s, s, hs, (NetWorld.setSocket_self hs).symm, Grown.refl _ _ _⟩

theorem GrownWorld.trans {family : Family} {old j₁ j₂ : List MembershipKey} {w₁ w₂ w₃ : NetWorld}
    (h₁ : GrownWorld family old j₁ w₁ w₂) (h₂ : GrownWorld family old j₂ w₂ w₃) :
    GrownWorld family old (j₁ ++ j₂) w₁ w₃ := by
  obtain ⟨s₁, s₂, hs₁, rfl, g₁⟩ := h₁
  obtain ⟨s₂', s₃, hs₂, rfl, g₂⟩ := h₂
  simp only [NetWorld.socket_setSocket, if_true, Option.some.injEq] at hs₂
  subst hs₂
  exact ⟨s₁, s₃, hs₁, NetWorld.setSocket_setSocket _ _ _ _, g₁.trans g₂⟩

theorem GrownWorld.joined {family : Family} {old : List MembershipKey} {w : NetWorld}
    {s : KernelSocket} {key k : MembershipKey} (hs : w.socket family = some s)
    (hk : k = key ∨ IsKernelSelected family k) (hne : key ≠ 0) (hold : key ∉ old) :
    GrownWorld family old [key] w (w.joined family k) :=
  ⟨s, _, hs, by rw [NetWorld.joined, hs], Grown.join hk hne hold⟩

theorem GrownWorld.socket_isSome {family : Family} {old joined : List MembershipKey}
    {w w' : NetWorld} (h : GrownWorld family old joined w w') :
    ∃ s', w'.socket family = some s' := by
  obtain ⟨s, s', _, rfl, _⟩ := h
  exact ⟨s', by simp⟩

/-- The key is served by the socket of its family. -/
def NetWorld.Serves (w : NetWorld) (family : Family) (key : MembershipKey) : Prop :=
  ∃ s, w.socket family = some s ∧ s.Serves family key

theorem NetWorld.Serves.mono {family : Family} {old joined : List MembershipKey} {w w' : NetWorld}
    {key : MembershipKey} (h : w.Serves family key) (hg : GrownWorld family old joined w w') :
    w'.Serves family key := by
  obtain ⟨s, s', hs, rfl, g⟩ := hg
  obtain ⟨t, ht, hserves⟩ := h
  rw [hs] at ht
  obtain rfl := Option.some.inj ht
  exact ⟨s', by simp, hserves.mono g.grows⟩

theorem NetWorld.serves_joined {family : Family} {w : NetWorld} {s : KernelSocket}
    {key k : MembershipKey} (hs : w.socket family = some s)
    (hk : k = key ∨ IsKernelSelected family k) : (w.joined family k).Serves family key := by
  refine ⟨{ s with memberships := insert k s.memberships }, by simp [NetWorld.joined, hs], ?_⟩
  rcases hk with rfl | hsel
  · exact Or.inl (Finset.mem_insert_self _ _)
  · exact Or.inr ⟨k, Finset.mem_insert_self _ _, hsel⟩

def MembershipDelta.extend (delta : MembershipDelta) (family : Family) (keys : List MembershipKey) :
    MembershipDelta :=
  match family with
  | .ipv4 => { delta with ipv4 := delta.ipv4 ++ keys }
  | .ipv6 => { delta with ipv6 := delta.ipv6 ++ keys }

theorem MembershipDelta.extend_keys (delta : MembershipDelta) (family g : Family)
    (keys : List MembershipKey) :
    (delta.extend family keys).keys g =
      if family = g then delta.keys g ++ keys else delta.keys g := by
  cases family <;> cases g <;> rfl

theorem MembershipDelta.extend_nil (delta : MembershipDelta) (family : Family) :
    delta.extend family [] = delta := by
  cases family <;> simp [MembershipDelta.extend]

theorem MembershipDelta.extend_extend (delta : MembershipDelta) (family : Family)
    (k₁ k₂ : List MembershipKey) :
    (delta.extend family k₁).extend family k₂ = delta.extend family (k₁ ++ k₂) := by
  cases family <;> simp [MembershipDelta.extend]

theorem record4_of_lt {delta : Option MembershipDelta} {addr : Ipv4}
    (h : ∀ d ∈ delta, d.ipv4.length < maxIfaceContexts) :
    recordMdnsMembershipIpv4 delta addr = some (delta.map (·.extend .ipv4 [addr])) := by
  cases delta with
  | none => rfl
  | some d =>
    unfold recordMdnsMembershipIpv4
    simp only
    rw [if_neg (not_le.mpr (h d rfl))]
    rfl

theorem record6_of_lt {delta : Option MembershipDelta} {ifindex : UInt32}
    (h : ∀ d ∈ delta, d.ipv6.length < maxIfaceContexts) :
    recordMdnsMembershipIpv6 delta ifindex = some (delta.map (·.extend .ipv6 [ifindex])) := by
  cases delta with
  | none => rfl
  | some d =>
    unfold recordMdnsMembershipIpv6
    simp only
    rw [if_neg (not_le.mpr (h d rfl))]
    rfl

/-! ## Preparing the memberships of links -/

/-- The worlds before and after the memberships for one family of `links` were prepared, with the
links as they are then, and the memberships that were joined. -/
structure LinksPrepared (family : Family) (old joined : List MembershipKey) (w w' : NetWorld)
    (links links' : LinkContextSet) : Prop where
  grown : GrownWorld family old joined w w'
  served : ∀ k ∈ links'.transportKeys family, k ≠ 0 ∧ w'.Serves family k
  recorded : ∀ k ∈ joined, k ∈ links'.transportKeys family
  others : ∀ g, g ≠ family → links'.transportKeys g = links.transportKeys g
  short : joined.length ≤ links.length
  length_le : links'.length ≤ links.length

theorem LinksPrepared.nil {family : Family} {w : NetWorld} {s : KernelSocket}
    (hs : w.socket family = some s) (old : List MembershipKey) :
    LinksPrepared family old [] w w [] [] :=
  ⟨.refl hs old, nofun, nofun, fun _ _ => rfl, Nat.le_refl _, Nat.le_refl _⟩

theorem LinksPrepared.cons {family : Family} {old j₁ j₂ : List MembershipKey}
    {w₁ w₂ w₃ : NetWorld} {link link' : LinkContext} {links links' : LinkContextSet}
    (h₁ : LinksPrepared family old j₁ w₁ w₂ [link] [link'])
    (h₂ : LinksPrepared family old j₂ w₂ w₃ links links') :
    LinksPrepared family old (j₁ ++ j₂) w₁ w₃ (link :: links) (link' :: links') where
  grown := h₁.grown.trans h₂.grown
  served k hk := by
    rw [transportKeys_cons] at hk
    rcases List.mem_append.mp hk with hk | hk
    · have h := h₁.served k (by rw [transportKeys_cons]; exact List.mem_append_left _ hk)
      exact ⟨h.1, h.2.mono h₂.grown⟩
    · exact h₂.served k hk
  recorded k hk := by
    rw [transportKeys_cons]
    rcases List.mem_append.mp hk with hk | hk
    · have h := h₁.recorded k hk
      rw [transportKeys_cons] at h
      simp only [LinkContextSet.transportKeys, List.filterMap_nil, List.append_nil] at h
      exact List.mem_append_left _ h
    · exact List.mem_append_right _ (h₂.recorded k hk)
  others g hg := by
    have h := h₁.others g hg
    simp only [transportKeys_cons, h₂.others g hg] at h ⊢
    rw [List.append_cancel_right h]
  short := by
    have h := h₁.short
    have h' := h₂.short
    simp only [List.length_append, List.length_cons, List.length_nil] at h ⊢
    omega
  length_le := Nat.succ_le_succ h₂.length_le

theorem LinksPrepared.compact {family : Family} {old joined : List MembershipKey}
    {w w' : NetWorld} {links links' : LinkContextSet}
    (h : LinksPrepared family old joined w w' links links') :
    LinksPrepared family old joined w w' links links'.compact where
  grown := h.grown
  served k hk := h.served k (by rwa [transportKeys_compact] at hk)
  recorded k hk := by rw [transportKeys_compact]; exact h.recorded k hk
  others g hg := by rw [transportKeys_compact]; exact h.others g hg
  short := h.short
  length_le := (List.length_filter_le _ _).trans h.length_le

/-- A link whose transport in the family was not wanted, or is given up. -/
theorem LinksPrepared.without {family : Family} {w : NetWorld} {s : KernelSocket}
    {link link' : LinkContext} (hs : w.socket family = some s) (old : List MembershipKey)
    (hnone : link'.transportKey family = none)
    (hothers : ∀ g, g ≠ family → link'.transportKey g = link.transportKey g) :
    LinksPrepared family old [] w w [link] [link'] where
  grown := .refl hs old
  served k hk := by simp [LinkContextSet.transportKeys, hnone] at hk
  recorded := nofun
  others g hg := by rw [transportKeys_cons, transportKeys_cons, hothers g hg]
  short := Nat.zero_le _
  length_le := Nat.le_refl _

/-- A link whose membership is there, be it old or just joined. -/
theorem LinksPrepared.single {family : Family} {old joined : List MembershipKey} {w w' : NetWorld}
    {link link' : LinkContext} {key : MembershipKey} (hg : GrownWorld family old joined w w')
    (hkey : link'.transportKey family = some key) (hne : key ≠ 0) (hserves : w'.Serves family key)
    (hrec : ∀ k ∈ joined, k = key) (hshort : joined.length ≤ 1)
    (hothers : ∀ g, g ≠ family → link'.transportKey g = link.transportKey g) :
    LinksPrepared family old joined w w' [link] [link'] where
  grown := hg
  served k hk := by
    simp only [LinkContextSet.transportKeys, List.filterMap_cons, hkey, List.filterMap_nil,
      List.mem_singleton] at hk
    subst hk
    exact ⟨hne, hserves⟩
  recorded k hk := by simp [LinkContextSet.transportKeys, hkey, hrec k hk]
  others g hg := by rw [transportKeys_cons, transportKeys_cons, hothers g hg]
  short := hshort
  length_le := Nat.le_refl _

/-- Whatever the links had before is served on the socket, which is open. -/
def OldServed (family : Family) (old : List MembershipKey) (w : NetWorld) : Prop :=
  (∃ s, w.socket family = some s) ∧ ∀ k ∈ old, w.Serves family k

theorem OldServed.mono {family : Family} {old joined : List MembershipKey} {w w' : NetWorld}
    (h : OldServed family old w) (hg : GrownWorld family old joined w w') :
    OldServed family old w' :=
  ⟨hg.socket_isSome, fun k hk => (h.2 k hk).mono hg⟩

/-- The memberships the old links have, if there are any. -/
abbrev oldKeys (oldLinks : Option LinkContextSet) (family : Family) : List MembershipKey :=
  LinkContextSet.transportKeys (oldLinks.getD []) family

theorem joinForLink4_spec {oldLinks : Option LinkContextSet} {link : LinkContext}
    (htransport : link.hasMdnsIpv4Transport = true) (tries : Nat) (untried : List Ipv4)
    (haddr : ∀ a ∈ untried, a ≠ 0) {delta : Option MembershipDelta}
    (hdelta : ∀ d ∈ delta, d.ipv4.length < maxIfaceContexts) {w : NetWorld}
    (hold : OldServed .ipv4 (oldKeys oldLinks .ipv4) w) :
    Ensures (joinForLink4 oldLinks link tries untried delta) w fun r w' =>
      ∃ link' isJoined joined, r = .ok (link', isJoined, delta.map (·.extend .ipv4 joined)) ∧
        LinksPrepared .ipv4 (oldKeys oldLinks .ipv4) joined w w' [link] [link'] ∧
        (link'.transportKey .ipv4 = none → isJoined = false) := by
  obtain ⟨s, hs⟩ := hold.1
  have hgiveUp : LinksPrepared .ipv4 (oldKeys oldLinks .ipv4) [] w w [link]
      [{ link with mdnsIpv4Transport := false, mdnsIpv4TransportAddr := 0 }] :=
    .without hs _ rfl fun g hg => by
      cases g with
      | ipv4 => exact absurd rfl hg
      | ipv6 => rfl
  have hnil : delta = delta.map (·.extend .ipv4 []) := by simp [MembershipDelta.extend_nil]
  -- with an address chosen, the link keeps its transport and prefers that address
  have hkey : ∀ a ≠ 0,
      ({ link with mdnsIpv4TransportAddr := a } : LinkContext).transportKey .ipv4 = some a := by
    intro a ha
    have hipv4 : link.ipv4.isEmpty = false := by
      simp only [LinkContext.hasMdnsIpv4Transport, Bool.and_eq_true] at htransport
      simpa using htransport.2
    have hpref : linkPreferredIpv4Source { link with mdnsIpv4TransportAddr := a } = a := by
      simp [linkPreferredIpv4Source, hipv4, ha]
    unfold LinkContext.transportKey
    rw [hpref]
    exact if_pos htransport
  have hothers : ∀ a g, g ≠ Family.ipv4 →
      ({ link with mdnsIpv4TransportAddr := a } : LinkContext).transportKey g =
        link.transportKey g := by
    intro a g hg
    cases g with
    | ipv4 => exact absurd rfl hg
    | ipv6 => rfl
  induction tries generalizing untried with
  | zero => exact ⟨_, false, [], congrArg _ (by rw [← hnil]), hgiveUp, fun _ => rfl⟩
  | succ tries ih =>
    unfold joinForLink4
    split
    · exact ⟨_, false, [], congrArg _ (by rw [← hnil]), hgiveUp, fun _ => rfl⟩
    · next addr hbest =>
      have hne : addr ≠ 0 := haddr addr (bestIpv4Source_mem hbest)
      have htk := hkey addr hne
      simp only [Prog.bind_eq, Prog.pure_eq]
      split
      · next hhas =>
        rw [linkSetHasIpv4Membership_iff] at hhas
        refine ⟨_, true, [], congrArg _ (by rw [← hnil]), ?_, fun h => by simp [htk] at h⟩
        exact .single (.refl hs _) htk hne (hold.2 addr hhas) nofun (Nat.zero_le _) (hothers addr)
      · next hhas =>
        rw [linkSetHasIpv4Membership_iff] at hhas
        refine ensures_bind (joinMdnsMulticastGroup_spec addr w) fun error w' h => ?_
        cases error with
        | some e =>
          obtain rfl := h
          exact ih _ fun a ha => haddr a (List.mem_of_mem_erase ha)
        | none =>
          obtain ⟨k, hk, rfl⟩ := h
          simp only [record4_of_lt hdelta]
          refine ⟨_, true, [addr], rfl, ?_, fun h => by simp [htk] at h⟩
          exact .single (.joined hs hk hne hhas) htk hne (NetWorld.serves_joined hs hk)
            (fun k hk => List.mem_singleton.mp hk) (Nat.le_refl _) (hothers addr)

/-- The links are prepared, the joins are recorded, and the first key stays if no link has one. -/
def PreparedBy (family : Family) (oldLinks : Option LinkContextSet) (links : LinkContextSet)
    (first : MembershipKey) (delta : Option MembershipDelta) (w : NetWorld)
    (r : Except Errno LinkContextSet × MembershipKey × Option MembershipDelta) (w' : NetWorld) :
    Prop :=
  ∃ links' joined, r.1 = .ok links' ∧ r.2.2 = delta.map (·.extend family joined) ∧
    LinksPrepared family (oldKeys oldLinks family) joined w w' links links' ∧
    (links'.transportKeys family = [] → r.2.1 = first)

/-- One link in front of the rest. -/
theorem PreparedBy.cons {family : Family} {oldLinks : Option LinkContextSet} {link link' : LinkContext}
    {links : LinkContextSet} {first first' : MembershipKey} {delta : Option MembershipDelta}
    (joined : List MembershipKey) {w w₁ w₂ : NetWorld}
    {r : Except Errno LinkContextSet × MembershipKey × Option MembershipDelta}
    (h₁ : LinksPrepared family (oldKeys oldLinks family) joined w w₁ [link] [link'])
    (hfirst : link'.transportKey family = none → first' = first)
    (h₂ : PreparedBy family oldLinks links first' (delta.map (·.extend family joined)) w₁ r w₂) :
    PreparedBy family oldLinks (link :: links) first delta w
      (r.1.map (link' :: ·), r.2.1, r.2.2) w₂ := by
  obtain ⟨links', joined', hok, hdelta, hprep, hnone⟩ := h₂
  refine ⟨link' :: links', joined ++ joined', by simp [hok, Except.map], ?_, h₁.cons hprep, ?_⟩
  · rw [hdelta, Option.map_map]
    congr 1
    funext d
    exact MembershipDelta.extend_extend d family joined joined'
  · intro h
    rw [transportKeys_cons, List.append_eq_nil_iff, Option.toList_eq_nil_iff] at h
    exact (hnone h.2).trans (hfirst h.1)

theorem extend_length_le {delta : Option MembershipDelta} {family : Family}
    (joined : List MembershipKey) {n : Nat}
    (hdelta : ∀ d ∈ delta, (d.keys family).length + (n + 1) ≤ maxIfaceContexts)
    (hshort : joined.length ≤ 1) :
    ∀ d ∈ delta.map (·.extend family joined), (d.keys family).length + n ≤ maxIfaceContexts := by
  intro d hd
  obtain ⟨d', hd', rfl⟩ := Option.mem_map.mp hd
  have h := hdelta d' hd'
  rw [MembershipDelta.extend_keys, if_pos rfl, List.length_append]
  omega

theorem prepareLinks4_spec {oldLinks : Option LinkContextSet} {links : LinkContextSet}
    (haddr : ∀ link ∈ links, ∀ a ∈ link.ipv4, a.addr ≠ 0) (first : Ipv4)
    {delta : Option MembershipDelta}
    (hdelta : ∀ d ∈ delta, (d.keys .ipv4).length + links.length ≤ maxIfaceContexts) {w : NetWorld}
    (hold : OldServed .ipv4 (oldKeys oldLinks .ipv4) w) :
    Ensures (prepareLinks4 oldLinks links first delta) w
      (PreparedBy .ipv4 oldLinks links first delta w) := by
  induction links generalizing first delta w with
  | nil =>
    obtain ⟨s, hs⟩ := hold.1
    exact ⟨[], [], rfl, by simp [MembershipDelta.extend_nil], .nil hs _, fun _ => rfl⟩
  | cons link rest ih =>
    have hrest : ∀ l ∈ rest, ∀ a ∈ l.ipv4, a.addr ≠ 0 := fun l hl =>
      haddr l (List.mem_cons_of_mem _ hl)
    unfold prepareLinks4
    simp only [Prog.bind_eq, Prog.pure_eq]
    by_cases htransport : link.hasMdnsIpv4Transport = true
    · rw [if_pos htransport]
      refine ensures_bind (joinForLink4_spec htransport _ (link.ipv4.map (·.addr)) ?_ ?_
        hold) fun r w' h => ?_
      · intro a ha
        obtain ⟨x, hx, rfl⟩ := List.mem_map.mp ha
        exact haddr link List.mem_cons_self x hx
      · intro d hd
        have h := hdelta d hd
        simp only [List.length_cons, MembershipDelta.keys] at h
        omega
      · obtain ⟨link', isJoined, joined, rfl, hprep, hkey⟩ := h
        refine ensures_bind (ih hrest _ (extend_length_le joined hdelta hprep.short)
          (hold.mono hprep.grown)) fun r w'' h => ?_
        exact PreparedBy.cons joined hprep (fun hnone => by simp [hkey hnone]) h
    · rw [if_neg htransport]
      obtain ⟨s, hs⟩ := hold.1
      have hkey : link.transportKey .ipv4 = none := if_neg htransport
      refine ensures_bind (ih hrest first (fun d hd => ?_) hold)
        fun r w' h => ?_
      · have h := hdelta d hd
        simp only [List.length_cons] at h
        omega
      · refine PreparedBy.cons [] (.without hs _ hkey fun _ _ => rfl)
          (fun _ => rfl) ?_
        simpa [MembershipDelta.extend_nil] using h

theorem prepareLinks6_spec {oldLinks : Option LinkContextSet} {links : LinkContextSet}
    (first : UInt32) {delta : Option MembershipDelta}
    (hdelta : ∀ d ∈ delta, (d.keys .ipv6).length + links.length ≤ maxIfaceContexts) {w : NetWorld}
    (hold : OldServed .ipv6 (oldKeys oldLinks .ipv6) w) :
    Ensures (prepareLinks6 oldLinks links first delta) w
      (PreparedBy .ipv6 oldLinks links first delta w) := by
  induction links generalizing first delta w with
  | nil =>
    obtain ⟨s, hs⟩ := hold.1
    exact ⟨[], [], rfl, by simp [MembershipDelta.extend_nil], .nil hs _, fun _ => rfl⟩
  | cons link rest ih =>
    obtain ⟨s, hs⟩ := hold.1
    have hdelta' : ∀ d ∈ delta, (d.keys .ipv6).length + rest.length ≤ maxIfaceContexts := by
      intro d hd
      have h := hdelta d hd
      simp only [List.length_cons] at h
      omega
    unfold prepareLinks6
    simp only [Prog.bind_eq, Prog.pure_eq]
    by_cases htransport : link.hasMdnsIpv6Transport = true
    · rw [if_pos htransport]
      have hne := ifindex_ne_zero htransport
      have hkey : link.transportKey .ipv6 = some link.ifindex := if_pos htransport
      have hfirst : link.transportKey .ipv6 = none →
          (if first = 0 then link.ifindex else first) = first := by
        simp [hkey]
      split
      · next hhas =>
        rw [linkSetHasIpv6Membership_iff] at hhas
        refine ensures_bind (ih _ hdelta' hold) fun r w' h => ?_
        refine PreparedBy.cons [] ?_ hfirst
          (by simpa [MembershipDelta.extend_nil] using h)
        exact .single (.refl hs _) hkey hne (hold.2 _ hhas) nofun (Nat.zero_le _) fun _ _ => rfl
      · next hhas =>
        rw [linkSetHasIpv6Membership_iff] at hhas
        refine ensures_bind (joinMdnsMulticastGroup6_spec link.ifindex w) fun error w' h => ?_
        cases error with
        | some e =>
          obtain rfl := h
          refine ensures_bind (ih first hdelta' hold) fun r w'' h => ?_
          refine PreparedBy.cons [] ?_ (fun _ => rfl)
            (by simpa [MembershipDelta.extend_nil] using h)
          exact .without hs _ rfl fun g hg => by
            cases g with
            | ipv4 => rfl
            | ipv6 => exact absurd rfl hg
        | none =>
          obtain rfl := h
          have hlt : ∀ d ∈ delta, d.ipv6.length < maxIfaceContexts := by
            intro d hd
            have h := hdelta d hd
            simp only [List.length_cons, MembershipDelta.keys] at h
            omega
          have hgrown : GrownWorld .ipv6 (oldKeys oldLinks .ipv6) [link.ifindex] w
              (w.joined .ipv6 link.ifindex) := .joined hs (Or.inl rfl) hne hhas
          simp only [record6_of_lt hlt]
          refine ensures_bind (ih _ (extend_length_le [link.ifindex] hdelta
            (Nat.le_refl 1)) (hold.mono hgrown)) fun r w'' h => ?_
          refine PreparedBy.cons [link.ifindex] ?_ hfirst h
          exact .single hgrown hkey hne (NetWorld.serves_joined hs (Or.inl rfl))
            (fun k hk => List.mem_singleton.mp hk) (Nat.le_refl _) fun _ _ => rfl
    · rw [if_neg htransport]
      have hkey : link.transportKey .ipv6 = none := if_neg htransport
      refine ensures_bind (ih first hdelta' hold) fun r w' h => ?_
      refine PreparedBy.cons [] (.without hs _ hkey fun _ _ => rfl)
        (fun _ => rfl) ?_
      simpa [MembershipDelta.extend_nil] using h

/-- What preparing leaves: without an error some link has a transport of the family. -/
def PreparedAs (family : Family) (oldLinks : Option LinkContextSet) (links : LinkContextSet)
    (delta : Option MembershipDelta) (w : NetWorld) (p : Prepared) (w' : NetWorld) : Prop :=
  ∃ joined, p.delta = delta.map (·.extend family joined) ∧
    LinksPrepared family (oldKeys oldLinks family) joined w w' links p.links ∧
    (p.error = none → p.links.transportKeys family ≠ [])

theorem prepareMdnsSocket4Memberships_spec {oldLinks : Option LinkContextSet}
    {links : LinkContextSet} (delta : Option MembershipDelta)
    (haddr : ∀ link ∈ links, ∀ a ∈ link.ipv4, a.addr ≠ 0)
    (hdelta : ∀ d ∈ delta, (d.keys .ipv4).length + links.length ≤ maxIfaceContexts) {w : NetWorld}
    (hold : OldServed .ipv4 (oldKeys oldLinks .ipv4) w) :
    Ensures (prepareMdnsSocket4Memberships oldLinks links delta) w
      (PreparedAs .ipv4 oldLinks links delta w) := by
  unfold prepareMdnsSocket4Memberships
  refine ensures_bind (prepareLinks4_spec haddr 0 hdelta hold) ?_
  rintro ⟨_, first, delta'⟩ w' ⟨links', joined, rfl, rfl, hprep, hfirst⟩
  simp only [Prog.bind_eq, Prog.pure_eq] at *
  split
  · exact ⟨joined, rfl, hprep.compact, nofun⟩
  · next hne =>
    refine ensures_bind (setOutboundMulticastInterface_spec first w') ?_
    rintro error w'' rfl
    refine ⟨joined, rfl, hprep.compact, fun _ hnil => ?_⟩
    rw [transportKeys_compact] at hnil
    exact hne (hfirst hnil)

theorem prepareMdnsSocket6Memberships_spec {oldLinks : Option LinkContextSet}
    {links : LinkContextSet} (delta : Option MembershipDelta)
    (hdelta : ∀ d ∈ delta, (d.keys .ipv6).length + links.length ≤ maxIfaceContexts) {w : NetWorld}
    (hold : OldServed .ipv6 (oldKeys oldLinks .ipv6) w) :
    Ensures (prepareMdnsSocket6Memberships oldLinks links delta) w
      (PreparedAs .ipv6 oldLinks links delta w) := by
  unfold prepareMdnsSocket6Memberships
  refine ensures_bind (prepareLinks6_spec 0 hdelta hold) ?_
  rintro ⟨_, first, delta'⟩ w' ⟨links', joined, rfl, rfl, hprep, hfirst⟩
  simp only [Prog.bind_eq, Prog.pure_eq] at *
  split
  · exact ⟨joined, rfl, hprep.compact, nofun⟩
  · next hne =>
    refine ensures_bind (setOutboundMulticastInterface6_spec first w') ?_
    rintro error w'' rfl
    refine ⟨joined, rfl, hprep.compact, fun _ hnil => ?_⟩
    rw [transportKeys_compact] at hnil
    exact hne (hfirst hnil)

/-! ## Dropping -/

/-- A socket after the listed memberships were dropped, except where the kernel refused. -/
structure Dropped (keys : List MembershipKey) (s s' : KernelSocket) : Prop where
  shrinks : s'.memberships ⊆ s.memberships
  refused_grows : s.refused ⊆ s'.refused
  kept : ∀ k ∈ s.memberships, k ∉ keys → k ∈ s'.memberships
  gone : ∀ k ∈ keys, k ∈ s'.memberships → k ∈ s'.refused

theorem Dropped.nil (s : KernelSocket) : Dropped [] s s :=
  ⟨Finset.Subset.refl _, Finset.Subset.refl _, fun _ hk _ => hk, nofun⟩

theorem Dropped.cons {key : MembershipKey} {keys : List MembershipKey} {s₁ s₂ s₃ : KernelSocket}
    (h₁ : Dropped [key] s₁ s₂) (h₂ : Dropped keys s₂ s₃) : Dropped (key :: keys) s₁ s₃ where
  shrinks := h₂.shrinks.trans h₁.shrinks
  refused_grows := h₁.refused_grows.trans h₂.refused_grows
  kept k hk hnot := by
    rw [List.mem_cons, not_or] at hnot
    exact h₂.kept k (h₁.kept k hk (by simpa using hnot.1)) hnot.2
  gone k hk hmem := by
    rcases List.mem_cons.mp hk with rfl | hk
    · exact h₂.refused_grows (h₁.gone k (List.mem_singleton_self _) (h₂.shrinks hmem))
    · exact h₂.gone k hk hmem

/-- The worlds between which memberships of one family were dropped. -/
def DroppedWorld (family : Family) (keys : List MembershipKey) (w w' : NetWorld) : Prop :=
  ∃ s s', w.socket family = some s ∧ w' = w.setSocket family (some s') ∧ Dropped keys s s'

theorem DroppedWorld.nil {family : Family} {w : NetWorld} {s : KernelSocket}
    (hs : w.socket family = some s) : DroppedWorld family [] w w :=
  ⟨s, s, hs, (NetWorld.setSocket_self hs).symm, .nil s⟩

theorem DroppedWorld.cons {family : Family} {key : MembershipKey} {keys : List MembershipKey}
    {w₁ w₂ w₃ : NetWorld} (h₁ : DroppedWorld family [key] w₁ w₂)
    (h₂ : DroppedWorld family keys w₂ w₃) : DroppedWorld family (key :: keys) w₁ w₃ := by
  obtain ⟨s₁, s₂, hs₁, rfl, d₁⟩ := h₁
  obtain ⟨s₂', s₃, hs₂, rfl, d₂⟩ := h₂
  simp only [NetWorld.socket_setSocket, if_true, Option.some.injEq] at hs₂
  subst hs₂
  exact ⟨s₁, s₃, hs₁, NetWorld.setSocket_setSocket _ _ _ _, d₁.cons d₂⟩

theorem DroppedWorld.socket_isSome {family : Family} {keys : List MembershipKey} {w w' : NetWorld}
    (h : DroppedWorld family keys w w') : ∃ s', w'.socket family = some s' := by
  obtain ⟨s, s', _, rfl, _⟩ := h
  exact ⟨s', by simp⟩

theorem ensures_dropMembership {family : Family} {key : MembershipKey} {w : NetWorld}
    {s : KernelSocket} (hs : w.socket family = some s) :
    Ensures (Prog.op (.dropMembership family key)) w fun _ w' => DroppedWorld family [key] w w' := by
  refine ensures_call fun fault => ?_
  simp only [netKernel, hs]
  split
  · next hnot =>
    refine ⟨s, s, hs, (NetWorld.setSocket_self hs).symm, Finset.Subset.refl _,
      Finset.Subset.refl _, fun _ hk _ => hk, fun k hk hmem => ?_⟩
    obtain rfl := List.mem_singleton.mp hk
    exact absurd hmem hnot
  · cases fault with
    | some e =>
      refine ⟨s, _, hs, rfl, Finset.Subset.refl _, Finset.subset_insert _ _, fun _ hk _ => hk,
        fun k hk _ => ?_⟩
      obtain rfl := List.mem_singleton.mp hk
      exact Finset.mem_insert_self _ _
    | none =>
      refine ⟨s, _, hs, rfl, Finset.erase_subset _ _, Finset.Subset.refl _, fun k hk hnot => ?_,
        fun k hk hmem => ?_⟩
      · exact Finset.mem_erase.mpr ⟨by simpa using hnot, hk⟩
      · obtain rfl := List.mem_singleton.mp hk
        exact absurd rfl (Finset.mem_erase.mp hmem).1

theorem dropMdnsMulticastGroupBestEffort_spec {addr : Ipv4} {w : NetWorld} {s : KernelSocket}
    (hs : w.socket .ipv4 = some s) :
    Ensures (dropMdnsMulticastGroupBestEffort addr) w fun _ w' =>
      DroppedWorld .ipv4 [addr] w w' := by
  unfold dropMdnsMulticastGroupBestEffort
  exact ensures_bind (ensures_dropMembership hs) fun _ _ h => ensures_ret h

theorem dropMdnsMulticastGroup6BestEffort_spec {ifindex : UInt32} (hne : ifindex ≠ 0)
    {w : NetWorld} {s : KernelSocket} (hs : w.socket .ipv6 = some s) :
    Ensures (dropMdnsMulticastGroup6BestEffort ifindex) w fun _ w' =>
      DroppedWorld .ipv6 [ifindex] w w' := by
  unfold dropMdnsMulticastGroup6BestEffort
  rw [if_neg hne]
  exact ensures_bind (ensures_dropMembership hs) fun _ _ h => ensures_ret h

theorem dropAll4_spec {keys : List Ipv4} {w : NetWorld} {s : KernelSocket}
    (hs : w.socket .ipv4 = some s) :
    Ensures (dropAll4 keys) w fun _ w' => DroppedWorld .ipv4 keys w w' := by
  induction keys generalizing w s with
  | nil => exact .nil hs
  | cons key rest ih =>
    unfold dropAll4
    refine ensures_bind (dropMdnsMulticastGroupBestEffort_spec hs) fun _ w' h => ?_
    obtain ⟨s', hs'⟩ := h.socket_isSome
    exact Prog.wp_mono (ih hs') fun _ _ h' => h.cons h'

theorem dropAll6_spec {keys : List UInt32} (hne : ∀ k ∈ keys, k ≠ 0) {w : NetWorld}
    {s : KernelSocket} (hs : w.socket .ipv6 = some s) :
    Ensures (dropAll6 keys) w fun _ w' => DroppedWorld .ipv6 keys w w' := by
  induction keys generalizing w s with
  | nil => exact .nil hs
  | cons key rest ih =>
    unfold dropAll6
    refine ensures_bind (dropMdnsMulticastGroup6BestEffort_spec (hne key List.mem_cons_self) hs)
      fun _ w' h => ?_
    obtain ⟨s', hs'⟩ := h.socket_isSome
    exact Prog.wp_mono (ih (fun k hk => hne k (List.mem_cons_of_mem _ hk)) hs')
      fun _ _ h' => h.cons h'

end TimeCapsule.Mdns
