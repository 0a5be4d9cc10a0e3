import TimeCapsule.Mdns.Membership
import TimeCapsule.Mdns.Runtime

/-!
# Changing the links of a running responder

A link change leaves the sockets settled on the new links, or as they were on the old ones.  The
proof follows the function: what holds of a family before its socket is opened, before its
memberships are prepared, and after.
-/

namespace TimeCapsule.Mdns

open Lib

/-- The socket of a family serves the links: it is open exactly when a link needs it, and holds a
membership for every link's key, or the kernel-selected one in its place.  Besides, it holds only
the kernel-selected membership and memberships that the kernel has refused to drop. -/
structure Settled (family : Family) (fd : Bool) (links : LinkContextSet) (w : NetWorld) :
    Prop where
  fd_eq : fd = (w.socket family).isSome
  open_iff : fd = true ↔ links.transportKeys family ≠ []
  served : ∀ k ∈ links.transportKeys family, w.Serves family k
  bounded : ∀ s, w.socket family = some s → ∀ k ∈ s.memberships,
    k ∈ links.transportKeys family ∨ IsKernelSelected family k ∨ k ∈ s.refused

/-- The memberships of a socket are as before, apart from the kernel-selected one and those the
kernel has refused to drop; those of the links are all there. -/
structure Restored (family : Family) (needed : List MembershipKey) (s s' : KernelSocket) : Prop where
  refused_grows : s.refused ⊆ s'.refused
  same : ∀ k, ¬ IsKernelSelected family k → k ∉ s'.refused →
    (k ∈ s'.memberships ↔ k ∈ s.memberships)
  needed_kept : ∀ k ∈ s.memberships, k ∈ needed ∨ IsKernelSelected family k → k ∈ s'.memberships

/-- `P` relates the two sockets, or neither is there. -/
def OnSockets (P : KernelSocket → KernelSocket → Prop) : Option KernelSocket → Option KernelSocket → Prop
  | none, none => True
  | some s, some s' => P s s'
  | _, _ => False

namespace OnSockets

variable {P : KernelSocket → KernelSocket → Prop} {o o' : Option KernelSocket}

theorem isSome_eq (h : OnSockets P o o') : o'.isSome = o.isSome := by
  cases o <;> cases o' <;> first | rfl | exact h.elim

theorem of_some {s : KernelSocket} (h : OnSockets P o o') (hs : o' = some s) :
    ∃ s₀, o = some s₀ ∧ P s₀ s := by
  subst hs
  cases o with
  | none => exact h.elim
  | some s₀ => exact ⟨s₀, rfl, h⟩

theorem to_some {s₀ : KernelSocket} (h : OnSockets P o o') (hs : o = some s₀) :
    ∃ s, o' = some s ∧ P s₀ s := by
  subst hs
  cases o' with
  | none => exact h.elim
  | some s => exact ⟨s, rfl, h⟩

theorem refl (hP : ∀ s, P s s) (o : Option KernelSocket) : OnSockets P o o := by
  cases o with
  | none => exact trivial
  | some s => exact hP s

end OnSockets

/-! ## Dropping and closing on both sockets -/

/-- The descriptors are those of the open sockets. -/
def MdnsSocketPair.Agrees (sockets : MdnsSocketPair) (w : NetWorld) : Prop :=
  ∀ family, sockets.fd family = (w.socket family).isSome

theorem MdnsSocketPair.Agrees.exists_socket {sockets : MdnsSocketPair} {w : NetWorld}
    (h : sockets.Agrees w) (family : Family) (hfd : sockets.fd family = true) :
    ∃ s, w.socket family = some s :=
  Option.isSome_iff_exists.mp ((h family).symm.trans hfd)

theorem MdnsSocketPair.Agrees.socket_eq_none {sockets : MdnsSocketPair} {w : NetWorld}
    (h : sockets.Agrees w) (family : Family) (hfd : ¬ sockets.fd family = true) :
    w.socket family = none := by
  rwa [h family, Option.not_isSome_iff_eq_none] at hfd

/-- Dropping memberships of one family if its socket is open, and going on. -/
theorem ensures_dropIf {sockets : MdnsSocketPair} {w : NetWorld} (family : Family)
    (hw : sockets.Agrees w) {keys : List MembershipKey} {p : NetM Unit} {α : Type} {k : Unit → NetM α}
    {Q : α → NetWorld → Prop}
    (hp : ∀ s, w.socket family = some s →
      Ensures p w fun _ w' => DroppedWorld family keys w w')
    (hk : ∀ w', OnSockets (Dropped keys) (w.socket family) (w'.socket family) →
      (∀ g, g ≠ family → w'.socket g = w.socket g) → Ensures (k ()) w' Q) :
    Ensures (if sockets.fd family then p.bind k else k ()) w Q := by
  split
  · next hfd =>
    obtain ⟨s, hs⟩ := hw.exists_socket family hfd
    refine ensures_bind (hp s hs) fun _ w' h => hk w' ?_ ?_
    · obtain ⟨s, s', hs, rfl, hdrop⟩ := h
      rw [hs, NetWorld.socket_setSocket, if_pos rfl]
      exact hdrop
    · obtain ⟨_, _, _, rfl, _⟩ := h
      exact fun g hg => by rw [NetWorld.socket_setSocket, if_neg (Ne.symm hg)]
  · next hfd =>
    refine hk w ?_ fun _ _ => rfl
    rw [hw.socket_eq_none family hfd]
    exact trivial

/-- The rollback and the retirement of memberships: first one family, then the other. -/
theorem ensures_dropBoth {sockets : MdnsSocketPair} {w : NetWorld} (hw : sockets.Agrees w)
    (keys : Family → List MembershipKey) (hne : ∀ k ∈ keys .ipv6, k ≠ 0) :
    Ensures (do
        if sockets.ipv4Fd then dropAll4 (keys .ipv4)
        if sockets.ipv6Fd then dropAll6 (keys .ipv6)) w fun _ w' =>
      ∀ f, OnSockets (Dropped (keys f)) (w.socket f) (w'.socket f) := by
  refine ensures_dropIf .ipv4 hw (fun s hs => dropAll4_spec hs) fun w₁ h4 hother4 => ?_
  have hw6 : w₁.socket .ipv6 = w.socket .ipv6 := hother4 .ipv6 (by decide)
  by_cases hfd : sockets.ipv6Fd = true
  · rw [if_pos hfd]
    obtain ⟨s, hs⟩ := hw.exists_socket .ipv6 hfd
    refine Prog.wp_mono (dropAll6_spec hne (hw6.trans hs)) ?_
    rintro _ w' ⟨s₁, s', hs₁, rfl, hdrop⟩ f
    cases f with
    | ipv4 => exact h4
    | ipv6 =>
      rw [← hw6, hs₁, NetWorld.socket_setSocket, if_pos rfl]
      exact hdrop
  · rw [if_neg hfd]
    intro f
    cases f with
    | ipv4 => exact h4
    | ipv6 =>
      rw [hw6, hw.socket_eq_none .ipv6 hfd]
      exact trivial

theorem ensures_closeIf {fd : Bool} {w : NetWorld} (family : Family) {α : Type} {k : Unit → NetM α}
    {Q : α → NetWorld → Prop}
    (hk : Ensures (k ()) (if fd then w.setSocket family none else w) Q) :
    Ensures (if fd then (closeMdnsSocket family).bind k else k ()) w Q := by
  cases fd with
  | false => exact hk
  | true => exact ensures_call fun _ => hk

/-- The world after the sockets of the marked families were closed. -/
def NetWorld.closed (w : NetWorld) (close : Family → Bool) : NetWorld :=
  let w := if close .ipv4 then w.setSocket .ipv4 none else w
  if close .ipv6 then w.setSocket .ipv6 none else w

theorem NetWorld.socket_closed (w : NetWorld) (close : Family → Bool) (family : Family) :
    (w.closed close).socket family = if close family then none else w.socket family := by
  unfold NetWorld.closed
  cases family <;> cases h4 : close .ipv4 <;> cases h6 : close .ipv6 <;> rfl

/-! ## The parts of a setup -/

def RuntimeSetup.need (s : RuntimeSetup) : Family → Bool
  | .ipv4 => s.needIpv4
  | .ipv6 => s.needIpv6

def RuntimeSetup.opened (s : RuntimeSetup) : Family → Bool
  | .ipv4 => s.openedIpv4
  | .ipv6 => s.openedIpv6

/-- What can be undone for a family: a socket that was opened was not there before, and one that was
there has only grown. -/
structure Undoable (family : Family) (old : List MembershipKey) (w₀ w : NetWorld)
    (s : RuntimeSetup) : Prop where
  fd_eq : s.sockets.fd family = (w.socket family).isSome
  joined_ne_zero : ∀ k ∈ s.delta.keys family, k ≠ 0
  opened : s.opened family = true → w₀.socket family = none
  kept : s.opened family = false →
    OnSockets (Grown family old (s.delta.keys family)) (w₀.socket family) (w.socket family)

/-- A family before its memberships are prepared. -/
structure Unprepared (family : Family) (w₀ w : NetWorld) (s : RuntimeSetup) : Prop where
  fd_eq : s.sockets.fd family = (w.socket family).isSome
  joined_nil : s.delta.keys family = []
  need_iff : s.need family = true ↔ s.newLinks.transportKeys family ≠ []
  opened : s.opened family = true →
    w₀.socket family = none ∧ w.socket family = some ⟨∅, ∅⟩
  kept : s.opened family = false → w.socket family = w₀.socket family

/-- A family after its memberships were prepared. -/
structure Served (family : Family) (old : List MembershipKey) (w₀ w : NetWorld)
    (s : RuntimeSetup) : Prop extends Undoable family old w₀ w s where
  needed_open : s.newLinks.transportKeys family ≠ [] → s.sockets.fd family = true
  served : ∀ k ∈ s.newLinks.transportKeys family, w.Serves family k
  bounded : s.newLinks.transportKeys family ≠ [] → ∀ t, w.socket family = some t →
    ∀ k ∈ t.memberships,
      k ∈ old ∨ k ∈ s.newLinks.transportKeys family ∨ IsKernelSelected family k ∨ k ∈ t.refused

theorem Unprepared.undoable {family : Family} {w₀ w : NetWorld} {s : RuntimeSetup}
    (h : Unprepared family w₀ w s) (old : List MembershipKey) : Undoable family old w₀ w s where
  fd_eq := h.fd_eq
  joined_ne_zero k hk := by
    rw [h.joined_nil] at hk
    cases hk
  opened hopened := (h.opened hopened).1
  kept hopened := by
    rw [h.kept hopened, h.joined_nil]
    exact .refl (fun s => .refl _ _ s) _

/-- Dropping what was joined on a socket that has only grown restores it. -/
theorem restored_of_dropped {family : Family} {links : LinkContextSet} {joined : List MembershipKey}
    {fd : Bool} {w₀ : NetWorld} {s₀ s₁ s₂ : KernelSocket} (h₀ : Settled family fd links w₀)
    (hs₀ : w₀.socket family = some s₀)
    (hgrown : Grown family (links.transportKeys family) joined s₀ s₁)
    (hdrop : Dropped joined.reverse s₁ s₂) :
    Restored family (links.transportKeys family) s₀ s₂ where
  refused_grows := hgrown.refused_eq ▸ hdrop.refused_grows
  same k hsel href := by
    constructor
    · intro hk
      rcases hgrown.bounded k (hdrop.shrinks hk) with h | h | h
      · exact h
      · exact absurd h hsel
      · exact absurd (hdrop.gone k (List.mem_reverse.mpr h) hk) href
    · intro hk
      refine hdrop.kept k (hgrown.grows hk) fun hjoined => ?_
      -- a joined key was not one of the links, so the kernel had refused to drop it before
      rcases h₀.bounded s₀ hs₀ k hk with h | h | h
      · exact (hgrown.fresh k (List.mem_reverse.mp hjoined)).2 h
      · exact hsel h
      · exact href (hdrop.refused_grows (hgrown.refused_eq ▸ h))
  needed_kept k hk hneeded := by
    refine hdrop.kept k (hgrown.grows hk) fun hjoined => ?_
    obtain ⟨hne, hnot⟩ := hgrown.fresh k (List.mem_reverse.mp hjoined)
    rcases hneeded with h | h
    · exact hnot h
    · cases family with
      | ipv4 => exact hne h
      | ipv6 => exact h

/-- The family is as it was: its socket is there as before, with its memberships restored. -/
def RestoredWorld (family : Family) (links : LinkContextSet) (w₀ w : NetWorld) : Prop :=
  OnSockets (Restored family (links.transportKeys family)) (w₀.socket family) (w.socket family)

theorem failRuntimeSetup_spec {sockets : MdnsSocketPair} {activeLinks : LinkContextSet}
    {w₀ w : NetWorld} {s : RuntimeSetup}
    (h₀ : ∀ f, Settled f (sockets.fd f) activeLinks w₀)
    (h : ∀ f, Undoable f (activeLinks.transportKeys f) w₀ w s) :
    Ensures (failRuntimeSetup s) w fun r w' =>
      r.1 = false ∧ ∀ f, r.2.1.fd f = (w₀.socket f).isSome ∧ RestoredWorld f activeLinks w₀ w' := by
  have hw : s.sockets.Agrees w := fun f => (h f).fd_eq
  unfold failRuntimeSetup rollbackMdnsMembershipDelta
  refine ensures_bind (ensures_dropBoth hw (fun f => (s.delta.keys f).reverse)
    fun k hk => (h .ipv6).joined_ne_zero k (List.mem_reverse.mp hk)) fun _ w₁ hdrop => ?_
  refine ensures_closeIf .ipv4 (ensures_closeIf .ipv6 ?_)
  refine ⟨rfl, fun f => ?_⟩
  have hclosed := NetWorld.socket_closed w₁ (fun f => s.opened f && s.sockets.fd f) f
  have hfd : (MdnsSocketPair.mk
      (s.sockets.ipv4Fd && !(s.openedIpv4 && s.sockets.ipv4Fd))
      (s.sockets.ipv6Fd && !(s.openedIpv6 && s.sockets.ipv6Fd))).fd f =
      (s.sockets.fd f && !(s.opened f && s.sockets.fd f)) := by
    cases f <;> rfl
  have hgoal : RestoredWorld f activeLinks w₀
      (w₁.closed fun f => s.opened f && s.sockets.fd f) ∧
      (s.sockets.fd f && !(s.opened f && s.sockets.fd f)) = (w₀.socket f).isSome := by
    unfold RestoredWorld
    rw [hclosed]
    cases hopened : s.opened f with
    | true =>
      rw [(h f).opened hopened]
      cases hopen : s.sockets.fd f with
      | true => exact ⟨trivial, rfl⟩
      | false =>
        have hnone := hdrop f
        rw [hw.socket_eq_none f (by simp [hopen])] at hnone
        refine ⟨?_, rfl⟩
        simp only [Bool.and_false, Bool.false_eq_true, if_false]
        cases hsock : w₁.socket f with
        | none => exact trivial
        | some _ => rw [hsock] at hnone; exact hnone.elim
    | false =>
      have hkept := (h f).kept hopened
      simp only [Bool.false_and, Bool.false_eq_true, if_false, Bool.not_false, Bool.and_true]
      refine ⟨?_, (h f).fd_eq.trans hkept.isSome_eq⟩
      cases hs₀ : w₀.socket f with
      | none =>
        have hsome := (hdrop f).isSome_eq.trans hkept.isSome_eq
        rw [hs₀] at hsome
        cases hs₁ : w₁.socket f with
        | none => exact trivial
        | some _ => rw [hs₁] at hsome; cases hsome
      | some s₀ =>
        obtain ⟨s₁, hs₁, hgrown⟩ := hkept.to_some hs₀
        obtain ⟨s₂, hs₂, hdropped⟩ := (hdrop f).to_some hs₁
        rw [hs₂]
        exact restored_of_dropped (h₀ f) hs₀ hgrown hdropped
  exact ⟨hfd.trans hgoal.2, hgoal.1⟩

/-! ### Opening the sockets -/

/-- Both families before their memberships are prepared. -/
structure Opening (w₀ w : NetWorld) (s : RuntimeSetup) : Prop where
  unprepared : ∀ f, Unprepared f w₀ w s
  valid : ValidLinks s.newLinks

theorem ValidLinks.disable4 {links : LinkContextSet} (h : ValidLinks links) :
    ValidLinks links.disableMdnsIpv4Transport.compact where
  addr_ne_zero link hlink := by
    obtain ⟨l, hl, rfl⟩ := List.mem_map.mp (List.mem_of_mem_filter hlink)
    exact h.addr_ne_zero l hl
  length_le := (List.length_filter_le _ _).trans (by
    rw [LinkContextSet.disableMdnsIpv4Transport, List.length_map]
    exact h.length_le)

theorem ValidLinks.disable6 {links : LinkContextSet} (h : ValidLinks links) :
    ValidLinks links.disableMdnsIpv6Transport.compact where
  addr_ne_zero link hlink := by
    obtain ⟨l, hl, rfl⟩ := List.mem_map.mp (List.mem_of_mem_filter hlink)
    exact h.addr_ne_zero l hl
  length_le := (List.length_filter_le _ _).trans (by
    rw [LinkContextSet.disableMdnsIpv6Transport, List.length_map]
    exact h.length_le)

theorem Unprepared.socket_eq_none {family : Family} {w₀ w : NetWorld} {s : RuntimeSetup}
    (h : Unprepared family w₀ w s) (hfd : s.sockets.fd family = false) :
    w.socket family = none := by
  rw [h.fd_eq, Option.isSome_eq_false_iff, Option.isNone_iff_eq_none] at hfd
  exact hfd

theorem openForNeed {need fd : Bool} (h : ¬ (need && !fd) = true) (hneed : need = true) :
    fd = true := by
  cases fd <;> simp_all

/-- An opened socket is a new one, without memberships. -/
def OpenedWorld (family : Family) (w : NetWorld) : Option Errno → NetWorld → Prop
  | none, w' => w' = w.setSocket family (some ⟨∅, ∅⟩)
  | some _, w' => w' = w

theorem ensures_openBound (family : Family) (sharedBind : Bool) (w : NetWorld) :
    Ensures (Prog.op (.openBound family sharedBind)) w (OpenedWorld family w) := by
  refine ensures_call fun fault => ?_
  cases fault with
  | none => exact rfl
  | some e => exact rfl

/-- A part of the setup went on with the families unprepared, or failed leaving them so. -/
def OpeningStep (w₀ : NetWorld) (needOpen : RuntimeSetup → Prop) (r : SetupOutcome × RuntimeSetup)
    (w : NetWorld) : Prop :=
  r.1 ≠ .done ∧ Opening w₀ w r.2 ∧ (r.1 = .next → needOpen r.2)

theorem openIpv4ForLinks_spec {w₀ w : NetWorld} {s : RuntimeSetup} (sharedBind : Bool)
    (h : Opening w₀ w s) (hopened : s.openedIpv4 = false) :
    Ensures (openIpv4ForLinks sharedBind s) w
      (OpeningStep w₀ fun s' => s'.openedIpv6 = s.openedIpv6 ∧
        (s'.need .ipv4 = true → s'.sockets.fd .ipv4 = true)) := by
  have h4 := h.unprepared .ipv4
  have h6 := h.unprepared .ipv6
  unfold openIpv4ForLinks
  simp only [Prog.bind_eq, Prog.pure_eq]
  by_cases hneed : (s.needIpv4 && !s.sockets.ipv4Fd) = true
  · rw [if_pos hneed]
    simp only [Bool.and_eq_true, Bool.not_eq_true'] at hneed
    have hnone : w.socket .ipv4 = none := h4.socket_eq_none hneed.2
    refine ensures_bind (ensures_openBound .ipv4 sharedBind w) fun e w' he => ?_
    cases e with
    | none =>
      obtain rfl := he
      refine ⟨by simp, ⟨fun f => ?_, h.valid⟩, fun _ => ⟨rfl, fun _ => rfl⟩⟩
      cases f with
      | ipv4 =>
        refine ⟨rfl, h4.joined_nil, h4.need_iff, fun _ => ⟨?_, rfl⟩, by simp [RuntimeSetup.opened]⟩
        rw [← h4.kept hopened, hnone]
      | ipv6 => exact ⟨h6.fd_eq, h6.joined_nil, h6.need_iff, h6.opened, h6.kept⟩
    | some e =>
      obtain rfl := he
      dsimp only
      split
      · refine ⟨by simp, ⟨fun f => ?_, h.valid.disable4⟩, fun _ => ⟨rfl, by simp [RuntimeSetup.need]⟩⟩
        obtain ⟨hkeys4, hkeys6⟩ := transportKeys_disable4 s.newLinks
        cases f with
        | ipv4 =>
          refine ⟨h4.fd_eq, h4.joined_nil, ?_, h4.opened, h4.kept⟩
          rw [transportKeys_compact, hkeys4]
          exact ⟨by simp [RuntimeSetup.need], fun h => absurd rfl h⟩
        | ipv6 =>
          refine ⟨h6.fd_eq, h6.joined_nil, ?_, h6.opened, h6.kept⟩
          rw [transportKeys_compact, hkeys6]
          exact h6.need_iff
      · exact ⟨by simp, h, by simp⟩
  · rw [if_neg hneed]
    exact ⟨by simp, h, fun _ => ⟨rfl, openForNeed hneed⟩⟩

theorem openIpv6ForLinks_spec {w₀ w : NetWorld} {s : RuntimeSetup} (sharedBind : Bool)
    (h : Opening w₀ w s) (hopened : s.openedIpv6 = false)
    (hopen4 : s.need .ipv4 = true → s.sockets.fd .ipv4 = true) :
    Ensures (openIpv6ForLinks sharedBind s) w
      (OpeningStep w₀ fun s' => ∀ f, s'.need f = true → s'.sockets.fd f = true) := by
  have h4 := h.unprepared .ipv4
  have h6 := h.unprepared .ipv6
  unfold openIpv6ForLinks
  simp only [Prog.bind_eq, Prog.pure_eq]
  by_cases hneed : (s.needIpv6 && !s.sockets.ipv6Fd) = true
  · rw [if_pos hneed]
    simp only [Bool.and_eq_true, Bool.not_eq_true'] at hneed
    have hnone : w.socket .ipv6 = none := h6.socket_eq_none hneed.2
    refine ensures_bind (ensures_openBound .ipv6 sharedBind w) fun e w' he => ?_
    cases e with
    | none =>
      obtain rfl := he
      refine ⟨by simp, ⟨fun f => ?_, h.valid⟩, fun _ f hn => ?_⟩
      · cases f with
        | ipv4 => exact ⟨h4.fd_eq, h4.joined_nil, h4.need_iff, h4.opened, h4.kept⟩
        | ipv6 =>
          refine ⟨rfl, h6.joined_nil, h6.need_iff, fun _ => ⟨?_, rfl⟩, by simp [RuntimeSetup.opened]⟩
          rw [← h6.kept hopened, hnone]
      · cases f with
        | ipv4 => exact hopen4 hn
        | ipv6 => rfl
    | some e =>
      obtain rfl := he
      dsimp only
      split
      · refine ⟨by simp, ⟨fun f => ?_, h.valid.disable6⟩, fun _ f hn => ?_⟩
        · obtain ⟨hkeys6, hkeys4⟩ := transportKeys_disable6 s.newLinks
          cases f with
          | ipv4 =>
            refine ⟨h4.fd_eq, h4.joined_nil, ?_, h4.opened, h4.kept⟩
            rw [transportKeys_compact, hkeys4]
            exact h4.need_iff
          | ipv6 =>
            refine ⟨h6.fd_eq, h6.joined_nil, ?_, h6.opened, h6.kept⟩
            rw [transportKeys_compact, hkeys6]
            exact ⟨by simp [RuntimeSetup.need], fun h => absurd rfl h⟩
        · cases f with
          | ipv4 => exact hopen4 hn
          | ipv6 => simp [RuntimeSetup.need] at hn
      · exact ⟨by simp, h, by simp⟩
  · rw [if_neg hneed]
    refine ⟨by simp, h, fun _ f hn => ?_⟩
    cases f with
    | ipv4 => exact hopen4 hn
    | ipv6 => exact openForNeed hneed hn

/-! ### Preparing the memberships -/

/-- The old links count only where the socket was not just opened. -/
theorem Unprepared.oldServed {family : Family} {fd : Bool} {activeLinks : LinkContextSet}
    {w₀ w : NetWorld} {s : RuntimeSetup} (h : Unprepared family w₀ w s)
    (h₀ : Settled family fd activeLinks w₀) (hopen : s.sockets.fd family = true) :
    OldServed family
      (oldKeys (if s.opened family then none else some activeLinks) family) w := by
  refine ⟨Option.isSome_iff_exists.mp (h.fd_eq.symm.trans hopen), ?_⟩
  cases hopened : s.opened family with
  | true => exact nofun
  | false =>
    intro k hk
    obtain ⟨t, ht, hserves⟩ := h₀.served k hk
    exact ⟨t, (h.kept hopened).trans ht, hserves⟩

/-- What preparing leaves of a family: it can be undone, and its links are served. -/
theorem Unprepared.prepared {family : Family} {fd : Bool} {activeLinks links' : LinkContextSet}
    {joined : List MembershipKey} {w₀ w w' : NetWorld} {s : RuntimeSetup}
    (h : Unprepared family w₀ w s) (h₀ : Settled family fd activeLinks w₀)
    (hprep : LinksPrepared family
      (oldKeys (if s.opened family then none else some activeLinks) family) joined w w'
      s.newLinks links') :
    Undoable family (activeLinks.transportKeys family) w₀ w'
        { s with newLinks := links', delta := s.delta.extend family joined } ∧
      ∀ t, w'.socket family = some t → ∀ k ∈ t.memberships,
        k ∈ activeLinks.transportKeys family ∨ k ∈ links'.transportKeys family ∨
          IsKernelSelected family k ∨ k ∈ t.refused := by
  obtain ⟨s₁, s₂, hs₁, rfl, hgrown⟩ := hprep.grown
  have hkeys : (s.delta.extend family joined).keys family = joined := by
    rw [MembershipDelta.extend_keys, if_pos rfl, h.joined_nil, List.nil_append]
  refine ⟨⟨?_, ?_, fun hopened => (h.opened hopened).1, fun hopened => ?_⟩, ?_⟩
  · rw [NetWorld.socket_setSocket, if_pos rfl]
    exact h.fd_eq.trans (by rw [hs₁]; rfl)
  · rw [hkeys]
    exact fun k hk => (hgrown.fresh k hk).1
  · rw [NetWorld.socket_setSocket, if_pos rfl, hkeys, ← h.kept hopened, hs₁]
    have hopened' : s.opened family = false := hopened
    rw [hopened'] at hgrown
    exact hgrown
  · intro t ht k hk
    rw [NetWorld.socket_setSocket, if_pos rfl, Option.some.injEq] at ht
    subst ht
    rcases hgrown.bounded k hk with hmem | hsel | hjoined
    · cases hopened : s.opened family with
      | true =>
        rw [(h.opened hopened).2, Option.some.injEq] at hs₁
        subst hs₁
        exact absurd hmem (Finset.notMem_empty k)
      | false =>
        have hs₀ : w₀.socket family = some s₁ := (h.kept hopened).symm.trans hs₁
        rcases h₀.bounded s₁ hs₀ k hmem with h | h | h
        · exact Or.inl h
        · exact Or.inr (Or.inr (Or.inl h))
        · exact Or.inr (Or.inr (Or.inr (hgrown.refused_eq ▸ h)))
    · exact Or.inr (Or.inr (Or.inl hsel))
    · exact Or.inr (Or.inl (hprep.recorded k hjoined))

/-- A family none of whose links has a transport any more. -/
theorem Undoable.unneeded {family : Family} {old : List MembershipKey} {w₀ w : NetWorld}
    {s : RuntimeSetup} (h : Undoable family old w₀ w s)
    (hkeys : s.newLinks.transportKeys family = []) : Served family old w₀ w s where
  toUndoable := h
  needed_open hn := absurd hkeys hn
  served k hk := by
    rw [hkeys] at hk
    cases hk
  bounded hn := absurd hkeys hn

/-- Only the keys of the links count, not which links have them. -/
theorem Served.of_links {family : Family} {old : List MembershipKey} {w₀ w : NetWorld}
    {s : RuntimeSetup} (h : Served family old w₀ w s) {links : LinkContextSet}
    (hkeys : links.transportKeys family = s.newLinks.transportKeys family) :
    Served family old w₀ w { s with newLinks := links } where
  toUndoable := ⟨h.fd_eq, h.joined_ne_zero, h.opened, h.kept⟩
  needed_open hn := h.needed_open (hkeys ▸ hn)
  served k hk := h.served k (hkeys ▸ hk)
  bounded hn t ht k hk := by
    have hb := h.bounded (fun hnil => hn (hkeys.trans hnil)) t ht k hk
    rwa [← hkeys] at hb

theorem socket_setSocket_ne {w : NetWorld} {family g : Family} {s : Option KernelSocket}
    (h : g ≠ family) : (w.setSocket family s).socket g = w.socket g := by
  rw [NetWorld.socket_setSocket, if_neg (Ne.symm h)]

theorem GrownWorld.other {family g : Family} {old joined : List MembershipKey} {w w' : NetWorld}
    (h : GrownWorld family old joined w w') (hg : g ≠ family) : w'.socket g = w.socket g := by
  obtain ⟨_, _, _, rfl, _⟩ := h
  exact socket_setSocket_ne hg

/-- One family is served, the other is still to be prepared. -/
structure HalfPrepared (activeLinks : LinkContextSet) (w₀ w : NetWorld) (s : RuntimeSetup) :
    Prop where
  served : Served .ipv4 (activeLinks.transportKeys .ipv4) w₀ w s
  unprepared : Unprepared .ipv6 w₀ w s
  needed_open : s.need .ipv6 = true → s.sockets.fd .ipv6 = true
  length_le : s.newLinks.length ≤ maxIfaceContexts

theorem prepareIpv4ForLinks_spec {sockets : MdnsSocketPair} {activeLinks : LinkContextSet}
    {w₀ w : NetWorld} {s : RuntimeSetup} (h₀ : ∀ f, Settled f (sockets.fd f) activeLinks w₀)
    (h : Opening w₀ w s) (hopen : ∀ f, s.need f = true → s.sockets.fd f = true) :
    Ensures (prepareIpv4ForLinks activeLinks s) w fun r w' =>
      r.1 ≠ .done ∧
      (r.1 = .fail → ∀ f, Undoable f (activeLinks.transportKeys f) w₀ w' r.2) ∧
      (r.1 = .next → HalfPrepared activeLinks w₀ w' r.2) := by
  have h4 := h.unprepared .ipv4
  have h6 := h.unprepared .ipv6
  unfold prepareIpv4ForLinks
  simp only [Prog.bind_eq, Prog.pure_eq]
  by_cases hneed : s.needIpv4 = true
  · rw [if_pos hneed]
    refine ensures_bind (prepareMdnsSocket4Memberships_spec (some s.delta)
      h.valid.addr_ne_zero ?_ (h4.oldServed (h₀ .ipv4) (hopen .ipv4 hneed))) ?_
    · intro d hd
      obtain rfl := Option.some.inj hd
      rw [h4.joined_nil]
      simpa using h.valid.length_le
    rintro ⟨error, links', _⟩ w₁ ⟨joined, rfl, hprep, hkeys⟩
    dsimp only at hprep hkeys
    obtain ⟨hundo, hbounded⟩ := h4.prepared (h₀ .ipv4) hprep
    have hlen : links'.length ≤ maxIfaceContexts := hprep.length_le.trans h.valid.length_le
    have hsock6 : w₁.socket .ipv6 = w.socket .ipv6 := hprep.grown.other (by decide)
    have hunprep6 : Unprepared .ipv6 w₀ w₁
        { s with newLinks := links', delta := s.delta.extend .ipv4 joined } := by
      refine ⟨hsock6 ▸ h6.fd_eq, h6.joined_nil, ?_, hsock6 ▸ h6.opened, hsock6 ▸ h6.kept⟩
      rw [hprep.others .ipv6 (by decide)]
      exact h6.need_iff
    cases error with
    | none =>
      exact ⟨by simp, by simp, fun _ => ⟨⟨hundo, fun _ => hopen .ipv4 hneed, fun k hk =>
        (hprep.served k hk).2, fun _ => hbounded⟩, hunprep6, hopen .ipv6, hlen⟩⟩
    | some e =>
      dsimp only [Option.map_some, Option.getD_some]
      obtain ⟨hgone, hsame⟩ := transportKeys_disable4 links'
      split
      · -- the other family goes on alone
        have hlen' : links'.disableMdnsIpv4Transport.length ≤ maxIfaceContexts := by
          rwa [LinkContextSet.disableMdnsIpv4Transport, List.length_map]
        split
        · next hopened =>
          rw [Bool.and_eq_true] at hopened
          refine ensures_call fun _ => ⟨by simp, by simp, fun _ => ⟨?_, ?_, hopen .ipv6, hlen'⟩⟩
          · refine Undoable.unneeded ⟨rfl, hundo.joined_ne_zero, hundo.opened, fun hnot => ?_⟩ hgone
            exact absurd (hopened.1.symm.trans hnot) (by simp)
          · refine ⟨hunprep6.fd_eq, hunprep6.joined_nil, ?_, hunprep6.opened, hunprep6.kept⟩
            rw [hsame]
            exact hunprep6.need_iff
        · refine ⟨by simp, by simp, fun _ => ⟨?_, ?_, hopen .ipv6, hlen'⟩⟩
          · exact Undoable.unneeded ⟨hundo.fd_eq, hundo.joined_ne_zero, hundo.opened, hundo.kept⟩
              hgone
          · refine ⟨hunprep6.fd_eq, hunprep6.joined_nil, ?_, hunprep6.opened, hunprep6.kept⟩
            rw [hsame]
            exact hunprep6.need_iff
      · refine ⟨by simp, fun _ f => ?_, by simp⟩
        cases f with
        | ipv4 => exact hundo
        | ipv6 => exact hunprep6.undoable _
  · rw [if_neg hneed]
    have hkeys : s.newLinks.transportKeys .ipv4 = [] := by
      by_contra hne
      exact hneed (h4.need_iff.mpr hne)
    exact ⟨by simp, by simp, fun _ => ⟨(h4.undoable _).unneeded hkeys, h6, hopen .ipv6,
      h.valid.length_le⟩⟩

theorem prepareIpv6ForLinks_spec {sockets : MdnsSocketPair} {activeLinks : LinkContextSet}
    {w₀ w : NetWorld} {s : RuntimeSetup} (h₀ : ∀ f, Settled f (sockets.fd f) activeLinks w₀)
    (h : HalfPrepared activeLinks w₀ w s) :
    Ensures (prepareIpv6ForLinks activeLinks s) w fun r w' =>
      (r.1 = .fail → ∀ f, Undoable f (activeLinks.transportKeys f) w₀ w' r.2) ∧
      (r.1 ≠ .fail → ∀ f, Served f (activeLinks.transportKeys f) w₀ w' r.2) := by
  have h4 := h.served
  have h6 := h.unprepared
  unfold prepareIpv6ForLinks
  simp only [Prog.bind_eq, Prog.pure_eq]
  by_cases hneed : s.needIpv6 = true
  · rw [if_pos hneed]
    refine ensures_bind (prepareMdnsSocket6Memberships_spec (some s.delta)
      ?_ (h6.oldServed (h₀ .ipv6) (h.needed_open hneed))) ?_
    · intro d hd
      obtain rfl := Option.some.inj hd
      rw [h6.joined_nil]
      simpa using h.length_le
    rintro ⟨error, links', _⟩ w₁ ⟨joined, rfl, hprep, hkeys⟩
    dsimp only at hprep hkeys
    obtain ⟨hundo, hbounded⟩ := h6.prepared (h₀ .ipv6) hprep
    have hsock4 : w₁.socket .ipv4 = w.socket .ipv4 := hprep.grown.other (by decide)
    have hserves4 : ∀ k, w.Serves .ipv4 k → w₁.Serves .ipv4 k := by
      rintro k ⟨t, ht, hk⟩
      exact ⟨t, hsock4.trans ht, hk⟩
    have hundo4 : Undoable .ipv4 (activeLinks.transportKeys .ipv4) w₀ w₁
        { s with newLinks := links', delta := s.delta.extend .ipv6 joined } :=
      ⟨hsock4 ▸ h4.fd_eq, h4.joined_ne_zero, h4.opened, hsock4 ▸ h4.kept⟩
    have hserved4 : Served .ipv4 (activeLinks.transportKeys .ipv4) w₀ w₁
        { s with newLinks := links', delta := s.delta.extend .ipv6 joined } := by
      have hothers := hprep.others .ipv4 (by decide)
      refine ⟨hundo4, fun hn => h4.needed_open (hothers ▸ hn), fun k hk => ?_,
        fun hn t ht k hk => ?_⟩
      · rw [hothers] at hk
        exact hserves4 k (h4.served k hk)
      · rw [hothers]
        exact h4.bounded (hothers ▸ hn) t (hsock4 ▸ ht) k hk
    cases error with
    | none =>
      refine ⟨by simp, fun _ f => ?_⟩
      cases f with
      | ipv4 => exact hserved4
      | ipv6 =>
        exact ⟨hundo, fun _ => h.needed_open hneed, fun k hk => (hprep.served k hk).2,
          fun _ => hbounded⟩
    | some e =>
      dsimp only [Option.map_some, Option.getD_some]
      obtain ⟨hgone, hsame⟩ := transportKeys_disable6 links'
      have hgone' := (transportKeys_compact links'.disableMdnsIpv6Transport .ipv6).trans hgone
      have hsame' := (transportKeys_compact links'.disableMdnsIpv6Transport .ipv4).trans hsame
      have hserved4' := hserved4.of_links hsame'
      split
      · -- the IPv4 family goes on alone
        split
        · next hopened =>
          rw [Bool.and_eq_true] at hopened
          refine ensures_call fun _ => ⟨by simp, fun _ f => ?_⟩
          cases f with
          | ipv4 =>
            exact ⟨⟨hserved4'.fd_eq, hserved4'.joined_ne_zero, hserved4'.opened, hserved4'.kept⟩,
              hserved4'.needed_open, hserved4'.served, hserved4'.bounded⟩
          | ipv6 =>
            refine Undoable.unneeded ⟨rfl, hundo.joined_ne_zero, hundo.opened, fun hnot => ?_⟩ hgone'
            exact absurd (hopened.1.symm.trans hnot) (by simp)
        · refine ⟨by simp, fun _ f => ?_⟩
          cases f with
          | ipv4 => exact hserved4'
          | ipv6 =>
            exact Undoable.unneeded ⟨hundo.fd_eq, hundo.joined_ne_zero, hundo.opened, hundo.kept⟩
              hgone'
      · refine ⟨fun _ f => ?_, fun h => absurd rfl h⟩
        cases f with
        | ipv4 => exact hundo4
        | ipv6 => exact hundo
  · rw [if_neg hneed]
    have hkeys : s.newLinks.transportKeys .ipv6 = [] := by
      by_contra hne
      exact hneed (h6.need_iff.mpr hne)
    refine ⟨by simp, fun _ f => ?_⟩
    cases f with
    | ipv4 => exact h4
    | ipv6 => exact (h6.undoable _).unneeded hkeys

/-! ### The whole setup -/

/-- Where a setup ends: the links are served, or everything is as it was. -/
def SetUp (activeLinks : LinkContextSet) (w₀ : NetWorld)
    (r : Bool × MdnsSocketPair × LinkContextSet) (w : NetWorld) : Prop :=
  if r.1 then
    ∃ s : RuntimeSetup, s.sockets = r.2.1 ∧ s.newLinks = r.2.2 ∧
      ∀ f, Served f (activeLinks.transportKeys f) w₀ w s
  else ∀ f, r.2.1.fd f = (w₀.socket f).isSome ∧ RestoredWorld f activeLinks w₀ w

section Setup

variable {sockets : MdnsSocketPair} {activeLinks : LinkContextSet} {w₀ w : NetWorld}
  {s : RuntimeSetup}

theorem failRuntimeSetup_setUp (h₀ : ∀ f, Settled f (sockets.fd f) activeLinks w₀)
    (h : ∀ f, Undoable f (activeLinks.transportKeys f) w₀ w s) :
    Ensures (failRuntimeSetup s) w (SetUp activeLinks w₀) := by
  refine Prog.wp_mono (failRuntimeSetup_spec h₀ h) ?_
  rintro ⟨ok, pair, links⟩ w' ⟨rfl, hfail⟩
  exact hfail

theorem finishRuntimeSetup_spec (h₀ : ∀ f, Settled f (sockets.fd f) activeLinks w₀)
    (h : ∀ f, Served f (activeLinks.transportKeys f) w₀ w s) :
    Ensures (finishRuntimeSetup s) w (SetUp activeLinks w₀) := by
  have hserved : ∀ f, Served f (activeLinks.transportKeys f) w₀ w
      { s with newLinks := s.newLinks.compact } := fun f =>
    (h f).of_links (transportKeys_compact s.newLinks f)
  unfold finishRuntimeSetup
  dsimp only
  split
  · exact failRuntimeSetup_setUp h₀ fun f => (hserved f).toUndoable
  · exact ⟨{ s with newLinks := s.newLinks.compact }, rfl, rfl, hserved⟩

/-- The parts in their order; each one hands on what the next one needs. -/
theorem runSetup_spec (sharedBind : Bool) (h₀ : ∀ f, Settled f (sockets.fd f) activeLinks w₀)
    (h : Opening w₀ w s) (hopened4 : s.openedIpv4 = false) (hopened6 : s.openedIpv6 = false) :
    Ensures (runSetup s [openIpv4ForLinks sharedBind, openIpv6ForLinks sharedBind,
      prepareIpv4ForLinks activeLinks, prepareIpv6ForLinks activeLinks]) w
      (SetUp activeLinks w₀) := by
  unfold runSetup
  refine ensures_bind (openIpv4ForLinks_spec sharedBind h hopened4) ?_
  rintro ⟨o₁, s₁⟩ w₁ ⟨hdone, h₁, hneed₁⟩
  cases o₁ with
  | done => exact absurd rfl hdone
  | fail => exact failRuntimeSetup_setUp h₀ fun f => (h₁.unprepared f).undoable _
  | next =>
    obtain ⟨hopened₁, hopen₁⟩ := hneed₁ rfl
    unfold runSetup
    refine ensures_bind (openIpv6ForLinks_spec sharedBind h₁ (hopened₁.trans hopened6) hopen₁) ?_
    rintro ⟨o₂, s₂⟩ w₂ ⟨hdone, h₂, hneed₂⟩
    cases o₂ with
    | done => exact absurd rfl hdone
    | fail => exact failRuntimeSetup_setUp h₀ fun f => (h₂.unprepared f).undoable _
    | next =>
      unfold runSetup
      refine ensures_bind (prepareIpv4ForLinks_spec h₀ h₂ (hneed₂ rfl)) ?_
      rintro ⟨o₃, s₃⟩ w₃ ⟨hdone, hfail, hnext⟩
      cases o₃ with
      | done => exact absurd rfl hdone
      | fail => exact failRuntimeSetup_setUp h₀ (hfail rfl)
      | next =>
        unfold runSetup
        refine ensures_bind (prepareIpv6ForLinks_spec h₀ (hnext rfl)) ?_
        rintro ⟨o₄, s₄⟩ w₄ ⟨hfail, hserved⟩
        cases o₄ with
        | fail => exact failRuntimeSetup_setUp h₀ (hfail rfl)
        | done => exact ⟨s₄, rfl, rfl, hserved (by simp)⟩
        | next => exact finishRuntimeSetup_spec h₀ (hserved (by simp))

theorem prepareRuntimeMdnsSocketsForLinks_spec (sharedBind : Bool) {newLinks : LinkContextSet}
    (h₀ : ∀ f, Settled f (sockets.fd f) activeLinks w₀) (hnew : ValidLinks newLinks) :
    Ensures (prepareRuntimeMdnsSocketsForLinks sharedBind sockets activeLinks newLinks) w₀
      (SetUp activeLinks w₀) := by
  unfold prepareRuntimeMdnsSocketsForLinks
  dsimp only
  split
  · refine fun f => ⟨(h₀ f).fd_eq, .refl (fun s => ?_) _⟩
    exact ⟨Finset.Subset.refl _, fun _ _ _ => Iff.rfl, fun _ hk _ => hk⟩
  · refine runSetup_spec sharedBind h₀ ⟨fun f => ⟨(h₀ f).fd_eq, ?_, ?_, ?_, fun _ => rfl⟩, hnew⟩
      rfl rfl
    · cases f <;> rfl
    · cases f with
      | ipv4 => exact needIpv4Socket_iff
      | ipv6 => exact needIpv6Socket_iff
    · cases f <;> exact nofun

/-! ## Retiring what is not needed -/

/-- The keys of the old links that no new link has. -/
def retiredKeys (oldLinks newLinks : LinkContextSet) : Family → List MembershipKey
  | .ipv4 => ((oldLinks.filter (·.hasMdnsIpv4Transport)).map linkPreferredIpv4Source).filter
      fun addr => addr ≠ 0 && !linkSetHasIpv4Membership (some newLinks) addr
  | .ipv6 => ((oldLinks.filter (·.hasMdnsIpv6Transport)).map (·.ifindex)).filter
      fun ifindex => !linkSetHasIpv6Membership (some newLinks) ifindex

theorem filter_map_eq_transportKeys (links : LinkContextSet) :
    (links.filter (·.hasMdnsIpv4Transport)).map linkPreferredIpv4Source =
        links.transportKeys .ipv4 ∧
      (links.filter (·.hasMdnsIpv6Transport)).map (·.ifindex) = links.transportKeys .ipv6 := by
  induction links with
  | nil => exact ⟨rfl, rfl⟩
  | cons link rest ih =>
    rw [transportKeys_cons, transportKeys_cons, ← ih.1, ← ih.2]
    constructor
    · cases h : link.hasMdnsIpv4Transport <;> simp [LinkContext.transportKey, h]
    · cases h : link.hasMdnsIpv6Transport <;> simp [LinkContext.transportKey, h]

theorem mem_retiredKeys {oldLinks newLinks : LinkContextSet} {family : Family}
    {k : MembershipKey} : k ∈ retiredKeys oldLinks newLinks family ↔
      k ∈ oldLinks.transportKeys family ∧ ¬ IsKernelSelected family k ∧
        k ∉ newLinks.transportKeys family := by
  cases family with
  | ipv4 =>
    unfold retiredKeys
    rw [(filter_map_eq_transportKeys oldLinks).1, List.mem_filter, Bool.and_eq_true,
      Bool.not_eq_true', ← Bool.not_eq_true, linkSetHasIpv4Membership_iff, decide_eq_true_iff]
    rfl
  | ipv6 =>
    unfold retiredKeys
    rw [(filter_map_eq_transportKeys oldLinks).2, List.mem_filter, Bool.not_eq_true',
      ← Bool.not_eq_true, linkSetHasIpv6Membership_iff]
    simp [IsKernelSelected]

theorem retiredKeys_ipv6_ne_zero {oldLinks newLinks : LinkContextSet} :
    ∀ k ∈ retiredKeys oldLinks newLinks .ipv6, k ≠ 0 := by
  intro k hk
  have hkey := (mem_retiredKeys.mp hk).1
  rw [← (filter_map_eq_transportKeys oldLinks).2] at hkey
  obtain ⟨link, hlink, rfl⟩ := List.mem_map.mp hkey
  exact ifindex_ne_zero (List.mem_filter.mp hlink).2

/-- What serves the new links is not retired; what is left is theirs, kernel-selected or refused. -/
theorem Served.settled {family : Family} (h : Served family (activeLinks.transportKeys family) w₀ w s)
    {w' : NetWorld} {fd : Bool}
    (hdrop : OnSockets (Dropped (retiredKeys activeLinks s.newLinks family)) (w.socket family)
      (w'.socket family))
    (hneeded : s.newLinks.transportKeys family ≠ []) (hfd : fd = s.sockets.fd family) :
    Settled family fd s.newLinks w' where
  fd_eq := by rw [hfd, h.fd_eq, hdrop.isSome_eq]
  open_iff := by
    rw [hfd]
    exact ⟨fun _ => hneeded, h.needed_open⟩
  served k hk := by
    obtain ⟨t, ht, hserves⟩ := h.served k hk
    obtain ⟨t', ht', hd⟩ := hdrop.to_some ht
    refine ⟨t', ht', ?_⟩
    rcases hserves with hmem | ⟨j, hmem, hsel⟩
    · exact Or.inl (hd.kept k hmem fun hr => (mem_retiredKeys.mp hr).2.2 hk)
    · exact Or.inr ⟨j, hd.kept j hmem fun hr => (mem_retiredKeys.mp hr).2.1 hsel, hsel⟩
  bounded t' ht' k hk := by
    obtain ⟨t, ht, hd⟩ := hdrop.of_some ht'
    rcases h.bounded hneeded t ht k (hd.shrinks hk) with hold | hnew | hsel | href
    · by_cases hnew : k ∈ s.newLinks.transportKeys family
      · exact Or.inl hnew
      · by_cases hsel : IsKernelSelected family k
        · exact Or.inr (Or.inl hsel)
        · exact Or.inr (Or.inr (hd.gone k (mem_retiredKeys.mpr ⟨hold, hsel, hnew⟩) hk))
    · exact Or.inl hnew
    · exact Or.inr (Or.inl hsel)
    · exact Or.inr (Or.inr (hd.refused_grows href))

end Setup

theorem Settled.closed {family : Family} {links : LinkContextSet} {w : NetWorld}
    (hkeys : links.transportKeys family = []) (hsock : w.socket family = none) :
    Settled family false links w where
  fd_eq := by rw [hsock]; rfl
  open_iff := ⟨nofun, fun h => absurd hkeys h⟩
  served k hk := by
    rw [hkeys] at hk
    cases hk
  bounded t ht := by
    rw [hsock] at ht
    cases ht

/-- A family restored for the active links is settled on them as before. -/
theorem Settled.restored {family : Family} {fd : Bool} {links : LinkContextSet} {w w' : NetWorld}
    (h : Settled family fd links w) (hr : RestoredWorld family links w w') :
    Settled family fd links w' where
  fd_eq := h.fd_eq.trans hr.isSome_eq.symm
  open_iff := h.open_iff
  served k hk := by
    obtain ⟨t, ht, hserves⟩ := h.served k hk
    obtain ⟨t', ht', hrest⟩ := hr.to_some ht
    refine ⟨t', ht', ?_⟩
    rcases hserves with hmem | ⟨j, hmem, hsel⟩
    · exact Or.inl (hrest.needed_kept k hmem (Or.inl hk))
    · exact Or.inr ⟨j, hrest.needed_kept j hmem (Or.inr hsel), hsel⟩
  bounded t' ht' k hk := by
    obtain ⟨t, ht, hrest⟩ := hr.of_some ht'
    by_cases hsel : IsKernelSelected family k
    · exact Or.inr (Or.inl hsel)
    · by_cases href : k ∈ t'.refused
      · exact Or.inr (Or.inr href)
      · rcases h.bounded t ht k ((hrest.same k hsel href).mp hk) with hkey | hsel' | href'
        · exact Or.inl hkey
        · exact Or.inr (Or.inl hsel')
        · exact Or.inr (Or.inr (hrest.refused_grows href'))

theorem Settled.congr {family : Family} {fd : Bool} {links : LinkContextSet} {w w' : NetWorld}
    (h : Settled family fd links w) (hw : w'.socket family = w.socket family) :
    Settled family fd links w' where
  fd_eq := hw ▸ h.fd_eq
  open_iff := h.open_iff
  served k hk := by
    obtain ⟨t, ht, hserves⟩ := h.served k hk
    exact ⟨t, hw.trans ht, hserves⟩
  bounded t ht := h.bounded t (hw.symm.trans ht)

def LinkContextSet.needSocket (links : LinkContextSet) : Family → Bool
  | .ipv4 => links.needIpv4Socket
  | .ipv6 => links.needIpv6Socket

theorem needSocket_iff {links : LinkContextSet} {family : Family} :
    links.needSocket family = true ↔ links.transportKeys family ≠ [] := by
  cases family with
  | ipv4 => exact needIpv4Socket_iff
  | ipv6 => exact needIpv6Socket_iff

theorem closeUnused_spec (sockets : MdnsSocketPair) (links : LinkContextSet) {w : NetWorld}
    (h : ∀ f, links.transportKeys f ≠ [] → Settled f (sockets.fd f) links w)
    (hfd : ∀ f, sockets.fd f = (w.socket f).isSome) :
    Ensures (closeUnusedRuntimeMdnsSocketFamilies sockets links) w fun sockets' w' =>
      ∀ f, Settled f (sockets'.fd f) links w' := by
  unfold closeUnusedRuntimeMdnsSocketFamilies
  refine ensures_closeIf .ipv4 (ensures_closeIf .ipv6 fun f => ?_)
  have hpair : (MdnsSocketPair.mk
      (sockets.ipv4Fd && !(!links.needIpv4Socket && sockets.ipv4Fd))
      (sockets.ipv6Fd && !(!links.needIpv6Socket && sockets.ipv6Fd))).fd f =
      (sockets.fd f && !(!links.needSocket f && sockets.fd f)) := by
    cases f <;> rfl
  have hclosed := NetWorld.socket_closed w (fun f => !links.needSocket f && sockets.fd f) f
  change Settled f _ links (w.closed fun f => !links.needSocket f && sockets.fd f)
  rw [hpair]
  cases hneed : links.needSocket f with
  | true =>
    rw [hneed] at hclosed
    simp only [Bool.not_true, Bool.false_and, Bool.not_false, Bool.and_true]
    exact (h f (needSocket_iff.mp hneed)).congr hclosed
  | false =>
    have hkeys : links.transportKeys f = [] := by
      by_contra hne
      rw [needSocket_iff.mpr hne] at hneed
      cases hneed
    rw [hneed] at hclosed
    simp only [Bool.not_false, Bool.true_and, Bool.and_not_self] at hclosed ⊢
    refine .closed hkeys (hclosed.trans ?_)
    split
    · rfl
    · next hclose =>
      rwa [hfd f, Option.not_isSome_iff_eq_none] at hclose

/-- A link change settles the sockets on the links it applied, or leaves sockets, links and
memberships as they were. -/
theorem applyRuntimeLinkChange_spec {sockets : MdnsSocketPair} {activeLinks newLinks : LinkContextSet}
    {w : NetWorld} (sharedBind : Bool) (h : ∀ f, Settled f (sockets.fd f) activeLinks w)
    (hnew : ValidLinks newLinks) :
    Ensures (applyRuntimeLinkChange sharedBind sockets activeLinks newLinks) w fun r w' =>
      if r.1 then ∀ f, Settled f (r.2.1.fd f) r.2.2 w'
      else r.2.1 = sockets ∧ r.2.2 = activeLinks ∧ ∀ f, RestoredWorld f activeLinks w w' := by
  unfold applyRuntimeLinkChange
  refine ensures_bind (prepareRuntimeMdnsSocketsForLinks_spec sharedBind h hnew) ?_
  rintro ⟨ok, sockets₁, links₁⟩ w₁ hset
  cases ok with
  | false =>
    refine ⟨?_, rfl, fun f => (hset f).2⟩
    have h4 := (hset .ipv4).1.trans (h .ipv4).fd_eq.symm
    have h6 := (hset .ipv6).1.trans (h .ipv6).fd_eq.symm
    simp only [MdnsSocketPair.fd] at h4 h6
    cases sockets₁
    cases sockets
    simp_all
  | true =>
    obtain ⟨s, rfl, rfl, hserved⟩ := hset
    have hagrees : s.sockets.Agrees w₁ := fun f => (hserved f).fd_eq
    refine ensures_bind (ensures_dropBoth hagrees (retiredKeys activeLinks s.newLinks)
      retiredKeys_ipv6_ne_zero) fun _ w₂ hdrop => ?_
    refine ensures_bind (closeUnused_spec s.sockets s.newLinks
      (fun f hne => (hserved f).settled (hdrop f) hne rfl)
      fun f => (hagrees f).trans (hdrop f).isSome_eq.symm) fun sockets' w₃ hsettled => ?_
    exact hsettled

/-! ## Acquiring and closing the sockets -/

theorem LinksPrepared.settled {family : Family} {joined : List MembershipKey} {w w' : NetWorld}
    {links links' : LinkContextSet}
    (h : LinksPrepared family [] joined (w.setSocket family (some ⟨∅, ∅⟩)) w' links links')
    (hkeys : links'.transportKeys family ≠ []) : Settled family true links' w' where
  fd_eq := by
    obtain ⟨s, hs⟩ := h.grown.socket_isSome
    rw [hs]
    rfl
  open_iff := ⟨fun _ => hkeys, fun _ => rfl⟩
  served k hk := (h.served k hk).2
  bounded t ht k hk := by
    obtain ⟨s₁, s₂, hs₁, rfl, hgrown⟩ := h.grown
    rw [NetWorld.socket_setSocket, if_pos rfl, Option.some.injEq] at hs₁ ht
    subst hs₁ ht
    rcases hgrown.bounded k hk with hmem | hsel | hjoined
    · exact absurd hmem (Finset.notMem_empty k)
    · exact Or.inr (Or.inl hsel)
    · exact Or.inl (h.recorded k hjoined)

/-- A socket just opened serves nothing yet, and there are no old links. -/
theorem oldServed_opened (family : Family) (w : NetWorld) :
    OldServed family (oldKeys none family) (w.setSocket family (some ⟨∅, ∅⟩)) :=
  ⟨⟨⟨∅, ∅⟩, by rw [NetWorld.socket_setSocket, if_pos rfl]⟩, nofun⟩

theorem openDualstackIpv4_spec (sharedBind : Bool) {links : LinkContextSet} {w : NetWorld}
    (hvalid : ValidLinks links) (hclosed : w.socket .ipv4 = none) :
    Ensures (openDualstackIpv4 sharedBind links.needIpv4Socket links) w fun r w' =>
      Settled .ipv4 r.2 r.1 w' ∧ r.1.transportKeys .ipv6 = links.transportKeys .ipv6 ∧
        w'.socket .ipv6 = w.socket .ipv6 := by
  have hgone : ∀ l : LinkContextSet, l.disableMdnsIpv4Transport.compact.transportKeys .ipv4 = [] ∧
      l.disableMdnsIpv4Transport.compact.transportKeys .ipv6 = l.transportKeys .ipv6 := by
    intro l
    rw [transportKeys_compact, transportKeys_compact]
    exact transportKeys_disable4 l
  unfold openDualstackIpv4
  simp only [Prog.bind_eq, Prog.pure_eq]
  by_cases hneed : links.needIpv4Socket = true
  · rw [if_neg (by simp [hneed])]
    refine ensures_bind (ensures_openBound .ipv4 sharedBind w) fun e w₁ he => ?_
    cases e with
    | some e =>
      obtain rfl := he
      exact ⟨.closed (hgone links).1 hclosed, (hgone links).2, rfl⟩
    | none =>
      obtain rfl := he
      refine ensures_bind (prepareMdnsSocket4Memberships_spec none hvalid.addr_ne_zero
        nofun (oldServed_opened .ipv4 w)) ?_
      rintro ⟨error, links', delta⟩ w₂ ⟨joined, hdelta, hprep, hkeys⟩
      cases error with
      | none => exact ⟨hprep.settled (hkeys rfl), hprep.others .ipv6 (by decide),
        hprep.grown.other (by decide)⟩
      | some e =>
        have hothers := (hgone links').2.trans (hprep.others .ipv6 (by decide))
        have hsock : w₂.socket .ipv6 = w.socket .ipv6 := hprep.grown.other (by decide)
        exact ensures_call fun _ => ⟨.closed (hgone links').1 rfl, hothers, hsock⟩
  · have hkeys : links.transportKeys .ipv4 = [] := by
      by_contra hne
      exact hneed (needIpv4Socket_iff.mpr hne)
    rw [if_pos (by simp [hneed])]
    exact ⟨.closed hkeys hclosed, rfl, rfl⟩

theorem openDualstackIpv6_spec (sharedBind : Bool) {links : LinkContextSet} {needIpv6 : Bool}
    {w : NetWorld} (hneed : needIpv6 = true ↔ links.transportKeys .ipv6 ≠ [])
    (hclosed : w.socket .ipv6 = none) :
    Ensures (openDualstackIpv6 sharedBind needIpv6 links) w fun r w' =>
      (r.2 = true ∨ needIpv6 = false → Settled .ipv6 r.2 r.1 w') ∧ (r.2 = false → w'.socket .ipv6 = none) ∧
        r.1.transportKeys .ipv4 = links.transportKeys .ipv4 ∧
        w'.socket .ipv4 = w.socket .ipv4 := by
  unfold openDualstackIpv6
  simp only [Prog.bind_eq, Prog.pure_eq]
  cases needIpv6 with
  | true =>
    refine ensures_bind (ensures_openBound .ipv6 sharedBind w) fun e w₁ he => ?_
    cases e with
    | some e =>
      obtain rfl := he
      exact ⟨by simp, fun _ => hclosed, rfl, rfl⟩
    | none =>
      obtain rfl := he
      refine ensures_bind (prepareMdnsSocket6Memberships_spec none nofun
        (oldServed_opened .ipv6 w)) ?_
      rintro ⟨error, links', delta⟩ w₂ ⟨joined, hdelta, hprep, hkeys⟩
      cases error with
      | none =>
        exact ⟨fun _ => hprep.settled (hkeys rfl), by simp, hprep.others .ipv4 (by decide),
          hprep.grown.other (by decide)⟩
      | some e =>
        have hothers := hprep.others .ipv4 (by decide)
        have hsock : w₂.socket .ipv4 = w.socket .ipv4 := hprep.grown.other (by decide)
        exact ensures_call fun _ =>
          ⟨by simp, fun _ => rfl, hothers, hsock⟩
  | false =>
    have hkeys : links.transportKeys .ipv6 = [] := by
      by_contra hne
      cases hneed.mpr hne
    exact ⟨fun _ => .closed hkeys hclosed, fun _ => hclosed, rfl, rfl⟩

/-- Where acquiring sockets ends: they are settled on the links, or there are none. -/
def Acquired (ok : Bool) (sockets : MdnsSocketPair) (links : LinkContextSet) (w : NetWorld) : Prop :=
  if ok then ∀ f, Settled f (sockets.fd f) links w
  else sockets = ⟨false, false⟩ ∧ ∀ f, w.socket f = none

theorem closeMdnsSocketPair_spec {sockets : MdnsSocketPair} {w : NetWorld}
    (h : sockets.Agrees w) :
    Ensures (closeMdnsSocketPair sockets) w fun r w' =>
      r = ⟨false, false⟩ ∧ ∀ f, w'.socket f = none := by
  unfold closeMdnsSocketPair
  refine ensures_closeIf .ipv4 (ensures_closeIf .ipv6 ⟨rfl, fun f => ?_⟩)
  refine (NetWorld.socket_closed w sockets.fd f).trans ?_
  split
  · rfl
  · next hfd => exact h.socket_eq_none f hfd

/-- Keys and sockets of a family decide whether it is settled. -/
theorem Settled.of_keys {family : Family} {fd : Bool} {links links' : LinkContextSet} {w w' : NetWorld}
    (h : Settled family fd links w)
    (hkeys : links'.transportKeys family = links.transportKeys family)
    (hw : w'.socket family = w.socket family) : Settled family fd links' w' := by
  have h' := h.congr hw
  refine ⟨h'.fd_eq, ?_, ?_, ?_⟩
  · rw [hkeys]
    exact h'.open_iff
  · rw [hkeys]
    exact h'.served
  · rw [hkeys]
    exact h'.bounded

theorem openDualstackMdnsSockets_spec (sharedBind : Bool) {links : LinkContextSet} {w : NetWorld}
    (hvalid : ValidLinks links) (hclosed : ∀ f, w.socket f = none) :
    Ensures (openDualstackMdnsSockets sharedBind links) w fun r w' =>
      Acquired r.1 r.2.1 r.2.2 w' := by
  unfold openDualstackMdnsSockets
  simp only [Prog.bind_eq, Prog.pure_eq]
  split
  · exact ⟨rfl, hclosed⟩
  refine ensures_bind (openDualstackIpv4_spec sharedBind hvalid (hclosed .ipv4)) ?_
  rintro ⟨links₁, has4⟩ w₁ ⟨hset4, hkeys6, hsock6⟩
  have hnone6 : w₁.socket .ipv6 = none := hsock6.trans (hclosed .ipv6)
  dsimp only at hset4 hkeys6 ⊢
  split
  · next hno =>
    refine ⟨rfl, fun f => ?_⟩
    cases f with
    | ipv4 =>
      have hfd : has4 = false := by
        cases has4 <;> simp_all
      rw [hfd] at hset4
      exact Option.not_isSome_iff_eq_none.mp (by rw [← hset4.fd_eq]; nofun)
    | ipv6 => exact hnone6
  refine ensures_bind (openDualstackIpv6_spec sharedBind
    (by rw [hkeys6]; exact needIpv6Socket_iff) hnone6) ?_
  rintro ⟨links₂, has6⟩ w₂ ⟨hset6, hno6, hkeys4, hsock4⟩
  have hset4' : Settled .ipv4 has4 links₂ w₂ := hset4.of_keys hkeys4 hsock4
  dsimp only at hset6 hno6 ⊢
  split
  · next hdown =>
    have hfd : has6 = false := by
      cases has6 <;> simp_all
    cases has4 with
    | true =>
      obtain ⟨hgone, hsame⟩ := transportKeys_disable6 links₂
      intro f
      cases f with
      | ipv4 => exact hset4'.of_keys ((transportKeys_compact _ _).trans hsame) rfl
      | ipv6 => exact .closed ((transportKeys_compact _ _).trans hgone) (hno6 hfd)
    | false =>
      refine ⟨rfl, fun f => ?_⟩
      cases f with
      | ipv4 => exact Option.not_isSome_iff_eq_none.mp (by rw [← hset4'.fd_eq]; nofun)
      | ipv6 => exact hno6 hfd
  · next hup =>
    have hall : ∀ f, Settled f ((MdnsSocketPair.mk has4 has6).fd f) links₂.compact w₂ := by
      intro f
      cases f with
      | ipv4 => exact hset4'.of_keys (transportKeys_compact _ _) rfl
      | ipv6 =>
        refine (hset6 ?_).of_keys (transportKeys_compact _ _) rfl
        cases hn : links.needIpv6Socket with
        | false => exact Or.inr rfl
        | true => exact Or.inl (openForNeed hup hn)
    split
    · exact ensures_bind (closeMdnsSocketPair_spec fun f => (hall f).fd_eq) fun _ _ h => h
    · exact hall

theorem openDualstackMdnsSocketsForDesired_spec (sharedBind : Bool) {desiredLinks : LinkContextSet}
    {w : NetWorld} (hvalid : ValidLinks desiredLinks) (hclosed : ∀ f, w.socket f = none) :
    Ensures (openDualstackMdnsSocketsForDesired sharedBind desiredLinks) w fun r w' =>
      (∀ f, Settled f (r.2.1.fd f) r.2.2 w') ∧ (r.1 = 0 ∨ r.1 = 1 ∨ ∀ f, w'.socket f = none) := by
  unfold openDualstackMdnsSocketsForDesired
  refine ensures_bind (openDualstackMdnsSockets_spec sharedBind hvalid hclosed) ?_
  rintro ⟨ok, sockets, links⟩ w' h
  cases ok with
  | false =>
    obtain ⟨rfl, hnone⟩ := h
    refine ⟨fun f => ?_, Or.inr (Or.inr hnone)⟩
    cases f with
    | ipv4 => exact .closed rfl (hnone .ipv4)
    | ipv6 => exact .closed rfl (hnone .ipv6)
  | true =>
    refine ⟨h, ?_⟩
    dsimp only
    split
    · exact Or.inl rfl
    · exact Or.inr (Or.inl rfl)

theorem acquireHealthyMdnsSockets_spec (sharedBind : Bool) {desiredLinks : LinkContextSet}
    {w : NetWorld} (hvalid : ValidLinks desiredLinks) (hclosed : ∀ f, w.socket f = none)
    (attempts : Nat) :
    Ensures (acquireHealthyMdnsSockets sharedBind desiredLinks attempts) w fun r w' =>
      match r with
      | none => ∀ f, w'.socket f = none
      | some (sockets, links) => ∀ f, Settled f (sockets.fd f) links w' := by
  induction attempts generalizing w with
  | zero => exact hclosed
  | succ attempts ih =>
    unfold acquireHealthyMdnsSockets
    refine ensures_bind (openDualstackMdnsSocketsForDesired_spec sharedBind hvalid hclosed) ?_
    rintro ⟨status, sockets, links⟩ w₁ ⟨hsettled, hstatus⟩
    dsimp only at hsettled hstatus ⊢
    split
    · exact hsettled
    · next hne =>
      split
      · refine ensures_bind (closeMdnsSocketPair_spec fun f => (hsettled f).fd_eq) ?_
        exact fun _ w₂ h => ih h.2
      · next hne' => exact ih ((hstatus.resolve_left hne).resolve_left hne')

theorem acquireDualstackMdnsSockets_spec (sharedBind : Bool) {desiredLinks : LinkContextSet}
    {w : NetWorld} (hvalid : ValidLinks desiredLinks) (hclosed : ∀ f, w.socket f = none) :
    Ensures (acquireDualstackMdnsSockets sharedBind desiredLinks) w fun r w' =>
      ∀ f, Settled f (r.2.1.fd f) r.2.2 w' := by
  unfold acquireDualstackMdnsSockets
  refine ensures_bind (acquireHealthyMdnsSockets_spec sharedBind hvalid hclosed _) fun r w₁ h => ?_
  cases r with
  | some r => exact h
  | none =>
    refine ensures_bind (acquireHealthyMdnsSockets_spec sharedBind hvalid h _) fun r w₂ h => ?_
    cases r with
    | some r => exact h
    | none =>
      exact Prog.wp_mono (openDualstackMdnsSocketsForDesired_spec sharedBind hvalid h)
        fun _ _ h => h.1

/-! ## Whole runs -/

/-- In every reachable state the sockets are settled on the active links. -/
theorem RuntimeReachable.settled {sockets : MdnsSocketPair} {activeLinks : LinkContextSet}
    {w : NetWorld} (h : RuntimeReachable sockets activeLinks w) :
    ∀ f, Settled f (sockets.fd f) activeLinks w := by
  induction h with
  | start =>
    intro f
    cases f with
    | ipv4 => exact .closed rfl rfl
    | ipv6 => exact .closed rfl rfl
  | acquire _ hdesired hend ih =>
    refine Prog.wp_returns (acquireDualstackMdnsSockets_spec _ hdesired fun f => ?_) hend
    have hfd := (ih f).fd_eq
    refine Option.not_isSome_iff_eq_none.mp ?_
    rw [← hfd]
    cases f <;> nofun
  | change _ hdesired hend ih =>
    have hspec := Prog.wp_returns (applyRuntimeLinkChange_spec _ ih hdesired) hend
    split at hspec
    · exact hspec
    · obtain ⟨rfl, rfl, hrest⟩ := hspec
      exact fun f => (ih f).restored (hrest f)
  | close _ hend ih =>
    obtain ⟨rfl, hnone⟩ := Prog.wp_returns (closeMdnsSocketPair_spec fun f => (ih f).fd_eq) hend
    intro f
    cases f with
    | ipv4 => exact .closed rfl (hnone .ipv4)
    | ipv6 => exact .closed rfl (hnone .ipv6)

/-- The recovery loop is a sequence of link changes. -/
theorem RuntimeReachable.retried {sharedBind : Bool} {desiredLinks : LinkContextSet}
    (hdesired : ValidLinks desiredLinks) (attempts : Nat) {sockets : MdnsSocketPair}
    {activeLinks : LinkContextSet} {w : NetWorld} (h : RuntimeReachable sockets activeLinks w) :
    Ensures (retryLinkChange sharedBind desiredLinks attempts sockets activeLinks) w fun r w' =>
      RuntimeReachable r.2.1 r.2.2 w' := by
  induction attempts generalizing sockets activeLinks w with
  | zero => exact h
  | succ attempts ih =>
    unfold retryLinkChange
    refine ensures_bind (Prog.wp_of_returns fun r w' hend => h.change hdesired hend) ?_
    intro r w' hreach
    dsimp only
    split
    · exact hreach
    · exact ih hreach

theorem RuntimeReachable.recovered {sharedBind : Bool} {desiredLinks : LinkContextSet}
    (hdesired : ValidLinks desiredLinks) {sockets : MdnsSocketPair}
    {activeLinks : LinkContextSet} {w : NetWorld} (h : RuntimeReachable sockets activeLinks w) :
    Ensures (recoverRuntimeLinkChangeWithTakeover sharedBind sockets activeLinks desiredLinks) w
      fun r w' => RuntimeReachable r.2.1 r.2.2 w' := by
  unfold recoverRuntimeLinkChangeWithTakeover
  refine ensures_bind (h.retried hdesired 1) ?_
  rintro ⟨healthy, sockets₁, links₁⟩ w₁ h₁
  cases healthy with
  | true => exact h₁
  | false =>
    refine ensures_bind (RuntimeReachable.retried hdesired takeoverRetryCount h₁) ?_
    rintro ⟨healthy, sockets₂, links₂⟩ w₂ h₂
    cases healthy with
    | true => exact h₂
    | false =>
      refine ensures_bind (RuntimeReachable.retried hdesired takeoverRetryCount h₂) ?_
      rintro ⟨healthy, sockets₃, links₃⟩ w₃ h₃
      cases healthy with
      | true => exact h₃
      | false => exact h₃

/-- A link with one address and no IPv6 transport. -/
def lanLink (addr : Ipv4) : LinkContext where
  name := "bridge0"
  flags := 0
  ifindex := 2
  isWan := false
  mdnsIpv4Transport := true
  mdnsIpv4TransportAddr := 0
  mdnsIpv6Transport := false
  ipv4 := [⟨addr, 0xffffff00⟩]
  ipv6 := []

end TimeCapsule.Mdns
