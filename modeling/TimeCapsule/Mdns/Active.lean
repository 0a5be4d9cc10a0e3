import TimeCapsule.Mdns.BindPolicy
import TimeCapsule.Mdns.LinkChange

/-!
# Active links are desired links

Whatever the kernel answers, the runtime only drops links and transports: its active links are some
of the links it was given, apart from the transports.
-/

namespace TimeCapsule.Mdns

open Lib

def LinkContext.withoutTransports (link : LinkContext) : LinkContext :=
  { link with mdnsIpv4Transport := false, mdnsIpv4TransportAddr := 0, mdnsIpv6Transport := false }

/-- The links are some of the old ones, apart from the transports. -/
def NarrowedFrom (old new : LinkContextSet) : Prop :=
  (new.map LinkContext.withoutTransports).Sublist (old.map LinkContext.withoutTransports)

theorem NarrowedFrom.refl (links : LinkContextSet) : NarrowedFrom links links := List.Sublist.refl _

theorem NarrowedFrom.trans {l₁ l₂ l₃ : LinkContextSet} (h : NarrowedFrom l₁ l₂)
    (h' : NarrowedFrom l₂ l₃) : NarrowedFrom l₁ l₃ := List.Sublist.trans h' h

theorem NarrowedFrom.of_map_eq {old new : LinkContextSet}
    (h : new.map LinkContext.withoutTransports = old.map LinkContext.withoutTransports) :
    NarrowedFrom old new := by
  unfold NarrowedFrom
  rw [h]

theorem NarrowedFrom.compact (links : LinkContextSet) : NarrowedFrom links links.compact :=
  List.Sublist.map _ List.filter_sublist

theorem NarrowedFrom.disable4 (links : LinkContextSet) :
    NarrowedFrom links links.disableMdnsIpv4Transport := by
  apply NarrowedFrom.of_map_eq
  unfold LinkContextSet.disableMdnsIpv4Transport
  rw [List.map_map]
  rfl

theorem NarrowedFrom.disable6 (links : LinkContextSet) :
    NarrowedFrom links links.disableMdnsIpv6Transport := by
  apply NarrowedFrom.of_map_eq
  unfold LinkContextSet.disableMdnsIpv6Transport
  rw [List.map_map]
  rfl

theorem NarrowedFrom.length_le {old new : LinkContextSet} (h : NarrowedFrom old new) :
    new.length ≤ old.length := by
  simpa using List.Sublist.length_le h

theorem topologyEqual_iff {a b : LinkContext} :
    a.topologyEqual b ↔ a.withoutTransports = b.withoutTransports := by
  unfold LinkContext.topologyEqual LinkContext.withoutTransports
  simp only [Bool.and_eq_true, beq_iff_eq, LinkContext.mk.injEq]
  tauto

theorem NarrowedFrom.exists_old {old new : LinkContextSet} (h : NarrowedFrom old new)
    {link : LinkContext} (hlink : link ∈ new) :
    ∃ link' ∈ old, link'.withoutTransports = link.withoutTransports := by
  have hmem := List.Sublist.subset h (List.mem_map_of_mem (f := LinkContext.withoutTransports) hlink)
  obtain ⟨link', hlink', heq⟩ := List.mem_map.mp hmem
  exact ⟨link', hlink', heq⟩

/-! ## Results whatever the kernel answers -/

/-- All results of the program satisfy `P`. -/
def Yields {α : Type} (p : NetM α) (P : α → Prop) : Prop := ∀ w, Ensures p w fun a _ => P a

section Rules

variable {α β : Type} {p : NetM α} {f : α → NetM β} {P : α → Prop} {R : β → Prop}

theorem yields_ret {a : α} (h : P a) : Yields (.ret a) P := fun _ => ensures_ret h

theorem yields_bind (h : Yields p P) (hf : ∀ a, P a → Yields (f a) R) : Yields (p.bind f) R :=
  fun w => ensures_bind (h w) fun a w' ha => hf a ha w'

theorem yields_any (p : NetM α) : Yields p fun _ => True :=
  fun _ => Prog.wp_of_returns fun _ _ _ => trivial

/-- A part whose result does not matter. -/
theorem yields_then (hf : ∀ a, Yields (f a) R) : Yields (p.bind f) R :=
  yields_bind (yields_any p) fun a _ => hf a

theorem Yields.mono {P' : α → Prop} (h : Yields p P) (hP : ∀ a, P a → P' a) : Yields p P' :=
  fun w => Prog.wp_mono (h w) fun a _ => hP a

end Rules

/-! ## The memberships of one family -/

theorem joinForLink4_yields (oldLinks : Option LinkContextSet) (link : LinkContext) (tries : Nat)
    (untried : List Ipv4) (delta : Option MembershipDelta) :
    Yields (joinForLink4 oldLinks link tries untried delta) fun r =>
      ∀ found, r = .ok found → found.1.withoutTransports = link.withoutTransports := by
  induction tries generalizing untried with
  | zero =>
    apply yields_ret
    rintro _ ⟨⟩
    rfl
  | succ tries ih =>
    unfold joinForLink4
    split
    · apply yields_ret
      rintro _ ⟨⟩
      rfl
    · next addr _ =>
      split
      · apply yields_ret
        rintro _ ⟨⟩
        rfl
      · apply yields_then
        intro joined
        cases joined with
        | some e => exact ih (untried.erase addr)
        | none =>
          dsimp only
          split
          · apply yields_then
            intro _
            apply yields_ret
            rintro _ ⟨⟩
          · apply yields_ret
            rintro _ ⟨⟩
            rfl

/-- Links that are kept one by one. -/
def Kept (links : LinkContextSet) (r : Except Errno LinkContextSet) : Prop :=
  ∀ kept, r = .ok kept →
    kept.map LinkContext.withoutTransports = links.map LinkContext.withoutTransports

theorem Kept.cons {link link' : LinkContext} {rest : LinkContextSet} {r : Except Errno LinkContextSet}
    (hlink : link'.withoutTransports = link.withoutTransports) (h : Kept rest r) :
    Kept (link :: rest) (r.map (link' :: ·)) := by
  intro kept hkept
  cases r with
  | error e => cases hkept
  | ok tail =>
    obtain rfl := Except.ok.inj hkept
    rw [List.map_cons, List.map_cons, hlink, h tail rfl]

theorem prepareLinks4_yields (oldLinks : Option LinkContextSet) (links : LinkContextSet) (first : Ipv4)
    (delta : Option MembershipDelta) :
    Yields (prepareLinks4 oldLinks links first delta) fun r => Kept links r.1 := by
  induction links generalizing first delta with
  | nil =>
    apply yields_ret
    rintro _ ⟨⟩
    rfl
  | cons link rest ih =>
    unfold prepareLinks4
    split
    · refine yields_bind (joinForLink4_yields oldLinks link _ _ delta) ?_
      intro r hr
      cases r with
      | error e =>
        apply yields_ret
        rintro _ ⟨⟩
      | ok found =>
        exact yields_bind (ih _ _) fun r h => yields_ret (h.cons (hr found rfl))
    · exact yields_bind (ih _ _) fun r h => yields_ret (h.cons rfl)

theorem prepareLinks6_yields (oldLinks : Option LinkContextSet) (links : LinkContextSet)
    (first : UInt32) (delta : Option MembershipDelta) :
    Yields (prepareLinks6 oldLinks links first delta) fun r => Kept links r.1 := by
  induction links generalizing first delta with
  | nil =>
    apply yields_ret
    rintro _ ⟨⟩
    rfl
  | cons link rest ih =>
    unfold prepareLinks6
    split
    · split
      · exact yields_bind (ih _ _) fun r h => yields_ret (h.cons rfl)
      · apply yields_then
        intro joined
        cases joined with
        | some e => exact yields_bind (ih _ _) fun r h => yields_ret (h.cons rfl)
        | none =>
          dsimp only
          split
          · apply yields_then
            intro _
            apply yields_ret
            rintro _ ⟨⟩
          · exact yields_bind (ih _ _) fun r h => yields_ret (h.cons rfl)
    · exact yields_bind (ih _ _) fun r h => yields_ret (h.cons rfl)

theorem prepareMdnsSocket4Memberships_yields (oldLinks : Option LinkContextSet)
    (links : LinkContextSet) (delta : Option MembershipDelta) :
    Yields (prepareMdnsSocket4Memberships oldLinks links delta) fun p => NarrowedFrom links p.links := by
  unfold prepareMdnsSocket4Memberships
  refine yields_bind (prepareLinks4_yields oldLinks links 0 delta) ?_
  rintro ⟨kept, first, delta'⟩ h
  cases kept with
  | error e => exact yields_ret (.refl links)
  | ok kept =>
    have hkept := (NarrowedFrom.of_map_eq (h kept rfl)).trans (NarrowedFrom.compact kept)
    dsimp only
    split
    · exact yields_ret hkept
    · exact yields_then fun _ => yields_ret hkept

theorem prepareMdnsSocket6Memberships_yields (oldLinks : Option LinkContextSet)
    (links : LinkContextSet) (delta : Option MembershipDelta) :
    Yields (prepareMdnsSocket6Memberships oldLinks links delta) fun p => NarrowedFrom links p.links := by
  unfold prepareMdnsSocket6Memberships
  refine yields_bind (prepareLinks6_yields oldLinks links 0 delta) ?_
  rintro ⟨kept, first, delta'⟩ h
  cases kept with
  | error e => exact yields_ret (.refl links)
  | ok kept =>
    have hkept := (NarrowedFrom.of_map_eq (h kept rfl)).trans (NarrowedFrom.compact kept)
    dsimp only
    split
    · exact yields_ret hkept
    · exact yields_then fun _ => yields_ret hkept

/-! ## Opening the sockets -/

theorem openDualstackIpv4_yields (sharedBind needIpv4 : Bool) (links : LinkContextSet) :
    Yields (openDualstackIpv4 sharedBind needIpv4 links) fun r => NarrowedFrom links r.1 := by
  have hgone : ∀ l : LinkContextSet, NarrowedFrom l l.disableMdnsIpv4Transport.compact :=
    fun l => (NarrowedFrom.disable4 l).trans (.compact _)
  unfold openDualstackIpv4
  split
  · exact yields_ret (.refl links)
  apply yields_then
  intro opened
  cases opened with
  | some e => exact yields_ret (hgone links)
  | none =>
    refine yields_bind (prepareMdnsSocket4Memberships_yields none links none) ?_
    intro prepared h
    split
    · exact yields_ret h
    · exact yields_then fun _ => yields_ret (h.trans (hgone prepared.links))

theorem openDualstackIpv6_yields (sharedBind needIpv6 : Bool) (links : LinkContextSet) :
    Yields (openDualstackIpv6 sharedBind needIpv6 links) fun r => NarrowedFrom links r.1 := by
  unfold openDualstackIpv6
  split
  · exact yields_ret (.refl links)
  apply yields_then
  intro opened
  cases opened with
  | some e => exact yields_ret (.refl links)
  | none =>
    refine yields_bind (prepareMdnsSocket6Memberships_yields none links none) ?_
    intro prepared h
    split
    · exact yields_ret h
    · exact yields_then fun _ => yields_ret h

theorem openDualstackMdnsSockets_yields (sharedBind : Bool) (links : LinkContextSet) :
    Yields (openDualstackMdnsSockets sharedBind links) fun r => NarrowedFrom links r.2.2 := by
  unfold openDualstackMdnsSockets
  dsimp only
  split
  · exact yields_ret (.refl links)
  refine yields_bind (openDualstackIpv4_yields sharedBind _ links) ?_
  rintro ⟨links₁, has4⟩ h₁
  dsimp only
  split
  · exact yields_ret h₁
  refine yields_bind (openDualstackIpv6_yields sharedBind _ links₁) ?_
  rintro ⟨links₂, has6⟩ h₂
  have h := h₁.trans h₂
  dsimp only
  split
  · split
    · exact yields_ret (h.trans ((NarrowedFrom.disable6 links₂).trans (.compact _)))
    · exact yields_ret h
  · split
    · exact yields_then fun _ => yields_ret (h.trans (.compact links₂))
    · exact yields_ret (h.trans (.compact links₂))

theorem NarrowedFrom.nil (links : LinkContextSet) : NarrowedFrom links [] := List.nil_sublist _

theorem openDualstackMdnsSocketsForDesired_yields (sharedBind : Bool) (links : LinkContextSet) :
    Yields (openDualstackMdnsSocketsForDesired sharedBind links) fun r => NarrowedFrom links r.2.2 := by
  unfold openDualstackMdnsSocketsForDesired
  refine yields_bind (openDualstackMdnsSockets_yields sharedBind links) ?_
  rintro ⟨ok, sockets, active⟩ h
  cases ok with
  | false => exact yields_ret (.nil links)
  | true => exact yields_ret h

theorem acquireHealthyMdnsSockets_yields (sharedBind : Bool) (links : LinkContextSet)
    (attempts : Nat) :
    Yields (acquireHealthyMdnsSockets sharedBind links attempts) fun r =>
      ∀ found, r = some found → NarrowedFrom links found.2 := by
  induction attempts with
  | zero =>
    apply yields_ret
    rintro _ ⟨⟩
  | succ attempts ih =>
    unfold acquireHealthyMdnsSockets
    refine yields_bind (openDualstackMdnsSocketsForDesired_yields sharedBind links) ?_
    rintro ⟨status, sockets, active⟩ h
    dsimp only
    split
    · apply yields_ret
      rintro _ ⟨⟩
      exact h
    · split
      · exact yields_then fun _ => ih
      · exact ih

theorem acquireDualstackMdnsSockets_yields (sharedBind : Bool) (links : LinkContextSet) :
    Yields (acquireDualstackMdnsSockets sharedBind links) fun r => NarrowedFrom links r.2.2 := by
  unfold acquireDualstackMdnsSockets
  refine yields_bind (acquireHealthyMdnsSockets_yields sharedBind links _) ?_
  intro found h
  cases found with
  | some found => exact yields_ret (h found rfl)
  | none =>
    refine yields_bind (acquireHealthyMdnsSockets_yields sharedBind links _) ?_
    intro found h
    cases found with
    | some found => exact yields_ret (h found rfl)
    | none => exact openDualstackMdnsSocketsForDesired_yields sharedBind links

/-! ## Changing the links -/

/-- A part of the setup narrows the links it works on. -/
def PartNarrows (part : RuntimeSetup → NetM (SetupOutcome × RuntimeSetup)) : Prop :=
  ∀ s, Yields (part s) fun r => NarrowedFrom s.newLinks r.2.newLinks

theorem openIpv4ForLinks_narrows (sharedBind : Bool) : PartNarrows (openIpv4ForLinks sharedBind) := by
  intro s
  unfold openIpv4ForLinks
  split
  · apply yields_then
    intro opened
    cases opened with
    | some e =>
      dsimp only
      split
      · exact yields_ret ((NarrowedFrom.disable4 s.newLinks).trans (.compact _))
      · exact yields_ret (.refl _)
    | none => exact yields_ret (.refl _)
  · exact yields_ret (.refl _)

theorem openIpv6ForLinks_narrows (sharedBind : Bool) : PartNarrows (openIpv6ForLinks sharedBind) := by
  intro s
  unfold openIpv6ForLinks
  split
  · apply yields_then
    intro opened
    cases opened with
    | some e =>
      dsimp only
      split
      · exact yields_ret ((NarrowedFrom.disable6 s.newLinks).trans (.compact _))
      · exact yields_ret (.refl _)
    | none => exact yields_ret (.refl _)
  · exact yields_ret (.refl _)

theorem prepareIpv4ForLinks_narrows (oldLinks : LinkContextSet) :
    PartNarrows (prepareIpv4ForLinks oldLinks) := by
  intro s
  unfold prepareIpv4ForLinks
  split
  · refine yields_bind (prepareMdnsSocket4Memberships_yields _ s.newLinks _) ?_
    intro prepared h
    have hgone := h.trans (NarrowedFrom.disable4 prepared.links)
    dsimp only
    split
    · exact yields_ret h
    · split
      · split
        · exact yields_then fun _ => yields_ret hgone
        · exact yields_ret hgone
      · exact yields_ret h
  · exact yields_ret (.refl _)

theorem prepareIpv6ForLinks_narrows (oldLinks : LinkContextSet) :
    PartNarrows (prepareIpv6ForLinks oldLinks) := by
  intro s
  unfold prepareIpv6ForLinks
  split
  · refine yields_bind (prepareMdnsSocket6Memberships_yields _ s.newLinks _) ?_
    intro prepared h
    have hgone := (h.trans (NarrowedFrom.disable6 prepared.links)).trans (.compact _)
    dsimp only
    split
    · exact yields_ret h
    · split
      · split
        · exact yields_then fun _ => yields_ret hgone
        · exact yields_ret hgone
      · exact yields_ret h
  · exact yields_ret (.refl _)

theorem failRuntimeSetup_yields (s : RuntimeSetup) :
    Yields (failRuntimeSetup s) fun r => r.2.2 = s.newLinks := by
  unfold failRuntimeSetup
  apply yields_then
  intro _
  dsimp only
  split
  · apply yields_then
    intro _
    split
    · exact yields_then fun _ => yields_ret rfl
    · exact yields_ret rfl
  · split
    · exact yields_then fun _ => yields_ret rfl
    · exact yields_ret rfl

theorem finishRuntimeSetup_yields (s : RuntimeSetup) :
    Yields (finishRuntimeSetup s) fun r => NarrowedFrom s.newLinks r.2.2 := by
  unfold finishRuntimeSetup
  dsimp only
  split
  · apply (failRuntimeSetup_yields _).mono
    intro r hr
    rw [hr]
    exact .compact s.newLinks
  · exact yields_ret (.compact s.newLinks)

theorem runSetup_yields {parts : List (RuntimeSetup → NetM (SetupOutcome × RuntimeSetup))}
    (h : ∀ part ∈ parts, PartNarrows part) (s : RuntimeSetup) :
    Yields (runSetup s parts) fun r => NarrowedFrom s.newLinks r.2.2 := by
  induction parts generalizing s with
  | nil => exact finishRuntimeSetup_yields s
  | cons part parts ih =>
    unfold runSetup
    refine yields_bind (h part List.mem_cons_self s) ?_
    rintro ⟨outcome, s'⟩ hpart
    cases outcome with
    | fail =>
      apply (failRuntimeSetup_yields s').mono
      intro r hr
      rw [hr]
      exact hpart
    | done => exact yields_ret hpart
    | next =>
      apply (ih (fun p hp => h p (List.mem_cons_of_mem _ hp)) s').mono
      intro r hr
      exact hpart.trans hr

theorem prepareRuntimeMdnsSocketsForLinks_yields (sharedBind : Bool) (sockets : MdnsSocketPair)
    (oldLinks newLinks : LinkContextSet) :
    Yields (prepareRuntimeMdnsSocketsForLinks sharedBind sockets oldLinks newLinks) fun r =>
      NarrowedFrom newLinks r.2.2 := by
  unfold prepareRuntimeMdnsSocketsForLinks
  dsimp only
  split
  · exact yields_ret (.refl newLinks)
  · apply runSetup_yields
    intro part hpart
    simp only [List.mem_cons, List.not_mem_nil, or_false] at hpart
    rcases hpart with rfl | rfl | rfl | rfl
    · exact openIpv4ForLinks_narrows sharedBind
    · exact openIpv6ForLinks_narrows sharedBind
    · exact prepareIpv4ForLinks_narrows oldLinks
    · exact prepareIpv6ForLinks_narrows oldLinks

/-- A change that succeeds makes some of the new links active. -/
theorem applyRuntimeLinkChange_yields (sharedBind : Bool) (sockets : MdnsSocketPair)
    (activeLinks newLinks : LinkContextSet) :
    Yields (applyRuntimeLinkChange sharedBind sockets activeLinks newLinks) fun r =>
      if r.1 then NarrowedFrom newLinks r.2.2 else r.2.2 = activeLinks := by
  unfold applyRuntimeLinkChange
  refine yields_bind (prepareRuntimeMdnsSocketsForLinks_yields sharedBind sockets activeLinks newLinks) ?_
  rintro ⟨ok, sockets', applied⟩ h
  cases ok with
  | false => exact yields_ret rfl
  | true => exact yields_then fun _ => yields_then fun _ => yields_ret h

end TimeCapsule.Mdns
