import TimeCapsule.Mdns.LinkBuild
import TimeCapsule.Mdns.Scope

/-!
# Equal link sets

Built sets are equal when one is the other in another order.  Interfaces may therefore be found in any
order, but not the addresses of one interface.
-/

namespace TimeCapsule.Mdns

open Lib

/-! ## A row changes one link -/

namespace LinkContext

/-- A link after `appendAddress`. -/
def withAddress (flags : UInt32) (has full : LinkContext → Bool) (add : LinkContext → LinkContext)
    (ctx : LinkContext) : LinkContext :=
  if has (ctx.touch flags) then ctx.touch flags
  else if full (ctx.touch flags) then ctx.touch flags
  else add (ctx.touch flags)

end LinkContext

theorem modify_length_append {α : Type} (l : List α) (a : α) (f : α → α) :
    (l ++ [a]).modify l.length f = l ++ [f a] := by
  induction l with
  | nil => rfl
  | cons b l ih => simp [ih]

theorem modify_congr_at {α : Type} {l : List α} {i : Nat} {f g : α → α}
    (h : ∀ a, l[i]? = some a → f a = g a) : l.modify i f = l.modify i g := by
  refine List.ext_getElem? fun j => ?_
  rw [List.getElem?_modify, List.getElem?_modify]
  by_cases hj : i = j
  · subst hj
    cases ha : l[i]? with
    | none => rfl
    | some a => simp [h a ha]
  · simp [hj]

/-- Links are looked up by their names. -/
abbrev upsertLink (name : IfName) (f : LinkContext → LinkContext) (links : LinkContextSet) :
    LinkContextSet :=
  upsert LinkContext.name LinkContext.blank maxIfaceContexts name.val f links

theorem appendAddress_links (out : LinkTable) (name : IfName) (flags : UInt32)
    (has full : LinkContext → Bool) (add : LinkContext → LinkContext) :
    (appendAddress out name flags has full add).1.links =
      upsertLink name (LinkContext.withAddress flags has full add) out.links := by
  rw [appendAddress, findOrAddLinkContext, upsertLink, upsert]
  cases hi : out.links.findIdx? (fun ctx => decide (ctx.name = name.val)) with
  | none =>
    by_cases hfull : maxIfaceContexts ≤ out.links.length
    · simp [hfull, Nat.not_lt.mpr hfull]
    · have hnew : LinkContext.touch flags (LinkContext.blank name.val) =
          { LinkContext.blank name.val with flags := flags } := rfl
      simp only [if_neg hfull, List.getElem?_concat_length, if_pos (Nat.lt_of_not_le hfull),
        LinkContext.withAddress, hnew]
      split
      · rfl
      · split
        · rfl
        · exact modify_length_append _ _ _
  | some i =>
    obtain ⟨hlt, -⟩ := List.findIdx?_eq_some_iff_findIdx_eq.mp hi
    have hget : (out.links.modify i (·.touch flags))[i]? = some (out.links[i].touch flags) := by
      simp [hlt]
    have hat : ∀ ctx, out.links[i]? = some ctx → out.links[i] = ctx := by
      intro ctx hctx
      rwa [List.getElem?_eq_getElem hlt, Option.some.injEq] at hctx
    simp only [hget]
    by_cases hhas : has (out.links[i].touch flags)
    · simp only [if_pos hhas]
      refine modify_congr_at fun ctx hctx => ?_
      obtain rfl := hat ctx hctx
      exact (if_pos hhas).symm
    · simp only [if_neg hhas]
      by_cases hfull : full (out.links[i].touch flags)
      · simp only [if_pos hfull]
        refine modify_congr_at fun ctx hctx => ?_
        obtain rfl := hat ctx hctx
        rw [LinkContext.withAddress, if_neg hhas, if_pos hfull]
      · simp only [if_neg hfull, List.modify_modify_eq]
        refine modify_congr_at fun ctx hctx => ?_
        obtain rfl := hat ctx hctx
        rw [LinkContext.withAddress, if_neg hhas, if_neg hfull]
        rfl

theorem addLinkRow_links (out : LinkTable) (name : IfName) (flags index : UInt32) :
    (addLinkRow out name flags index).links =
      upsertLink name (fun ctx => (ctx.touch flags).setIndex index) out.links := by
  rw [addLinkRow, findOrAddLinkContext, upsertLink, upsert]
  cases hi : out.links.findIdx? (fun ctx => decide (ctx.name = name.val)) with
  | none =>
    by_cases hfull : maxIfaceContexts ≤ out.links.length
    · simp [hfull, Nat.not_lt.mpr hfull]
    · simp only [if_neg hfull, if_pos (Nat.lt_of_not_le hfull)]
      exact modify_length_append _ _ _
  | some i => exact List.modify_modify_eq _ _ _ _

/-! ## The links of rows -/

namespace LinkRow

def name : LinkRow → IfName
  | .ipv4 name _ _ _ => name
  | .ipv6 name _ _ _ _ _ => name
  | .link name _ _ => name

/-- Rows of addresses that are of no use are passed over. -/
def used : LinkRow → Bool
  | .ipv4 _ addr _ _ => runtimeIpv4IsBindable addr
  | .ipv6 _ addr _ _ _ _ => runtimeIpv6IsUsable addr
  | .link _ _ _ => true

/-- What the row does to its link. -/
def update : LinkRow → LinkContext → LinkContext
  | .ipv4 _ addr netmask flags =>
      LinkContext.withAddress flags (·.hasIpv4 addr) (fun ctx => maxLinkIpv4Addrs ≤ ctx.ipv4.length)
        (·.addIpv4 addr netmask flags)
  | .ipv6 _ addr prefixLen scopeId flags transport =>
      LinkContext.withAddress flags (·.hasIpv6 addr) (fun ctx => maxLinkIpv6Addrs ≤ ctx.ipv6.length)
        (·.addIpv6 addr prefixLen scopeId transport)
  | .link _ flags index => fun ctx => (ctx.touch flags).setIndex index

end LinkRow

/-- The names of the links, in the order in which they are found. -/
def linkNames (rows : List LinkRow) : List String :=
  keptKeys maxIfaceContexts (fun row : LinkRow => row.name.val) (rows.filter (·.used))

/-- The link that the rows with a name make, whatever rows are between them. -/
def linkOf (rows : List LinkRow) (name : String) : LinkContext :=
  entryOf LinkContext.blank (fun row : LinkRow => row.name.val) LinkRow.update
    (rows.filter (·.used)) name

theorem addRow_links (out : LinkTable) (row : LinkRow) :
    (addRow out row).links =
      if row.used then upsertLink row.name row.update out.links else out.links := by
  cases row with
  | ipv4 name addr netmask flags =>
    cases h : runtimeIpv4IsBindable addr with
    | false => simp [addRow, appendLinkIpv4, LinkRow.used, h]
    | true =>
      simp only [addRow, appendLinkIpv4, LinkRow.used, h]
      exact appendAddress_links out name flags _ _ _
  | ipv6 name addr prefixLen scopeId flags transport =>
    cases h : runtimeIpv6IsUsable addr with
    | false => simp [addRow, appendLinkIpv6WithTransport, LinkRow.used, h]
    | true =>
      simp only [addRow, appendLinkIpv6WithTransport, LinkRow.used, h]
      exact appendAddress_links out name flags _ _ _
  | link name flags index => exact addLinkRow_links out name flags index

@[simp] theorem LinkContext.name_touch (flags : UInt32) (ctx : LinkContext) :
    (ctx.touch flags).name = ctx.name := by
  rw [LinkContext.touch]
  split <;> rfl

@[simp] theorem LinkContext.name_setIndex (index : UInt32) (ctx : LinkContext) :
    (ctx.setIndex index).name = ctx.name := by
  rw [LinkContext.setIndex]
  split <;> rfl

theorem LinkRow.name_update (row : LinkRow) (ctx : LinkContext) : (row.update ctx).name = ctx.name := by
  cases row with
  | ipv4 name addr netmask flags =>
    rw [LinkRow.update, LinkContext.withAddress]
    split
    · simp
    · split <;> simp [LinkContext.addIpv4]
  | ipv6 name addr prefixLen scopeId flags transport =>
    rw [LinkRow.update, LinkContext.withAddress]
    split
    · simp
    · split <;> simp [LinkContext.addIpv6]
  | link name flags index =>
    rw [LinkRow.update, LinkContext.name_setIndex, LinkContext.name_touch]

/-- The set of the rows by the names of the links. -/
theorem buildLinkContexts_links (rows : List LinkRow) :
    (buildLinkContexts rows).links = (linkNames rows).map (linkOf rows) := by
  have hfold : ∀ (rows : List LinkRow) (out : LinkTable), (rows.foldl addRow out).links =
      (rows.filter (·.used)).foldl
        (fun links row => upsertLink row.name row.update links) out.links := by
    intro rows
    induction rows with
    | nil => exact fun out => rfl
    | cons row rows ih =>
      intro out
      rw [List.foldl_cons, ih, addRow_links, List.filter_cons]
      cases row.used <;> rfl
  rw [buildLinkContexts, hfold]
  exact fillTable_eq (fun _ => rfl) LinkRow.name_update _

theorem linkOf_name (rows : List LinkRow) (name : String) : (linkOf rows name).name = name :=
  key_entryOf (fun _ => rfl) LinkRow.name_update _ _

theorem buildLinkContexts_names (rows : List LinkRow) :
    (buildLinkContexts rows).links.map LinkContext.name = linkNames rows := by
  rw [buildLinkContexts_links, List.map_map]
  exact (List.map_congr_left fun name _ => linkOf_name rows name).trans (List.map_id _)

/-! ## Built sets -/

/-- The sets that the collection passes on: the rows as they are built or named anew, and then with
their roles, with the missing indexes, without some links, and sorted. -/
inductive Built : LinkContextSet → Prop
  | rows (rows : List LinkRow) : Built (buildLinkContexts rows).links
  | roles {set : LinkContextSet} (wan : LinkContext → Bool) (h : Built set) :
      Built (set.map fun ctx => { ctx with isWan := wan ctx })
  | indexes {set : LinkContextSet} (index : LinkContext → UInt32) (h : Built set) :
      Built (set.map fun ctx => ctx.setIndex (index ctx))
  | kept {set : LinkContextSet} (keep : LinkContext → Bool) (h : Built set) :
      Built (keepLinkContexts keep set).links

/-- A link of a built set, where no address has been chosen to send from. -/
def LinkContext.Plain (ctx : LinkContext) : Prop :=
  ctx.mdnsIpv4TransportAddr = 0 ∧ ctx.mdnsIpv4Transport = !ctx.ipv4.isEmpty

theorem LinkContext.Plain.touch {ctx : LinkContext} (h : ctx.Plain) (flags : UInt32) :
    (ctx.touch flags).Plain := by
  rw [LinkContext.touch]
  split <;> exact h

theorem LinkContext.Plain.setIndex {ctx : LinkContext} (h : ctx.Plain) (index : UInt32) :
    (ctx.setIndex index).Plain := by
  rw [LinkContext.setIndex]
  split <;> exact h

theorem LinkContext.Plain.withAddress {ctx : LinkContext} (h : ctx.Plain) {flags : UInt32}
    {has full : LinkContext → Bool} {add : LinkContext → LinkContext}
    (hadd : ∀ ctx : LinkContext, ctx.Plain → (add ctx).Plain) :
    (ctx.withAddress flags has full add).Plain := by
  rw [LinkContext.withAddress]
  split
  · exact h.touch flags
  · split
    · exact h.touch flags
    · exact hadd _ (h.touch flags)

theorem LinkContext.Plain.update {ctx : LinkContext} (h : ctx.Plain) (row : LinkRow) :
    (row.update ctx).Plain := by
  cases row with
  | ipv4 name addr netmask flags => exact h.withAddress fun ctx h => ⟨h.1, by simp [LinkContext.addIpv4]⟩
  | ipv6 name addr prefixLen scopeId flags transport => exact h.withAddress fun ctx h => h
  | link name flags index => exact (h.touch flags).setIndex index

/-- What the sets have in common. -/
structure WellBuilt (set : LinkContextSet) : Prop where
  names : (set.map LinkContext.name).Nodup
  plain : ∀ ctx ∈ set, ctx.Plain

theorem WellBuilt.map {set : LinkContextSet} (h : WellBuilt set) {f : LinkContext → LinkContext}
    (hname : ∀ ctx, (f ctx).name = ctx.name) (hplain : ∀ ctx, ctx.Plain → (f ctx).Plain) :
    WellBuilt (set.map f) := by
  refine ⟨?_, ?_⟩
  · have hnames : (set.map f).map LinkContext.name = set.map LinkContext.name := by
      rw [List.map_map]
      exact List.map_congr_left fun ctx _ => hname ctx
    exact hnames ▸ h.names
  · intro ctx hctx
    obtain ⟨ctx', hctx', rfl⟩ := List.mem_map.mp hctx
    exact hplain _ (h.plain ctx' hctx')

theorem Built.wellBuilt {set : LinkContextSet} (h : Built set) : WellBuilt set := by
  induction h with
  | rows rows =>
    refine ⟨?_, ?_⟩
    · rw [buildLinkContexts_names]
      exact nodup_keptKeys _
    · intro ctx hctx
      rw [buildLinkContexts_links] at hctx
      obtain ⟨name, -, rfl⟩ := List.mem_map.mp hctx
      exact entryOf_induction ⟨rfl, rfl⟩ (fun row ctx h => h.update row) _
  | roles wan h ih => exact ih.map (fun _ => rfl) fun _ h => h
  | indexes index h ih => exact ih.map (fun ctx => ctx.name_setIndex _) fun ctx h => h.setIndex _
  | @kept set keep h ih =>
    refine ⟨?_, fun ctx hctx => ih.plain ctx (keepLinkContexts_subset hctx).1⟩
    have hkept := (set.filter keep).take_sublist maxIfaceContexts |>.trans List.filter_sublist
    exact ((sortLinkContexts_perm _).map _).nodup_iff.mpr (ih.names.sublist (hkept.map _))

section Equality

variable {a b c : LinkContextSet} {ctx ctx' : LinkContext}

theorem identityEqual_iff (h : ctx.Plain) (h' : ctx'.Plain) :
    ctx.identityEqual ctx' = true ↔ ctx = ctx' := by
  constructor
  · intro heq
    simp only [LinkContext.identityEqual, Bool.and_eq_true, beq_iff_eq] at heq
    obtain ⟨⟨⟨⟨⟨⟨⟨h1, h2⟩, h3⟩, h4⟩, h5⟩, h6⟩, h7⟩, h8⟩ := heq
    have h9 : ctx.mdnsIpv4TransportAddr = ctx'.mdnsIpv4TransportAddr := h.1.trans h'.1.symm
    cases ctx
    cases ctx'
    simp_all
  · rintro rfl
    simp [LinkContext.identityEqual]

theorem linkContextSetContains_iff (hb : WellBuilt b) (h : ctx.Plain) :
    linkContextSetContains b ctx = true ↔ ctx ∈ b := by
  rw [linkContextSetContains, List.any_eq_true]
  constructor
  · rintro ⟨ctx', hmem, heq⟩
    exact (identityEqual_iff (hb.plain ctx' hmem) h).mp heq ▸ hmem
  · exact fun hmem => ⟨ctx, hmem, (identityEqual_iff h h).mpr rfl⟩

/-- Equal sets are the same links in some order. -/
theorem linkContextSetsEqual_iff_perm (ha : WellBuilt a) (hb : WellBuilt b) :
    linkContextSetsEqual a b = true ↔ a.Perm b := by
  rw [linkContextSetsEqual, Bool.and_eq_true, beq_iff_eq, List.all_eq_true]
  constructor
  · rintro ⟨hlen, hall⟩
    have hsub : a ⊆ b := fun ctx hctx =>
      (linkContextSetContains_iff hb (ha.plain ctx hctx)).mp (hall ctx hctx)
    exact (List.subperm_of_subset ha.names.of_map hsub).perm_of_length_le (Nat.le_of_eq hlen.symm)
  · intro hperm
    refine ⟨hperm.length_eq, fun ctx hctx => ?_⟩
    exact (linkContextSetContains_iff hb (ha.plain ctx hctx)).mpr (hperm.mem_iff.mp hctx)

/-- The same interface with the same role, index and addresses. -/
def SameLink (ctx ctx' : LinkContext) : Prop :=
  ctx.name = ctx'.name ∧ ctx.isWan = ctx'.isWan ∧ ctx.ifindex = ctx'.ifindex ∧
    (∀ addr, addr ∈ ctx.ipv4 ↔ addr ∈ ctx'.ipv4) ∧ ∀ addr, addr ∈ ctx.ipv6 ↔ addr ∈ ctx'.ipv6

theorem SameLink.refl (ctx : LinkContext) : SameLink ctx ctx :=
  ⟨rfl, rfl, rfl, fun _ => Iff.rfl, fun _ => Iff.rfl⟩

/-- Interfaces may be found in any order: rows that keep their order within each interface give an
equal set, as long as there is room for all. -/
theorem linkContextSetsEqual_of_mixed {rows rows' : List LinkRow}
    (hfew : ((rows.filter (·.used)).map fun row => row.name.val).eraseDups.length ≤ maxIfaceContexts)
    (hfew' : ((rows'.filter (·.used)).map fun row => row.name.val).eraseDups.length ≤ maxIfaceContexts)
    (hrows : ∀ name : String,
      ((rows.filter (·.used)).filter fun row => decide (row.name.val = name)) =
        (rows'.filter (·.used)).filter fun row => decide (row.name.val = name)) :
    linkContextSetsEqual (buildLinkContexts rows).links (buildLinkContexts rows').links = true := by
  rw [linkContextSetsEqual_iff_perm (Built.rows rows).wellBuilt (Built.rows rows').wellBuilt,
    buildLinkContexts_links, buildLinkContexts_links]
  have h := fillTable_perm LinkContext.name LinkContext.blank LinkRow.update (fun _ => rfl)
    LinkRow.name_update hfew hfew' hrows
  rw [fillTable_eq (fun _ => rfl) LinkRow.name_update, fillTable_eq (fun _ => rfl)
    LinkRow.name_update] at h
  exact h

end Equality

/-! ## Two addresses of one interface -/

end TimeCapsule.Mdns
