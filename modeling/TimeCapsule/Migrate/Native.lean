import TimeCapsule.Migrate.Scan

/-!
# Native attributes in a copy

What the copy phase does to the attributes of a file: the values that are there stay, apart from the
marker of an unfinished resource fork and from extents that no anchor refers to.
-/

namespace TimeCapsule.Migrate

open Lib

variable {α : Type}

/-- The value of a native attribute. -/
def World.attr (w : World) (id : FileId) (name : Name) : Option Bytes :=
  (w.inode id).attrs.lookup name

def World.setAttr (w : World) (id : FileId) (name : Name) (value : Bytes) : World :=
  w.modify id (·.setAttr name value)

section Attr

variable {w : World} {id id' : FileId} {name name' : Name} {value : Bytes} {f : Inode → Inode}

theorem inode_modify :
    (w.modify id f).inode id' = if id' = id then f (w.inode id') else w.inode id' := rfl

theorem attr_setAttr : (w.setAttr id name value).attr id' name' =
    if id' = id ∧ name' = name then some value else w.attr id' name' := by
  rw [World.setAttr, World.attr, inode_modify]
  by_cases hid : id' = id
  · rw [if_pos hid]
    show (dictSet (w.inode id').attrs name value).lookup name' = _
    rw [lookup_dictSet]
    by_cases hname : name' = name
    · rw [if_pos hname, if_pos ⟨hid, hname⟩]
    · rw [if_neg hname, if_neg fun h => hname h.2]
      rfl
  · rw [if_neg hid, if_neg fun h => hid h.1]
    rfl

theorem attr_setAttr_self : (w.setAttr id name value).attr id name = some value := by
  rw [attr_setAttr, if_pos ⟨rfl, rfl⟩]

theorem attr_setAttr_of_ne (h : ¬ (id' = id ∧ name' = name)) :
    (w.setAttr id name value).attr id' name' = w.attr id' name' := by
  rw [attr_setAttr, if_neg h]

/-- A change of the resource fork leaves the attributes alone. -/
theorem attr_modify (h : ∀ inode, (f inode).attrs = inode.attrs) :
    (w.modify id f).attr id' name' = w.attr id' name' := by
  rw [World.attr, inode_modify, World.attr]
  split
  · rw [h]
  · rfl

theorem attr_removeAttr_of_ne (h : name' ≠ name) :
    (w.modify id (·.removeAttr name)).attr id' name' = w.attr id' name' := by
  rw [World.attr, inode_modify, World.attr]
  split
  · rw [Inode.removeAttr]
    show List.lookup name' (List.filter _ (w.inode id').attrs) = _
    induction (w.inode id').attrs with
    | nil => rfl
    | cons entry rest ih =>
      rw [List.filter_cons]
      by_cases hentry : entry.1 ≠ name
      · rw [if_pos (by simpa using hentry), lookup_cons_eq_ite, lookup_cons_eq_ite, ih]
      · rw [if_neg (by simpa using hentry), ih, lookup_cons_eq_ite,
          if_neg fun heq => h (heq.trans (not_not.mp hentry))]
  · rfl

end Attr

/-! ## Values that stay -/

/-- The name is that of an extent whose stream has no anchor. -/
def World.Unanchored (w : World) (id : FileId) (name : Name) : Prop :=
  ∃ i < hfsStreamXattrs, ∃ raw, name = extentName i raw ∧
    w.attr id (streamPrefixText ++ raw) = none

/-- What every step of a copy does for the attributes. -/
structure AttrsKept (w w' : World) : Prop where
  value : ∀ id name v, w.attr id name = some v → name ≠ resourceMarkerXattr →
    ¬ w.Unanchored id name → w'.attr id name = some v
  present : ∀ id name, (w.attr id name).isSome → name ≠ resourceMarkerXattr →
    (w'.attr id name).isSome

theorem anchorOf_ne_extentName (i : Nat) (raw raw' : Name) :
    streamPrefixText ++ raw ≠ extentName i raw' :=
  anchor_ne_extentName (streamAnchor_iff.mpr ⟨raw, rfl⟩)

theorem anchorOf_ne_marker (raw : Name) : streamPrefixText ++ raw ≠ resourceMarkerXattr := by
  intro h
  have htake := congrArg (List.take streamPrefixText.length) h
  rw [List.take_left] at htake
  exact absurd htake (by decide)

theorem extentName_ne_marker (i : Nat) (raw : Name) : extentName i raw ≠ resourceMarkerXattr := by
  intro h
  have htake := congrArg (List.take extPrefixText.length) h
  rw [extentName, List.append_assoc, List.append_assoc, List.take_left] at htake
  exact absurd htake (by decide)

/-- An anchor is no extent. -/
theorem not_unanchored_anchor (w : World) (id : FileId) (raw : Name) :
    ¬ w.Unanchored id (streamPrefixText ++ raw) := by
  rintro ⟨i, -, raw', h, -⟩
  exact anchorOf_ne_extentName i raw raw' h

theorem AttrsKept.refl (w : World) : AttrsKept w w :=
  ⟨fun _ _ _ h _ _ => h, fun _ _ h _ => h⟩

theorem AttrsKept.anchored {w w' : World} (h : AttrsKept w w') {id : FileId} {name : Name}
    (hname : ¬ w.Unanchored id name) : ¬ w'.Unanchored id name := by
  rintro ⟨i, hi, raw, rfl, hnone⟩
  cases hanchor : w.attr id (streamPrefixText ++ raw) with
  | none => exact hname ⟨i, hi, raw, rfl, hanchor⟩
  | some v =>
    rw [h.value id _ v hanchor (anchorOf_ne_marker raw) (not_unanchored_anchor w id raw)] at hnone
    exact absurd hnone (by simp)

theorem AttrsKept.trans {u v w : World} (h : AttrsKept u v) (h' : AttrsKept v w) :
    AttrsKept u w where
  value id name x hx hmarker hname :=
    h'.value id name x (h.value id name x hx hmarker hname) hmarker (h.anchored hname)
  present id name hx hmarker := h'.present id name (h.present id name hx hmarker) hmarker

theorem attrsKept_of_attr_eq {w w' : World} (h : ∀ id name, w'.attr id name = w.attr id name) :
    AttrsKept w w' :=
  ⟨fun id name _ hv _ _ => (h id name).trans hv, fun id name hv _ => (h id name).symm ▸ hv⟩

section Steps

variable {w : World} {fd : FileId} {name : Name} {value : Bytes}

/-- A write keeps what is there when the name is new, or that of the marker or an unused extent. -/
theorem attrsKept_setAttr
    (h : w.attr fd name = none ∨ name = resourceMarkerXattr ∨ w.Unanchored fd name) :
    AttrsKept w (w.setAttr fd name value) where
  value id name' v hv hmarker hname := by
    rw [attr_setAttr_of_ne, hv]
    rintro ⟨rfl, rfl⟩
    rcases h with hnone | hm | hun
    · exact absurd (hnone.symm.trans hv) (by simp)
    · exact hmarker hm
    · exact hname hun
  present id name' hv _ := by
    rw [attr_setAttr]
    split
    · rfl
    · exact hv

theorem attrsKept_removeMarker :
    AttrsKept w (w.modify fd (·.removeAttr resourceMarkerXattr)) where
  value _ _ _ hv hmarker _ := (attr_removeAttr_of_ne hmarker).trans hv
  present id name' hv hmarker := by rwa [attr_removeAttr_of_ne hmarker]

theorem attrsKept_modify {f : Inode → Inode} (h : ∀ inode, (f inode).attrs = inode.attrs) :
    AttrsKept w (w.modify fd f) :=
  attrsKept_of_attr_eq fun _ _ => attr_modify h

end Steps

/-! ## Calls -/

section Calls

variable {G : World → World → Prop} {op : MigrateOp} {w : World}

theorem tcNativeGet_spec {Q : Bytes → World → Prop} {E : Errno → World → Prop} (fd : FileId)
    (name : Name) (hG : ∀ w, G w w) (hok : ∀ v, w.attr fd name = some v → Q v w)
    (hfail : ∀ e, (tcMissingError e = true → w.attr fd name = none) → E e w) :
    Prog.wpE migrateKernel systemFault G (tcNativeGet fd name) Q E w := by
  have hfail' : ∀ e, tcMissingError e = false → E e w := by
    intro e he
    apply hfail e
    intro hmissing
    exact absurd (he.symm.trans hmissing) (by decide)
  apply Prog.wpE_bind.mpr
  apply wpE_sys ((w.getxattr fd name).map (·.length), w) (fun _ => rfl) hG (hG w) _ hfail'
  rw [World.getxattr]
  cases hattr : (w.inode fd).attrs.lookup name with
  | none => exact hfail .enoattr fun _ => hattr
  | some v =>
    show Prog.wpE migrateKernel systemFault G (if v.length = 0 then pure [] else _) Q E w
    split
    · rename_i hlen
      obtain rfl := List.length_eq_zero_iff.mp hlen
      exact hok [] hattr
    · apply Prog.wpE_bind.mpr
      apply wpE_sys (.ok v, w) _ hG (hG w) _ hfail'
      · intro fault
        show answer fault w ((w.getxattr fd name).bind _, w) = _
        rw [World.getxattr, hattr]
        show answer fault w (if v.length < v.length then _ else _, w) = _
        rw [if_neg (Nat.lt_irrefl _)]
      · show Prog.wpE migrateKernel systemFault G (if v.length ≠ v.length then _ else pure v) Q E w
        rw [if_neg fun h => h rfl]
        exact hok v hattr

theorem tcAirportFsetxattr_spec {Q : Unit → World → Prop} {E : Errno → World → Prop} (fd : FileId)
    (name : Name) (value : Bytes) (hG : ∀ w, G w w) (hset : G w (w.setAttr fd name value))
    (hok : Q () (w.setAttr fd name value)) (hfail : ∀ e, E e w)
    (hfail' : ∀ e, E e (w.setAttr fd name value)) :
    Prog.wpE migrateKernel systemFault G (tcAirportFsetxattr fd name value) Q E w := by
  apply Prog.wpE_bind.mpr
  refine wpE_sys (.ok (), w) (fun _ => rfl) hG (hG w) ?_ fun e _ => hfail e
  apply Prog.wpE_bind.mpr
  apply Prog.wpE_attempt.mpr
  refine wpE_sys (.ok (), w.setAttr fd name value) (fun _ => rfl) hG hset ?_ fun e _ => ?_
  · apply Prog.wpE_bind.mpr
    apply Prog.wpE_attempt.mpr
    exact wpE_sys (.ok (), w.setAttr fd name value) (fun _ => rfl) hG (hG _) hok fun e _ => hfail' e
  · apply Prog.wpE_bind.mpr
    apply Prog.wpE_attempt.mpr
    exact wpE_sys (.ok (), w) (fun _ => rfl) hG (hG _) (hfail e) fun _ _ => hfail e

/-- The attribute is there already, and equal or to be kept; or it is written. -/
theorem tcNativeWriteVerified_spec {Q : Unit → World → Prop} {E : Errno → World → Prop}
    (fd : FileId) (name : Name) (value : Bytes) (keepExisting : Bool) (hG : ∀ w, G w w)
    (hset : (keepExisting = true → w.attr fd name = none) → G w (w.setAttr fd name value))
    (hkept : ∀ v, w.attr fd name = some v → v = value ∨ keepExisting = true → Q () w)
    (hwrote : (keepExisting = true → w.attr fd name = none) → Q () (w.setAttr fd name value))
    (hfail : ∀ e, E e w) (hfail' : ∀ e, E e (w.setAttr fd name value)) :
    Prog.wpE migrateKernel systemFault G (tcNativeWriteVerified .copy fd name value keepExisting)
      Q E w := by
  have hwrite : (keepExisting = true → w.attr fd name = none) →
      Prog.wpE migrateKernel systemFault G (tcNativeWrite .copy fd name value) Q E w := by
    intro hnew
    apply Prog.wpE_bind.mpr
    refine tcAirportFsetxattr_spec fd name value hG (hset hnew) ?_ hfail hfail'
    apply Prog.wpE_bind.mpr
    apply Prog.wpE_attempt.mpr
    apply tcNativeGet_spec fd name hG
    · intro v hv
      rw [attr_setAttr_self] at hv
      obtain rfl := Option.some.inj hv
      show Prog.wpE migrateKernel systemFault G (if value = value then pure () else throw .eio) Q E _
      rw [if_pos rfl]
      exact hwrote hnew
    · exact fun e _ => hfail' .eio
  apply Prog.wpE_bind.mpr
  apply Prog.wpE_attempt.mpr
  apply tcNativeGet_spec fd name hG
  · intro v hv
    show Prog.wpE migrateKernel systemFault G
      (if v = value then pure () else if keepExisting = true then pure () else _) Q E w
    split
    · rename_i heq
      exact hkept v hv (.inl heq)
    · split
      · rename_i hkeep
        exact hkept v hv (.inr hkeep)
      · rename_i hkeep
        exact hwrite fun h => absurd h hkeep
  · intro e he
    show Prog.wpE migrateKernel systemFault G (if tcMissingError e = true then _ else throw e) Q E w
    split
    · rename_i hmissing
      exact hwrite fun _ => he hmissing
    · exact hfail e

end Calls

/-! ## The copy phase keeps attributes -/

section Copy

/-- The program, which belongs to the copy phase, keeps attributes wherever it starts. -/
abbrev KeepsAttrs (p : Mig α) : Prop := Prog.Guarantees migrateKernel systemFault AttrsKept p

theorem ReadsOnly.keepsAttrs {p : Mig α} (h : ReadsOnly p) : KeepsAttrs p := by
  apply Prog.UsesE.guarantees h
  intro op fault w hop
  show AttrsKept w (w.perform fault op).2
  rw [perform_reads hop]
  exact .refl w

theorem keepsAttrs_reads {op : MigrateOp} (hnative : op.writesNative = false)
    (hsource : op.writesSource = false) : KeepsAttrs (sys op) :=
  (reads_sys hnative hsource).keepsAttrs

/-- A call that changes one file without touching its attributes. -/
theorem keepsAttrs_sys {op : MigrateOp}
    (h : ∀ fault w, AttrsKept w (w.perform fault op).2) : KeepsAttrs (sys op) := by
  apply Prog.UsesE.guarantees (usesE_sys (P := fun op' => op' = op) rfl)
  rintro _ fault w rfl
  exact h fault w

theorem keepsAttrs_tcNativeWriteVerified (fd : FileId) (name : Name) (value : Bytes) :
    KeepsAttrs (tcNativeWriteVerified .copy fd name value true) := by
  intro w
  apply tcNativeWriteVerified_spec fd name value true AttrsKept.refl
  · intro hnew
    exact attrsKept_setAttr (.inl (hnew rfl))
  all_goals intros; trivial

/-- Extents are written while nothing refers to them. -/
theorem writeExtents_keepsAttrs (fd : FileId) (raw : Name) (count i : Nat) (rest : Bytes)
    {w : World} (hcount : i + count ≤ hfsStreamXattrs) (h : w.attr fd (streamPrefixText ++ raw) = none) :
    Prog.wpE migrateKernel systemFault AttrsKept (writeExtents .copy fd raw count i rest)
      (fun _ w' => w'.attr fd (streamPrefixText ++ raw) = none) (fun _ _ => True) w := by
  induction count generalizing i rest w with
  | zero => exact h
  | succ count ih =>
    apply Prog.wpE_bind.mpr
    apply tcNativeWriteVerified_spec fd (extentName i raw) (rest.take hfsXattrSize) false
      AttrsKept.refl
    · intro _
      exact attrsKept_setAttr (.inr (.inr ⟨i, by omega, raw, rfl, h⟩))
    · intro _ _ _
      exact ih (i + 1) _ (by omega) h
    · intro _
      apply ih (i + 1) _ (by omega)
      rw [attr_setAttr_of_ne fun heq => anchorOf_ne_extentName i raw raw heq.2, h]
    all_goals intros; trivial

/-- Without an error, whether there is an anchor. -/
theorem tcKeepNativeStream_spec {G : World → World → Prop} {Q : Bool → World → Prop}
    {E : Errno → World → Prop} {w : World} (fd : FileId) (anchorName : Name) (hG : ∀ w, G w w)
    (hkept : ∀ bytes, joinedStream (w.attr fd) anchorName = some bytes → Q true w)
    (hnone : w.attr fd anchorName = none → Q false w) (hfail : ∀ e, E e w) :
    Prog.wpE migrateKernel systemFault G (tcKeepNativeStream fd anchorName) Q E w := by
  have hextents : ∀ raw count i,
      Prog.wpE migrateKernel systemFault G (readNativeExtents fd raw count i)
        (fun _ w' => w' = w ∧ ∃ bytes, joinedExtents (w.attr fd) raw count i = some bytes)
        (fun _ w' => w' = w) w := by
    intro raw count
    induction count with
    | zero => exact fun i => ⟨rfl, [], rfl⟩
    | succ count ih =>
      intro i
      apply Prog.wpE_bind.mpr
      apply tcNativeGet_spec fd (extentName i raw) hG
      rotate_left
      · exact fun _ _ => rfl
      intro fragment hfragment
      split
      · rfl
      · apply Prog.wpE_mono (ih (i + 1)) _ fun _ _ h => h
        rintro _ _ ⟨rfl, rest, hrest⟩
        refine ⟨rfl, fragment ++ rest, ?_⟩
        rw [joinedExtents, hfragment, Option.bind_some, hrest, Option.map_some]
  apply Prog.wpE_bind.mpr
  apply Prog.wpE_attempt.mpr
  apply tcNativeGet_spec fd anchorName hG
  · intro first hfirst
    show Prog.wpE migrateKernel systemFault G
      (if first.length = 0 ∨ hfsXattrSize < first.length then throw .eio else _) Q E w
    split
    · exact hfail .eio
    · rename_i hlen
      rw [not_or] at hlen
      split
      · exact hfail .eio
      · rename_i hcount
        apply Prog.wpE_bind.mpr
        apply Prog.wpE_mono (hextents _ _ _)
        · rintro _ _ ⟨rfl, extents, hjoined⟩
          apply hkept
          exact joinedStream_of_extents hfirst (fun h => hlen.1 (List.length_eq_zero_iff.mpr h))
            (Nat.lt_of_not_le hcount) hjoined
        · rintro e _ rfl
          exact hfail e
  · intro e he
    show Prog.wpE migrateKernel systemFault G (if tcMissingError e = true then pure false else throw e)
      Q E w
    split
    · rename_i hmissing
      exact hnone (he hmissing)
    · exact hfail e

theorem keepsAttrs_tcWriteInternalStream (fd : FileId) (raw : Name) (logical : Bytes) :
    KeepsAttrs (tcWriteInternalStream .copy fd (streamPrefixText ++ raw) logical) := by
  intro w
  apply Prog.wpE_bind.mpr
  apply tcKeepNativeStream_spec fd (streamPrefixText ++ raw) AttrsKept.refl
  · intro _ _
    exact trivial
  · intro hnone
    show Prog.wpE migrateKernel systemFault AttrsKept
      (if hfsStreamXattrs ≤ extentsFor logical.length then throw Errno.eoverflow else _) _ _ w
    split
    · exact trivial
    · rename_i hfew
      apply Prog.wpE_bind.mpr
      rw [rawStreamName_append]
      apply Prog.wpE_mono (writeExtents_keepsAttrs fd raw _ 1 _ (by omega) hnone) _ fun _ _ h => h
      intro _ w' hnone'
      apply tcNativeWriteVerified_spec _ _ _ _ AttrsKept.refl
      · intro _
        exact attrsKept_setAttr (.inl hnone')
      all_goals intros; trivial
  · intro _
    exact trivial

theorem keepsAttrs_tcMigrateStream (fd id : FileId) {anchorName : Name}
    (h : tcStreamAnchor anchorName = true) : KeepsAttrs (tcMigrateStream .copy fd id anchorName) := by
  obtain ⟨raw, rfl⟩ := streamAnchor_iff.mp h
  rw [tcMigrateStream]
  split
  · exact Prog.guarantees_pure _
  · apply Prog.Guarantees.bind (readsRow_tcReadTdbStream _ _).readsOnly.keepsAttrs
    intro logical
    cases tcAppleNativeName (streamPrefixText ++ raw) with
    | none => exact keepsAttrs_tcWriteInternalStream fd raw logical
    | some native =>
      show KeepsAttrs (if hfsXattrSize < logical.length then throw .eoverflow else _)
      split
      · exact Prog.guarantees_throw _
      · exact keepsAttrs_tcNativeWriteVerified _ _ _

variable {m : Migration} (hm : m.phase = .copy)

include hm

theorem keepsAttrs_tcMigrateFinderinfo (fd id : FileId) :
    KeepsAttrs (tcMigrateFinderinfo m fd id) := by
  apply Prog.Guarantees.bind (Prog.Guarantees.attempt (reads_tcNativeGet _ _).keepsAttrs)
  intro existing
  cases existing with
  | ok existing =>
    show KeepsAttrs (if existing.length ≠ afpFinderSize then throw .eio else pure ())
    split
    · exact Prog.guarantees_throw _
    · exact Prog.guarantees_pure _
  | error e =>
    show KeepsAttrs (if tcMissingError e then _ else throw e)
    split
    · apply Prog.Guarantees.bind (Prog.Guarantees.attempt (readsRow_legacyFinderinfo _ _).readsOnly.keepsAttrs)
      intro finderinfo
      cases finderinfo with
      | error e =>
        show KeepsAttrs (if tcMissingError e then pure () else throw e)
        split
        · exact Prog.guarantees_pure _
        · exact Prog.guarantees_throw _
      | ok finderinfo =>
        show KeepsAttrs (if allZero finderinfo then pure () else _)
        split
        · exact Prog.guarantees_pure _
        · rw [hm]
          exact keepsAttrs_tcNativeWriteVerified _ _ _
    · exact Prog.guarantees_throw _

theorem keepsAttrs_tcMigrateAttributes (fd id : FileId) (names : List Name) :
    KeepsAttrs (tcMigrateAttributes m fd id names) := by
  induction names with
  | nil => exact Prog.guarantees_pure _
  | cons name names ih =>
    apply Prog.Guarantees.bind _ fun _ => ih
    rw [tcMigrateAttribute]
    split
    · exact Prog.guarantees_pure _
    · split
      · rename_i hanchor
        rw [hm]
        exact keepsAttrs_tcMigrateStream fd id hanchor
      · apply Prog.Guarantees.bind (readsRow_tcTdbGet _ _).readsOnly.keepsAttrs
        intro value
        split
        · exact Prog.guarantees_throw _
        · rw [hm]
          exact keepsAttrs_tcNativeWriteVerified _ _ _

theorem keepsAttrs_tcMigrateTdbRecord (retired : List Bytes) (fd id : FileId) :
    KeepsAttrs (tcMigrateTdbRecord m retired fd id) := by
  rw [tcMigrateTdbRecord]
  split
  · exact Prog.guarantees_pure _
  · split
    · exact Prog.guarantees_pure _
    · apply Prog.Guarantees.bind (keepsAttrs_reads rfl rfl)
      intro sized
      split
      · exact Prog.guarantees_pure _
      · apply Prog.Guarantees.bind (keepsAttrs_reads rfl rfl)
        intro list
        split
        · exact Prog.guarantees_throw _
        · exact Prog.Guarantees.bind (keepsAttrs_tcMigrateFinderinfo hm _ _) fun _ =>
            keepsAttrs_tcMigrateAttributes hm _ _ _

theorem keepsAttrs_tcMigrateAppledoubleFinderinfo (base : FileId) (ad : AppleDouble) :
    KeepsAttrs (tcMigrateAppledoubleFinderinfo m base ad) := by
  rw [tcMigrateAppledoubleFinderinfo]
  cases ad.finderinfo with
  | none => exact Prog.guarantees_pure _
  | some entry =>
    show KeepsAttrs (if allZero (slice ad.header entry.offset (entry.offset + afpFinderSize)) then
      pure () else _)
    split
    · exact Prog.guarantees_pure _
    · rw [hm]
      exact keepsAttrs_tcNativeWriteVerified _ _ _

theorem keepsAttrs_migrateXattrEntries (base : FileId) (header : Bytes) (table : XattrTable)
    (count offset : Nat) : KeepsAttrs (migrateXattrEntries m base header table count offset) := by
  induction count generalizing offset with
  | zero => exact Prog.guarantees_pure _
  | succ count ih =>
    rw [migrateXattrEntries]
    cases parseXattrEntry header table offset with
    | error e => exact Prog.guarantees_throw _
    | ok entry =>
      apply Prog.Guarantees.bind _ fun _ => ih _
      rw [tcMigrateXattrEntry]
      split
      · exact Prog.guarantees_pure _
      · split
        · exact Prog.guarantees_throw _
        · rw [hm]
          exact keepsAttrs_tcNativeWriteVerified _ _ _

theorem keepsAttrs_tcMigrateAppledoubleXattrs (base : FileId) (ad : AppleDouble) :
    KeepsAttrs (tcMigrateAppledoubleXattrs m base ad) := by
  rw [tcMigrateAppledoubleXattrs]
  cases parseXattrTable ad with
  | error e => exact Prog.guarantees_throw _
  | ok table =>
    cases table with
    | none => exact Prog.guarantees_pure _
    | some table => exact keepsAttrs_migrateXattrEntries hm _ _ _ _ _

omit hm

theorem keepsAttrs_tcSetResourceMarker (base : FileId) (length : Nat) :
    KeepsAttrs (tcSetResourceMarker base length) := by
  intro w
  apply tcAirportFsetxattr_spec base resourceMarkerXattr (resourceMarker length) AttrsKept.refl
  · exact attrsKept_setAttr (.inr (.inl rfl))
  all_goals intros; trivial

theorem keepsAttrs_tcRemoveResourceMarker (base : FileId) :
    KeepsAttrs (tcRemoveResourceMarker base) := by
  have hremove : KeepsAttrs (sys (.removexattr base resourceMarkerXattr)) := by
    apply keepsAttrs_sys
    intro fault w
    apply answer_cases _ (.refl w)
    cases (w.inode base).attrs.lookup resourceMarkerXattr with
    | none => exact .refl w
    | some value => exact attrsKept_removeMarker
  apply Prog.Guarantees.bind
  · apply Prog.Guarantees.attempt
    apply Prog.Guarantees.bind (keepsAttrs_reads rfl rfl)
    intro _
    apply Prog.Guarantees.bind hremove.attempt
    intro result
    apply Prog.Guarantees.bind (keepsAttrs_reads rfl rfl).attempt
    intro unlocked
    cases result with
    | error e => exact Prog.guarantees_throw _
    | ok _ => cases unlocked <;> exact fun _ => trivial
  · intro removed
    cases removed with
    | error e =>
      show KeepsAttrs (if tcMissingError e then pure () else throw e)
      split
      · exact Prog.guarantees_pure _
      · exact Prog.guarantees_throw _
    | ok _ => exact Prog.guarantees_pure _

theorem keepsAttrs_ftruncate (fork : FileId) (size : Nat) : KeepsAttrs (sys (.ftruncate fork size)) :=
  keepsAttrs_sys fun _ w => answer_cases _ (.refl w) (attrsKept_modify fun _ => rfl)

theorem keepsAttrs_copyChunks (source fork : FileId) (entry : AdEntry) (chunks copied : Nat) :
    KeepsAttrs (copyChunks source fork entry chunks copied) := by
  induction chunks generalizing copied with
  | zero => exact Prog.guarantees_pure _
  | succ chunks ih =>
    apply Prog.Guarantees.bind (keepsAttrs_reads rfl rfl)
    intro bytes
    split
    · exact Prog.guarantees_throw _
    · apply Prog.Guarantees.bind
      · exact keepsAttrs_sys fun _ w => answer_cases _ (.refl w) (attrsKept_modify fun _ => rfl)
      · intro written
        split
        · exact Prog.guarantees_throw _
        · exact ih _

theorem keepsAttrs_tcCopyResource (base source fork : FileId) (entry : AdEntry) (marked : Bool) :
    KeepsAttrs (tcCopyResource base source fork entry marked) := by
  have hmark : KeepsAttrs (tcMarkResource base entry.length marked) := by
    rw [tcMarkResource]
    split
    · exact Prog.guarantees_pure _
    · exact keepsAttrs_tcSetResourceMarker _ _
  apply Prog.Guarantees.bind hmark
  intro _
  apply Prog.Guarantees.bind (keepsAttrs_ftruncate _ _)
  intro _
  apply Prog.Guarantees.bind (keepsAttrs_copyChunks _ _ _ _ _)
  intro _
  apply Prog.Guarantees.bind (keepsAttrs_ftruncate _ _)
  intro _
  apply Prog.Guarantees.bind (keepsAttrs_reads rfl rfl)
  intro _
  apply Prog.Guarantees.bind (reads_tcVerifyResource _ _ _).keepsAttrs
  intro different
  split
  · exact Prog.guarantees_throw _
  · exact keepsAttrs_tcRemoveResourceMarker _

theorem keepsAttrs_openResource (path : Path) (create : Bool) :
    KeepsAttrs (sys (.openResource path create)) := by
  apply keepsAttrs_sys
  intro fault w
  apply answer_cases _ (.refl w)
  cases w.path path with
  | none => exact .refl w
  | some id =>
    show AttrsKept w (w.openResource id create).2
    rw [World.openResource]
    split
    · exact .refl w
    · split
      · exact attrsKept_modify fun _ => rfl
      · exact .refl w

theorem keepsAttrs_tcMigrateResource (base source : FileId) (path : Path)
    (resource : Option AdEntry) :
    KeepsAttrs (tcMigrateResource m base source path resource) := by
  cases resource with
  | none => exact Prog.guarantees_pure _
  | some entry =>
    rw [tcMigrateResource]
    split
    · exact Prog.guarantees_pure _
    · apply Prog.Guarantees.bind (readsRow_tcIsEmptyResourcefork [] _ _).readsOnly.keepsAttrs
      intro blank
      split
      · exact Prog.guarantees_pure _
      · apply Prog.Guarantees.bind (keepsAttrs_openResource _ _)
        intro fork
        apply Prog.Guarantees.bind (keepsAttrs_reads rfl rfl)
        intro nativeSize
        apply Prog.Guarantees.bind (reads_tcResourceMarkerState _ _).keepsAttrs
        intro marked
        split
        · exact Prog.guarantees_throw _
        · split
          · exact Prog.Guarantees.bind (reads_tcVerifyResource _ _ _).keepsAttrs fun _ =>
              Prog.guarantees_pure _
          · exact keepsAttrs_tcCopyResource _ _ _ _ _

include hm

theorem keepsAttrs_tcMigrateAppledouble (base : FileId) (path : Path) :
    KeepsAttrs (tcMigrateAppledouble m base path) := by
  apply Prog.Guarantees.bind (keepsAttrs_reads rfl rfl).attempt
  intro opened
  cases opened with
  | error e =>
    show KeepsAttrs (if e = .enoent then pure () else throw e)
    split
    · exact Prog.guarantees_pure _
    · exact Prog.guarantees_throw _
  | ok source =>
    apply Prog.Guarantees.bind (keepsAttrs_reads rfl rfl)
    intro sourceSt
    split
    · exact Prog.guarantees_throw _
    · apply Prog.Guarantees.bind (readsRow_tcParseAppledouble [] _ _).readsOnly.keepsAttrs
      intro parsed
      cases parsed with
      | none => exact Prog.guarantees_pure _
      | some ad =>
        show KeepsAttrs (tcMigrateSidecar m base path source sourceSt ad)
        rw [tcMigrateSidecar]
        split
        · exact Prog.guarantees_throw _
        · apply Prog.Guarantees.bind (keepsAttrs_tcMigrateAppledoubleFinderinfo hm _ _)
          intro _
          apply Prog.Guarantees.bind (keepsAttrs_tcMigrateAppledoubleXattrs hm _ _)
          intro _
          apply Prog.Guarantees.bind (keepsAttrs_tcMigrateResource _ _ _ _)
          intro _
          rw [hm]
          exact Prog.guarantees_pure _

theorem keepsAttrs_tcScanFile (retired : List Bytes) (path : Path) (id : FileId)
    (scanSidecar : Bool) : KeepsAttrs (tcScanFile m retired path id scanSidecar) := by
  apply Prog.Guarantees.bind (keepsAttrs_reads rfl rfl)
  intro fd
  apply Prog.Guarantees.bind (keepsAttrs_reads rfl rfl)
  intro opened
  split
  · exact Prog.guarantees_throw _
  · apply Prog.Guarantees.bind (keepsAttrs_tcMigrateTdbRecord hm _ _ _)
    intro _
    have hsidecar : KeepsAttrs (tcScanSidecar m fd path scanSidecar) := by
      rw [tcScanSidecar]
      split
      · exact keepsAttrs_tcMigrateAppledouble hm _ _
      · exact Prog.guarantees_pure _
    apply Prog.Guarantees.bind hsidecar
    intro _
    rw [tcRetireTdbRecord, hm]
    exact Prog.guarantees_pure _

theorem keepsAttrs_migrateRoots (roots : Roots) : KeepsAttrs (migrateRoots m roots) := by
  intro w
  apply Prog.wpE_bind.mpr
  apply Prog.wpE_mono (scanRoots_keeps (I := fun _ _ => True) AttrsKept.refl _ roots.paths trivial)
  · intro scanned w' _
    rw [tcUnlinkTdb, hm, if_neg fun h => by simp at h]
    exact trivial
  · exact fun _ _ h => h
  · intro retired path id scanSidecar w _ _
    exact keepsAttrs_tcScanFile hm retired path id scanSidecar w

omit hm in
/-- Every step of a copy keeps the attributes there are. -/
theorem keepsAttrs_migrate (metadata : LegacyMetadata) (withTdb : Bool) (roots : Roots) :
    KeepsAttrs (migrate .copy metadata withTdb roots) :=
  Prog.Guarantees.bind (reads_openTdb _ _).keepsAttrs fun keys =>
    @keepsAttrs_migrateRoots ⟨.copy, metadata, withTdb, keys⟩ rfl roots

end Copy

end TimeCapsule.Migrate
