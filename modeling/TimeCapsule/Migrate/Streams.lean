import TimeCapsule.Migrate.Native

/-!
# Streams that have been migrated

A stream of the database that is migrated without an error can be read through the backend from then
on, as the value it had natively before or else as the bytes that the database has.
-/

namespace TimeCapsule.Migrate

open Lib

/-- The value of an attribute in the database. -/
def World.rowAttr (w : World) (id : FileId) (name : Name) : Option Bytes :=
  (w.row (pushFileId16 id)).toOption.bind (·.lookup name)

/-- What the database has for a stream. -/
def World.storedStream (w : World) (id : FileId) (anchor : Name) : Option Bytes :=
  joinedStream (w.rowAttr id) anchor

/-- What a file has natively for a stream. -/
def World.nativeStream (w : World) (fd : FileId) (anchor : Name) : Option Bytes :=
  match tcAppleNativeName anchor with
  | some native => w.attr fd native
  | none => joinedStream (w.attr fd) anchor

/-- A stream as the file server reads it: all its attributes go through the backend. -/
def World.backendStream (w : World) (fd : FileId) (anchor : Name) : Option Bytes :=
  joinedStream (xattrTdbFgetxattr (w.attr fd)) anchor

/-- The names that the backend reports. -/
def World.backendList (w : World) (fd : FileId) : List Name :=
  tcNativeListWithAppleStreams ((w.inode fd).attrs.map Prod.fst)

/-! ## Reading the database -/

section Stored

variable {G : World → World → Prop} {E : Errno → World → Prop} {w : World} {id : FileId}

theorem tcTdbGet_spec {Q : Bytes → World → Prop} (name : Name) (hG : ∀ w, G w w)
    (hok : ∀ v, w.rowAttr id name = some v → Q v w) (hfail : ∀ e, E e w) :
    Prog.wpE migrateKernel systemFault G (tcTdbGet id name) Q E w := by
  refine wpE_sys ((w.row (pushFileId16 id)).bind fun row =>
    (row.lookup name).elim (.error .enoattr) .ok, w) (fun _ => rfl) hG (hG w) ?_ fun e _ => hfail e
  cases hrow : w.row (pushFileId16 id) with
  | error e => exact hfail e
  | ok row =>
    show Prog.Ends Q E ((row.lookup name).elim (.error .enoattr) .ok) w
    cases hlookup : row.lookup name with
    | none => exact hfail .enoattr
    | some v =>
      apply hok v
      rw [World.rowAttr, hrow]
      exact hlookup

theorem readTdbExtents_spec (raw : Name) (count i : Nat) (hG : ∀ w, G w w) :
    Prog.wpE migrateKernel systemFault G (readTdbExtents id raw count i)
      (fun bytes w' => w' = w ∧ joinedExtents (w.rowAttr id) raw count i = some bytes)
      (fun _ w' => w' = w) w := by
  induction count generalizing i with
  | zero => exact ⟨rfl, rfl⟩
  | succ count ih =>
    apply Prog.wpE_bind.mpr
    apply tcTdbGet_spec (extentName i raw) hG
    · intro extent hextent
      apply Prog.wpE_bind.mpr
      apply Prog.wpE_mono (ih (i + 1)) _ fun _ _ h => h
      rintro rest _ ⟨rfl, hrest⟩
      refine ⟨rfl, ?_⟩
      rw [joinedExtents, hextent, Option.bind_some, hrest, Option.map_some]
    · exact fun _ => rfl

theorem tcReadTdbStream_spec {Q : Bytes → World → Prop} (anchorName : Name) (hG : ∀ w, G w w)
    (hok : ∀ bytes, w.storedStream id anchorName = some bytes → Q bytes w)
    (hfail : ∀ e, E e w) :
    Prog.wpE migrateKernel systemFault G (tcReadTdbStream id anchorName) Q E w := by
  apply Prog.wpE_bind.mpr
  apply tcTdbGet_spec anchorName hG _ hfail
  intro anchor hanchor
  split
  · exact hfail .einval
  · rename_i hne
    split
    · exact hfail .eoverflow
    · rename_i hcount
      have hread := @readTdbExtents_spec G w id (rawStreamName anchorName) (extentCount anchor) 1 hG
      apply Prog.wpE_bind.mpr
      apply Prog.wpE_mono hread
      · rintro _ _ ⟨rfl, -⟩
        apply Prog.wpE_bind.mpr
        apply Prog.wpE_mono hread
        · rintro extents _ ⟨rfl, hextents⟩
          exact hok _ (joinedStream_of_extents hanchor hne (Nat.lt_of_not_le hcount) hextents)
        · rintro e _ rfl
          exact hfail e
      · rintro e _ rfl
        exact hfail e

end Stored

/-! ## Writing a stream -/

section Written

variable {G : World → World → Prop} {w : World} {fd : FileId}

/-- The attribute has the value, and no other attribute has changed. -/
structure Written (fd : FileId) (name : Name) (value : Bytes) (w w' : World) : Prop where
  value : w'.attr fd name = some value
  other : ∀ name', name' ≠ name → w'.attr fd name' = w.attr fd name'

theorem written_setAttr (name : Name) (value : Bytes) :
    Written fd name value w (w.setAttr fd name value) where
  value := attr_setAttr_self
  other _ h := attr_setAttr_of_ne fun heq => h heq.2

theorem tcNativeWriteVerified_written (name : Name) (value : Bytes) :
    Prog.wpE migrateKernel systemFault (fun _ _ => True)
      (tcNativeWriteVerified .copy fd name value false) (fun _ w' => Written fd name value w w')
      (fun _ _ => True) w := by
  apply tcNativeWriteVerified_spec fd name value false (fun _ => trivial)
  · exact fun _ => trivial
  · intro v hv heq
    rcases heq with rfl | h
    · exact ⟨hv, fun _ _ => rfl⟩
    · exact absurd h (by decide)
  · exact fun _ => written_setAttr name value
  · exact fun _ => trivial
  · exact fun _ => trivial

theorem tcNativeWriteVerified_kept (name : Name) (value : Bytes) :
    Prog.wpE migrateKernel systemFault (fun _ _ => True)
      (tcNativeWriteVerified .copy fd name value true)
      (fun _ w' => ∃ v, w'.attr fd name = some v ∧
        (w.attr fd name = some v ∨ w.attr fd name = none ∧ v = value))
      (fun _ _ => True) w := by
  apply tcNativeWriteVerified_spec fd name value true (fun _ => trivial)
  · exact fun _ => trivial
  · exact fun v hv _ => ⟨v, hv, .inl hv⟩
  · exact fun hnew => ⟨value, attr_setAttr_self, .inr ⟨hnew rfl, rfl⟩⟩
  · exact fun _ => trivial
  · exact fun _ => trivial

/-- The extents hold the rest, and no other attribute has changed. -/
structure ExtentsWritten (fd : FileId) (raw : Name) (count i : Nat) (rest : Bytes) (w w' : World) :
    Prop where
  joined : joinedExtents (w'.attr fd) raw count i = some rest
  other : ∀ name, (∀ j, i ≤ j → j < i + count → name ≠ extentName j raw) →
    w'.attr fd name = w.attr fd name

theorem writeExtents_written (raw : Name) (count i : Nat) (rest : Bytes)
    (hcount : i + count ≤ hfsStreamXattrs) (hrest : rest.length ≤ count * hfsXattrSize) :
    Prog.wpE migrateKernel systemFault (fun _ _ => True) (writeExtents .copy fd raw count i rest)
      (fun _ w' => ExtentsWritten fd raw count i rest w w') (fun _ _ => True) w := by
  induction count generalizing i rest w with
  | zero =>
    obtain rfl : rest = [] := List.length_eq_zero_iff.mp (by omega)
    exact ⟨rfl, fun _ _ => rfl⟩
  | succ count ih =>
    have hdrop : (rest.drop hfsXattrSize).length ≤ count * hfsXattrSize := by
      rw [List.length_drop]
      rw [Nat.succ_mul] at hrest
      omega
    apply Prog.wpE_bind.mpr
    apply Prog.wpE_mono (tcNativeWriteVerified_written _ _) _ fun _ _ h => h
    intro _ w₁ hfirst
    apply Prog.wpE_mono (ih (i + 1) (rest.drop hfsXattrSize) (by omega) hdrop) _ fun _ _ h => h
    intro _ w₂ hmore
    refine ⟨?_, ?_⟩
    · have hlater : ∀ j, i + 1 ≤ j → j < i + 1 + count → extentName i raw ≠ extentName j raw := by
        intro j hj hlt heq
        have := (extentName_inj (by omega) (by omega) heq).1
        omega
      have hfirst' : w₂.attr fd (extentName i raw) = some (rest.take hfsXattrSize) :=
        (hmore.other _ hlater).trans hfirst.value
      rw [joinedExtents, hfirst', Option.bind_some, hmore.joined, Option.map_some,
        List.take_append_drop]
    · intro name hname
      rw [hmore.other name fun j hj hlt => hname j (by omega) (by omega),
        hfirst.other name (hname i (Nat.le_refl i) (by omega))]

/-- So many extents are enough for what does not fit into the first fragment. -/
theorem drop_le_extentsFor (logical : Bytes) :
    (logical.drop (hfsXattrSize - 1)).length ≤ extentsFor logical.length * hfsXattrSize := by
  rw [List.length_drop, extentsFor]
  show _ ≤ (if logical.length - min logical.length (hfsXattrSize - 1) = 0 then 0
    else (logical.length - min logical.length (hfsXattrSize - 1) + hfsXattrSize - 1) /
      hfsXattrSize) * hfsXattrSize
  have hmod := Nat.div_add_mod (logical.length - min logical.length (hfsXattrSize - 1) +
    hfsXattrSize - 1) hfsXattrSize
  have hlt := Nat.mod_lt (logical.length - min logical.length (hfsXattrSize - 1) +
    hfsXattrSize - 1) (show 0 < hfsXattrSize by decide)
  rw [Nat.mul_comm] at hmod
  split <;> omega

theorem extentCount_append (bytes : Bytes) {n : Nat} (h : n < hfsStreamXattrs) :
    extentCount (bytes ++ [n.toUInt8]) = n := by
  rw [extentCount, List.getLast?_append, List.getLast?_singleton]
  show n.toUInt8.toNat = n
  rw [hfsStreamXattrs] at h
  rw [Nat.toUInt8, UInt8.toNat_ofNat']
  exact Nat.mod_eq_of_lt (by omega)

/-- An anchor that was written behind its extents makes them a stream. -/
theorem joinedStream_written {raw : Name} {logical : Bytes} {w w' : World}
    (hanchor : Written fd (streamPrefixText ++ raw)
      (logical.take (hfsXattrSize - 1) ++ [(extentsFor logical.length).toUInt8]) w w')
    (hcount : extentsFor logical.length < hfsStreamXattrs)
    (hextents : joinedExtents (w.attr fd) raw (extentsFor logical.length) 1 =
      some (logical.drop (hfsXattrSize - 1))) :
    joinedStream (w'.attr fd) (streamPrefixText ++ raw) = some logical := by
  have hjoined : joinedExtents (w'.attr fd) raw (extentsFor logical.length) 1 =
      some (logical.drop (hfsXattrSize - 1)) := by
    rw [← hextents]
    apply joinedExtents_congr
    intro j _ _
    exact hanchor.other _ fun heq => anchorOf_ne_extentName j raw raw heq.symm
  have hwhole := joinedStream_of_extents hanchor.value (by simp)
    ((extentCount_append _ hcount).symm ▸ hcount)
    (by rw [rawStreamName_append, extentCount_append _ hcount]; exact hjoined)
  rw [hwhole, List.dropLast_concat, List.take_append_drop]

/-- Without an error a stream ends up as it was, or as it is in the database. -/
theorem tcWriteInternalStream_spec (raw : Name) (logical : Bytes) :
    Prog.wpE migrateKernel systemFault (fun _ _ => True)
      (tcWriteInternalStream .copy fd (streamPrefixText ++ raw) logical)
      (fun _ w' => ∃ bytes, joinedStream (w'.attr fd) (streamPrefixText ++ raw) = some bytes ∧
        (joinedStream (w.attr fd) (streamPrefixText ++ raw) = some bytes ∨
          joinedStream (w.attr fd) (streamPrefixText ++ raw) = none ∧ bytes = logical))
      (fun _ _ => True) w := by
  apply Prog.wpE_bind.mpr
  apply tcKeepNativeStream_spec fd (streamPrefixText ++ raw) (fun _ => trivial)
  · exact fun bytes hbytes => ⟨bytes, hbytes, .inl hbytes⟩
  · intro hnone
    show Prog.wpE migrateKernel systemFault (fun _ _ => True)
      (if hfsStreamXattrs ≤ extentsFor logical.length then throw Errno.eoverflow else _) _ _ w
    split
    · exact trivial
    · rename_i hfew
      have hcount : extentsFor logical.length < hfsStreamXattrs := Nat.lt_of_not_le hfew
      apply Prog.wpE_bind.mpr
      rw [rawStreamName_append]
      apply Prog.wpE_mono (writeExtents_written raw _ 1 _ (by omega) (drop_le_extentsFor logical))
        _ fun _ _ h => h
      intro _ w₁ hextents
      apply Prog.wpE_mono (tcNativeWriteVerified_written _ _) _ fun _ _ h => h
      intro _ w₂ hanchor
      exact ⟨logical, joinedStream_written hanchor hcount hextents.joined,
        .inr ⟨by rw [joinedStream, hnone, Option.bind_none], rfl⟩⟩
  · exact fun _ => trivial

/-- A migrated stream is there natively, with the value it had before or the one in the database. -/
theorem tcMigrateStream_spec (id : FileId) {anchor : Name} (hanchor : tcStreamAnchor anchor = true)
    (hafp : anchor ≠ afpinfoXattr) :
    Prog.wpE migrateKernel systemFault (fun _ _ => True) (tcMigrateStream .copy fd id anchor)
      (fun _ w' => ∃ bytes, w'.nativeStream fd anchor = some bytes ∧
        (w.nativeStream fd anchor = some bytes ∨
          w.nativeStream fd anchor = none ∧ w.storedStream id anchor = some bytes))
      (fun _ _ => True) w := by
  obtain ⟨raw, rfl⟩ := streamAnchor_iff.mp hanchor
  rw [tcMigrateStream, if_neg hafp]
  apply Prog.wpE_bind.mpr
  apply tcReadTdbStream_spec _ fun _ => trivial
  · intro logical hstored
    simp only [World.nativeStream]
    cases tcAppleNativeName (streamPrefixText ++ raw) with
    | none =>
      apply Prog.wpE_mono (tcWriteInternalStream_spec raw logical) _ fun _ _ h => h
      rintro _ w' ⟨bytes, hbytes, hbefore | ⟨hbefore, rfl⟩⟩
      · exact ⟨bytes, hbytes, .inl hbefore⟩
      · exact ⟨bytes, hbytes, .inr ⟨hbefore, hstored⟩⟩
    | some native =>
      show Prog.wpE migrateKernel systemFault (fun _ _ => True)
        (if hfsXattrSize < logical.length then throw Errno.eoverflow else _) _ _ w
      split
      · exact trivial
      · apply Prog.wpE_mono (tcNativeWriteVerified_kept native logical) _ fun _ _ h => h
        rintro _ w' ⟨bytes, hbytes, hbefore | ⟨hbefore, rfl⟩⟩
        · exact ⟨bytes, hbytes, .inl hbefore⟩
        · exact ⟨bytes, hbytes, .inr ⟨hbefore, hstored⟩⟩
  · exact fun _ => trivial

end Written

/-! ## Reading through the backend -/

section Backend

variable {w w' : World} {fd : FileId} {anchor native : Name} {bytes : Bytes}

/-- A name of the backend's own is not that of an extent. -/
theorem appleStreamNativeName_extentName (i : Nat) (raw : Name) :
    tcAppleStreamNativeName (extentName i raw) = none := by
  have hprefix : (streamPrefixText ++ comApple).isPrefixOf (extentName i raw) = false := by
    cases hp : (streamPrefixText ++ comApple).isPrefixOf (extentName i raw) with
    | false => rfl
    | true =>
      obtain ⟨rest, hrest⟩ := List.isPrefixOf_iff_prefix.mp hp
      rw [List.append_assoc] at hrest
      exact absurd hrest (anchorOf_ne_extentName i _ raw)
  rw [tcAppleStreamNativeName, hprefix]
  simp

theorem extentName_ne_resourcefork (i : Nat) (raw : Name) :
    extentName i raw ≠ resourceforkXattr := by
  intro h
  have htake := congrArg (List.take extPrefixText.length) h
  rw [extentName, List.append_assoc, List.append_assoc, List.take_left] at htake
  exact absurd htake (by decide)

theorem anchorOf_ne_resourcefork (raw : Name) : streamPrefixText ++ raw ≠ resourceforkXattr := by
  intro h
  have htake := congrArg (List.take streamPrefixText.length) h
  rw [List.take_left] at htake
  exact absurd htake (by decide)

/-- An Apple stream has one attribute, which the backend ends with a zero. -/
theorem fgetxattr_appleStream (hanchor : tcStreamAnchor anchor = true)
    (hnative : tcAppleNativeName anchor = some native)
    (howned : tcFruitOwnedNativeXattr native = false) :
    xattrTdbFgetxattr (w.attr fd) anchor = (w.attr fd native).map (· ++ [0]) := by
  rw [xattrTdbFgetxattr, ← appleNativeName_eq hanchor, hnative]
  show (if tcFruitOwnedNativeXattr native then none else _) = _
  rw [howned]
  rfl

/-- The backend shows every stream that it does not hide as the file has it natively. -/
theorem backendStream_eq (hanchor : tcStreamAnchor anchor = true)
    (howned : ∀ native, tcAppleNativeName anchor = some native →
      tcFruitOwnedNativeXattr native = false) :
    w.backendStream fd anchor = w.nativeStream fd anchor := by
  obtain ⟨raw, rfl⟩ := streamAnchor_iff.mp hanchor
  rw [World.backendStream, World.nativeStream]
  cases hnative : tcAppleNativeName (streamPrefixText ++ raw) with
  | some native =>
    show _ = w.attr fd native
    rw [joinedStream, fgetxattr_appleStream hanchor hnative (howned native hnative)]
    cases w.attr fd native with
    | none => rfl
    | some v =>
      rw [Option.map_some, Option.bind_some, extentCount, List.getLast?_concat]
      show (if v ++ [0] = [] ∨ hfsStreamXattrs ≤ 0 then none else some ((v ++ [0]).dropLast ++ [])) = _
      rw [if_neg (by simp [hfsStreamXattrs]), List.dropLast_concat, List.append_nil]
  | none =>
    have hanchored : xattrTdbFgetxattr (w.attr fd) (streamPrefixText ++ raw) =
        w.attr fd (streamPrefixText ++ raw) := by
      rw [xattrTdbFgetxattr, ← appleNativeName_eq hanchor, hnative]
      exact if_neg (anchorOf_ne_resourcefork raw)
    show joinedStream _ _ = joinedStream (w.attr fd) _
    rw [joinedStream, hanchored, joinedStream]
    apply congrArg
    funext first
    split
    · rfl
    · apply congrArg
      apply joinedExtents_congr
      intro j _ _
      rw [xattrTdbFgetxattr, appleStreamNativeName_extentName]
      exact if_neg (extentName_ne_resourcefork j _)

theorem appleNative_ne_marker (h : comApple.isPrefixOf native = true) :
    native ≠ resourceMarkerXattr := by
  rintro rfl
  exact absurd h (by decide)

theorem appleNative_ne_extentName (h : comApple.isPrefixOf native = true) (i : Nat) (raw : Name) :
    native ≠ extentName i raw := by
  rintro rfl
  obtain ⟨rest, hrest⟩ := List.isPrefixOf_iff_prefix.mp h
  have htake := congrArg (List.take comApple.length) hrest
  rw [List.take_left, extentName, List.append_assoc, List.append_assoc,
    List.take_append_of_le_length (by decide)] at htake
  exact absurd htake (by decide)

/-- A stream that is there natively stays as it is. -/
theorem AttrsKept.nativeStream (h : AttrsKept w w') (hanchor : tcStreamAnchor anchor = true)
    (hbytes : w.nativeStream fd anchor = some bytes) : w'.nativeStream fd anchor = some bytes := by
  obtain ⟨raw, rfl⟩ := streamAnchor_iff.mp hanchor
  rw [World.nativeStream] at hbytes ⊢
  cases hnative : tcAppleNativeName (streamPrefixText ++ raw) with
  | some native =>
    rw [hnative] at hbytes
    have happle := (appleNativeName_eq_some hanchor hnative).2
    apply h.value fd native bytes hbytes (appleNative_ne_marker happle)
    rintro ⟨i, -, raw', heq, -⟩
    exact appleNative_ne_extentName happle i raw' heq
  | none =>
    rw [hnative] at hbytes
    obtain ⟨first, extents, hfirst, hne, hcount, hextents, rfl⟩ := joinedStream_eq_some hbytes
    have hfirst' := h.value fd _ first hfirst (anchorOf_ne_marker raw) (not_unanchored_anchor w fd raw)
    apply joinedStream_of_extents hfirst' hne hcount
    rw [rawStreamName_append] at hextents ⊢
    rw [← hextents]
    apply joinedExtents_congr
    intro j hj hlt
    obtain ⟨extent, hextent⟩ := joinedExtents_present hextents hj hlt
    rw [hextent]
    apply h.value fd _ extent hextent (extentName_ne_marker j raw)
    rintro ⟨i, hi, raw', heq, hnone⟩
    obtain ⟨-, rfl⟩ := extentName_inj (show j < hfsStreamXattrs by omega) hi heq
    exact absurd (hfirst.symm.trans hnone) (by simp)

theorem mem_names_of_attr {value : Bytes} {name : Name} (h : w.attr fd name = some value) :
    name ∈ (w.inode fd).attrs.map Prod.fst := by
  obtain ⟨entry, hentry, hname⟩ := List.lookup_isSome_iff.mp (Option.isSome_of_eq_some h)
  exact beq_iff_eq.mp hname ▸ List.mem_map_of_mem hentry

theorem mem_appendOnce {kept : List Name} {name first : Name} (h : name ∈ kept ∨ name = first) :
    name ∈ appendOnce kept first := by
  rw [appendOnce]
  split
  · rename_i hcontains
    rcases h with hkept | rfl
    · exact hkept
    · exact List.contains_iff_mem.mp hcontains
  · rcases h with hkept | rfl
    · exact List.mem_append_left _ hkept
    · exact List.mem_append_right _ List.mem_cons_self

theorem mem_airportFlistxattr {names : List Name} {name : Name} (h : name ∈ names) :
    name ∈ tcAirportFlistxattr names := by
  have hfold : ∀ (names kept : List Name), name ∈ kept ∨ name ∈ names →
      name ∈ names.foldl appendOnce kept := by
    intro names
    induction names with
    | nil => exact fun kept h => h.elim id fun h => absurd h List.not_mem_nil
    | cons first names ih =>
      intro kept hmem
      apply ih
      rcases hmem with hkept | hmem
      · exact .inl (mem_appendOnce (.inl hkept))
      · rcases List.mem_cons.mp hmem with hfirst | hrest
        · exact .inl (mem_appendOnce (.inr hfirst))
        · exact .inr hrest
  exact hfold names [] (.inr h)

/-- The backend reports every stream that it does not hide. -/
theorem mem_backendList (hanchor : tcStreamAnchor anchor = true)
    (howned : ∀ native, tcAppleNativeName anchor = some native →
      tcFruitOwnedNativeXattr native = false)
    (hbytes : w.nativeStream fd anchor = some bytes) : anchor ∈ w.backendList fd := by
  rw [World.nativeStream] at hbytes
  cases hnative : tcAppleNativeName anchor with
  | some native =>
    rw [hnative] at hbytes
    obtain ⟨hname, happle⟩ := appleNativeName_eq_some hanchor hnative
    apply List.mem_flatMap.mpr
    refine ⟨native, mem_airportFlistxattr (mem_names_of_attr hbytes), ?_⟩
    rw [howned native hnative, happle, hname]
    exact List.mem_cons_of_mem _ List.mem_cons_self
  | none =>
    rw [hnative] at hbytes
    obtain ⟨first, _, hfirst, -⟩ := joinedStream_eq_some hbytes
    apply List.mem_flatMap.mpr
    refine ⟨anchor, mem_airportFlistxattr (mem_names_of_attr hfirst), ?_⟩
    obtain ⟨raw, rfl⟩ := streamAnchor_iff.mp hanchor
    have hplain : comApple.isPrefixOf (streamPrefixText ++ raw) = false := by
      cases happle : comApple.isPrefixOf (streamPrefixText ++ raw) with
      | false => rfl
      | true =>
        obtain ⟨rest, hrest⟩ := List.isPrefixOf_iff_prefix.mp happle
        have htake := congrArg (List.take comApple.length) hrest
        rw [List.take_left, List.take_append_of_le_length (by decide)] at htake
        exact absurd htake (by decide)
    have hfinder : streamPrefixText ++ raw ≠ finderinfoXattr := by
      intro heq
      rw [heq] at hplain
      exact absurd hplain (by decide)
    rw [tcFruitOwnedNativeXattr, decide_eq_false hfinder,
      decide_eq_false (anchorOf_ne_resourcefork raw), hplain]
    exact List.mem_singleton_self _

end Backend

/-! ## A copy run -/

/-- When a copy comes to a stream and migrates it without an error, the backend reads it from then on,
as it was natively until then or else as the database has it, and reports its name. -/
theorem migrated_stream_is_readable {metadata : LegacyMetadata} {withTdb : Bool} {roots : Roots}
    {fd id : FileId} {anchor : Name} {w₀ w₁ w₂ w₃ : World}
    {k : Except Errno Unit → Prog MigrateOp MigrateAns (Except Errno Bool)}
    (hanchor : tcStreamAnchor anchor = true) (hafp : anchor ≠ afpinfoXattr)
    (howned : ∀ native, tcAppleNativeName anchor = some native →
      tcFruitOwnedNativeXattr native = false)
    (hreach : Prog.Reaches migrateKernel systemFault (migrate .copy metadata withTdb roots).run w₀
      ((tcMigrateStream .copy fd id anchor).run.bind k) w₁)
    (hok : (tcMigrateStream .copy fd id anchor).run.Returns migrateKernel systemFault w₁ (.ok ()) w₂)
    (hlater : (k (.ok ())).Visits migrateKernel systemFault w₂ w₃) :
    ∃ bytes, (w₁.nativeStream fd anchor = some bytes ∨
        w₁.nativeStream fd anchor = none ∧ w₀.storedStream id anchor = some bytes) ∧
      w₃.backendStream fd anchor = some bytes ∧
      (∀ native, tcAppleNativeName anchor = some native →
        xattrTdbFgetxattr (w₃.attr fd) anchor = some (bytes ++ [0])) ∧
      (tcAppleNativeName anchor = none → joinedStream (w₃.attr fd) anchor = some bytes) ∧
      anchor ∈ w₃.backendList fd := by
  obtain ⟨bytes, hbytes, hbefore⟩ := Prog.wp_returns (tcMigrateStream_spec id hanchor hafp) hok
  have hstored : w₁.storedStream id anchor = w₀.storedStream id anchor := by
    have hrow : ∀ key, w₁.row key = w₀.row key := by
      intro key
      rw [World.row, (copy_visits_sourceKept hreach.visits).tdb, World.row]
    rw [World.storedStream, World.storedStream]
    apply congrArg (joinedStream · anchor)
    funext name
    rw [World.rowAttr, World.rowAttr, hrow]
  have hrest := Prog.wp_returns (Prog.wp_bind.mp
    (Prog.wp_reaches (keepsAttrs_migrate metadata withTdb roots w₀) hreach)) hok
  have hkept : AttrsKept w₂ w₃ := Prog.wp_visits_rel .refl .trans hrest hlater
  have hnow : w₃.nativeStream fd anchor = some bytes := hkept.nativeStream hanchor hbytes
  refine ⟨bytes, hstored ▸ hbefore, (backendStream_eq hanchor howned).trans hnow, ?_, ?_,
    mem_backendList hanchor howned hnow⟩
  · intro native hnative
    have hvalue : w₃.attr fd native = some bytes := by
      rw [World.nativeStream, hnative] at hnow
      exact hnow
    rw [fgetxattr_appleStream hanchor hnative (howned native hnative), hvalue, Option.map_some]
  · intro hnative
    rw [World.nativeStream, hnative] at hnow
    exact hnow

/-! ## One stream -/

theorem systemFault_quiet (op : MigrateOp) (w : World) : systemFault op quiet w := by
  intro e he
  exact absurd he (by simp [quiet])

section Comes

variable {α β γ : Type} {p : Mig α} {f : α → Mig β} {q : Mig γ} {w w' : World}

/-- A part of a program that is reached without any fault and before anything changes. -/
abbrev Comes (w : World) (p : Mig β) (q : Mig γ) : Prop :=
  Prog.ComesTo migrateKernel systemFault p.run w q.run w

theorem comes_first : Comes w (p >>= f) p := Prog.ComesTo.first

theorem Comes.within (h : Comes w p q) : Comes w (p >>= f) q := Prog.ComesTo.within h

theorem Comes.in_attempt (h : Comes w p q) :
    Comes w (Prog.attempt p : Mig (Except Errno α)) q := Prog.ComesTo.within h

theorem Comes.after (a : α)
    (hrun : ((p.run.run migrateKernel quiet [] w).1, (p.run.run migrateKernel quiet [] w).2.1) =
      (.ok a, w))
    (h : Comes w (f a) q) : Comes w (p >>= f) q := by
  have hreturns : p.run.Returns migrateKernel systemFault w (.ok a) w := by
    have hquiet := @Prog.run_quiet_returns _ _ _ _ _ migrateKernel systemFault p.run w quiet
      systemFault_quiet
    rw [Prod.mk.injEq] at hrun
    rwa [hrun.1, hrun.2] at hquiet
  exact Prog.ComesTo.after (f := ExceptT.bindCont f) hreturns h

end Comes

/-- A stream `a` of the file `x`. -/
def anchorA : Name := streamPrefixText ++ ascii "a" ++ streamSuffix

def streamVolume : World := volumeX emptyFile none [(anchorA, [1, 0])]

def onlyX : Roots := ⟨[[ascii "x"]], true⟩

theorem streamVolume_comes :
    Comes streamVolume (migrate .copy .stream true onlyX)
      (tcMigrateStream .copy fileX fileX anchorA) := by
  apply Comes.after [pushFileId16 fileX] rfl
  -- the only root
  apply Comes.within
  apply Comes.within
  apply Comes.after (Except.ok ()) rfl
  apply Comes.after (Except.ok (streamVolume.stat fileX)) rfl
  -- the file
  apply Comes.within
  apply Comes.within
  apply Comes.in_attempt
  apply Comes.after fileX rfl
  apply Comes.after (streamVolume.stat fileX) rfl
  -- its row
  apply Comes.within
  apply Comes.after [anchorA] rfl
  apply Comes.after [anchorA] rfl
  apply Comes.after () rfl
  exact comes_first

theorem migrated_stream_a_is_readable :
    let w := ((tcMigrateStream .copy fileX fileX anchorA).run.run migrateKernel quiet []
      streamVolume).2.1
    w.attr fileX anchorA = some [1, 0] ∧
      ∃ bytes, (streamVolume.nativeStream fileX anchorA = some bytes ∨
          streamVolume.nativeStream fileX anchorA = none ∧
            streamVolume.storedStream fileX anchorA = some bytes) ∧
        w.backendStream fileX anchorA = some bytes ∧
        (∀ native, tcAppleNativeName anchorA = some native →
          xattrTdbFgetxattr (w.attr fileX) anchorA = some (bytes ++ [0])) ∧
        (tcAppleNativeName anchorA = none → joinedStream (w.attr fileX) anchorA = some bytes) ∧
        anchorA ∈ w.backendList fileX := by
  refine ⟨by decide +kernel, ?_⟩
  obtain ⟨k, hreach⟩ := streamVolume_comes
  have hnative : tcAppleNativeName anchorA = none := by decide +kernel
  apply migrated_stream_is_readable (by decide +kernel) (by decide +kernel) _ hreach
    (Prog.run_quiet_returns quiet systemFault_quiet) (.here _ _)
  intro native h
  exact absurd (hnative.symm.trans h) (by simp)

/-- A stream that is there natively wins over the one in the database, in a run without any error. -/
theorem native_stream_wins :
    let w := volumeX { emptyFile with attrs := [(anchorA, [9, 0])] } none [(anchorA, [1, 0])]
    let copied := w.afterRun .copy .stream allOfX
    copied.1.toOption = some true ∧ w.storedStream fileX anchorA = some [1] ∧
      copied.2.backendStream fileX anchorA = some [9] := by
  decide +kernel

end TimeCapsule.Migrate
