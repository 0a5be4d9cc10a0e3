import TimeCapsule.Migrate.Quiet

/-!
# Writing an internal stream

A stream that the native file has no anchor for is written as extents and then as the anchor that
refers to them.  Until the anchor is written nothing refers to the extents, and the anchor is the last
thing that is written, so the stream is seen whole or not at all.
-/

namespace TimeCapsule.Migrate

open Lib

section Internal

variable {w : World} {fd : FileId}

/-- The anchor and the extents that it counts hold the stream, each of them small enough. -/
structure HeldWhole (fd : FileId) (anchor : Name) (logical : Bytes) (w : World) : Prop where
  joined : joinedStream (w.attr fd) anchor = some logical
  anchor_fits : ∃ first, w.attr fd anchor = some first ∧ first.length ≤ hfsXattrSize ∧
    extentCount first = extentsFor logical.length
  extent_fits : ∀ i, 1 ≤ i → i ≤ extentsFor logical.length →
    ∃ extent, w.attr fd (extentName i (rawStreamName anchor)) = some extent ∧
      extent.length ≤ hfsXattrSize

/-- What every step does: it changes nothing, or it starts without the anchor and leaves none or a
whole stream. -/
def AnchorLast (fd : FileId) (anchor : Name) (logical : Bytes) (w w' : World) : Prop :=
  w' = w ∨ w.attr fd anchor = none ∧ (w'.attr fd anchor = none ∨ HeldWhole fd anchor logical w')

theorem AnchorLast.refl {anchor : Name} {logical : Bytes} (w : World) :
    AnchorLast fd anchor logical w w := .inl rfl

theorem AnchorLast.trans {anchor : Name} {logical : Bytes} {u v w : World}
    (h : AnchorLast fd anchor logical u v) (h' : AnchorLast fd anchor logical v w) :
    AnchorLast fd anchor logical u w := by
  rcases h with rfl | ⟨hu, hv⟩
  · exact h'
  · rcases h' with rfl | ⟨_, hw⟩
    · exact .inr ⟨hu, hv⟩
    · exact .inr ⟨hu, hw⟩

/-! ## Attributes in either phase -/

/-- `tcNativeWriteVerified_spec` for a value that replaces the one that is there; in the cleanup phase
it only compares. -/
theorem tcNativeWriteVerified_replacing {G : World → World → Prop} {Q : Unit → World → Prop}
    {E : Errno → World → Prop} (phase : Phase) (name : Name) (value : Bytes) (hG : ∀ w, G w w)
    (hset : G w (w.setAttr fd name value)) (hkept : w.attr fd name = some value → Q () w)
    (hwrote : Q () (w.setAttr fd name value)) (hfail : ∀ e, E e w)
    (hfail' : ∀ e, E e (w.setAttr fd name value)) :
    Prog.wpE migrateKernel systemFault G (tcNativeWriteVerified phase fd name value false)
      Q E w := by
  cases phase with
  | copy =>
    apply tcNativeWriteVerified_spec fd name value false hG (fun _ => hset) _ (fun _ => hwrote)
      hfail hfail'
    intro v hv heq
    rcases heq with rfl | hkeep
    · exact hkept hv
    · cases hkeep
  | cleanup =>
    apply Prog.wpE_bind.mpr
    apply Prog.wpE_attempt.mpr
    apply tcNativeGet_spec fd name hG
    · intro v hv
      show Prog.wpE migrateKernel systemFault G
        (if v = value then pure () else if false = true then pure () else throw .eio) Q E w
      split
      · rename_i heq
        exact hkept (heq ▸ hv)
      · exact hfail .eio
    · intro e _
      show Prog.wpE migrateKernel systemFault G
        (if tcMissingError e = true then throw .eio else throw e) Q E w
      split
      · exact hfail .eio
      · exact hfail e

/-! ## The extents -/

/-- The extents from number `i` on are there, each small enough, and the anchor is not. -/
structure ExtentsReady (fd : FileId) (raw : Name) (count i : Nat) (rest : Bytes) (w : World) :
    Prop where
  joined : joinedExtents (w.attr fd) raw count i = some rest
  fits : ∀ j, i ≤ j → j < i + count →
    ∃ extent, w.attr fd (extentName j raw) = some extent ∧ extent.length ≤ hfsXattrSize
  absent : w.attr fd (streamPrefixText ++ raw) = none

theorem writeExtents_ready (phase : Phase) (raw : Name) (logical : Bytes) (count i : Nat)
    (rest : Bytes) (hcount : i + count ≤ hfsStreamXattrs)
    (hrest : rest.length ≤ count * hfsXattrSize)
    (habsent : w.attr fd (streamPrefixText ++ raw) = none) :
    Prog.wpE migrateKernel systemFault (AnchorLast fd (streamPrefixText ++ raw) logical)
      (writeExtents phase fd raw count i rest)
      (fun _ w' => ExtentsReady fd raw count i rest w' ∧
        ∀ name, (∀ j, i ≤ j → j < i + count → name ≠ extentName j raw) →
          w'.attr fd name = w.attr fd name)
      (fun _ _ => True) w := by
  induction count generalizing i rest w with
  | zero =>
    obtain rfl : rest = [] := List.length_eq_zero_iff.mp (by omega)
    exact ⟨⟨rfl, fun j hj hlt => by omega, habsent⟩, fun _ _ => rfl⟩
  | succ count ih =>
    have hdrop : (rest.drop hfsXattrSize).length ≤ count * hfsXattrSize := by
      rw [List.length_drop]
      rw [Nat.succ_mul] at hrest
      omega
    have hlater : ∀ j, i + 1 ≤ j → j < i + 1 + count → extentName i raw ≠ extentName j raw := by
      intro j hj hlt heq
      have := (extentName_inj (by omega) (by omega) heq).1
      omega
    -- the extents behind the first one, from a world in which the first one is there
    have hmore : ∀ w₁, Written fd (extentName i raw) (rest.take hfsXattrSize) w w₁ →
        Prog.wpE migrateKernel systemFault (AnchorLast fd (streamPrefixText ++ raw) logical)
          (writeExtents phase fd raw count (i + 1) (rest.drop hfsXattrSize))
          (fun _ w' => ExtentsReady fd raw (count + 1) i rest w' ∧
            ∀ name, (∀ j, i ≤ j → j < i + (count + 1) → name ≠ extentName j raw) →
              w'.attr fd name = w.attr fd name)
          (fun _ _ => True) w₁ := by
      intro w₁ hfirst
      have habsent₁ : w₁.attr fd (streamPrefixText ++ raw) = none :=
        (hfirst.other _ (anchorOf_ne_extentName i raw raw)).trans habsent
      apply Prog.wpE_mono (ih (i + 1) (rest.drop hfsXattrSize) (by omega) hdrop habsent₁) _
        fun _ _ h => h
      rintro _ w₂ ⟨hready, hother⟩
      have hvalue : w₂.attr fd (extentName i raw) = some (rest.take hfsXattrSize) :=
        (hother _ hlater).trans hfirst.value
      refine ⟨⟨?_, ?_, hready.absent⟩, fun name hname => ?_⟩
      · rw [joinedExtents, hvalue, Option.bind_some, hready.joined, Option.map_some,
          List.take_append_drop]
      · intro j hj hlt
        rcases Nat.eq_or_lt_of_le hj with rfl | hlt'
        · exact ⟨_, hvalue, by rw [List.length_take]; omega⟩
        · exact hready.fits j hlt' (by omega)
      · rw [hother name fun j hj hlt => hname j (by omega) (by omega),
          hfirst.other name (hname i (Nat.le_refl i) (by omega))]
    apply Prog.wpE_bind.mpr
    apply tcNativeWriteVerified_replacing phase _ _ AnchorLast.refl
    · refine .inr ⟨habsent, .inl ?_⟩
      rw [attr_setAttr_of_ne fun heq => anchorOf_ne_extentName i raw raw heq.2, habsent]
    · exact fun hv => hmore w ⟨hv, fun _ _ => rfl⟩
    · exact hmore _ (written_setAttr _ _)
    · exact fun _ => trivial
    · exact fun _ => trivial

/-- With its extents there, writing the anchor completes the stream. -/
theorem heldWhole_setAnchor {raw : Name} {logical : Bytes}
    (hcount : extentsFor logical.length < hfsStreamXattrs)
    (h : ExtentsReady fd raw (extentsFor logical.length) 1 (logical.drop (hfsXattrSize - 1)) w) :
    HeldWhole fd (streamPrefixText ++ raw) logical
      (w.setAttr fd (streamPrefixText ++ raw)
        (logical.take (hfsXattrSize - 1) ++ [(extentsFor logical.length).toUInt8])) := by
  have hanchor : Written fd (streamPrefixText ++ raw)
      (logical.take (hfsXattrSize - 1) ++ [(extentsFor logical.length).toUInt8]) w _ :=
    written_setAttr _ _
  have hextent : ∀ j, (w.setAttr fd (streamPrefixText ++ raw)
      (logical.take (hfsXattrSize - 1) ++ [(extentsFor logical.length).toUInt8])).attr fd
        (extentName j raw) = w.attr fd (extentName j raw) :=
    fun j => hanchor.other _ fun heq => anchorOf_ne_extentName j raw raw heq.symm
  refine ⟨joinedStream_written hanchor hcount h.joined, ⟨_, hanchor.value, ?_, ?_⟩, ?_⟩
  · rw [List.length_append, List.length_take, List.length_singleton]
    simp only [hfsXattrSize]
    omega
  · exact extentCount_append _ hcount
  · intro i hi hle
    rw [rawStreamName_append, hextent]
    exact h.fits i hi (by omega)

/-! ## The stream -/

theorem tcWriteInternalStream_whole (phase : Phase) (raw : Name) (logical : Bytes)
    (habsent : w.attr fd (streamPrefixText ++ raw) = none) :
    Prog.wpE migrateKernel systemFault (AnchorLast fd (streamPrefixText ++ raw) logical)
      (tcWriteInternalStream phase fd (streamPrefixText ++ raw) logical)
      (fun _ w' => extentsFor logical.length < hfsStreamXattrs ∧
        HeldWhole fd (streamPrefixText ++ raw) logical w')
      (fun _ _ => True) w := by
  apply Prog.wpE_bind.mpr
  apply tcKeepNativeStream_spec fd (streamPrefixText ++ raw) AnchorLast.refl
  · intro bytes hbytes
    rw [joinedStream, habsent] at hbytes
    cases hbytes
  · intro _
    show Prog.wpE migrateKernel systemFault (AnchorLast fd (streamPrefixText ++ raw) logical)
      (if hfsStreamXattrs ≤ extentsFor logical.length then throw Errno.eoverflow else _) _ _ w
    split
    · exact trivial
    · rename_i hfew
      have hcount : extentsFor logical.length < hfsStreamXattrs := Nat.lt_of_not_le hfew
      apply Prog.wpE_bind.mpr
      rw [rawStreamName_append]
      apply Prog.wpE_mono (writeExtents_ready phase raw logical _ 1 _ (by omega)
        (drop_le_extentsFor logical) habsent) _ fun _ _ h => h
      rintro _ w₁ ⟨hready, _⟩
      have hwhole := heldWhole_setAnchor hcount hready
      apply tcNativeWriteVerified_replacing phase _ _ AnchorLast.refl
      · exact .inr ⟨hready.absent, .inr hwhole⟩
      · intro hpresent
        rw [hready.absent] at hpresent
        cases hpresent
      · exact ⟨hcount, hwhole⟩
      · exact fun _ => trivial
      · exact fun _ => trivial
  · exact fun _ => trivial

/-- A stream that needs too many extents ends in an error, with nothing written: the overflow, unless
looking for the anchor failed. -/
theorem tcWriteInternalStream_overflow (phase : Phase) (raw : Name) (logical : Bytes)
    (habsent : w.attr fd (streamPrefixText ++ raw) = none)
    (hmany : hfsStreamXattrs ≤ extentsFor logical.length) :
    (tcWriteInternalStream phase fd (streamPrefixText ++ raw) logical).run.wp migrateKernel
      systemFault (fun w w' => w' = w)
      (fun r w' => w' = w ∧ (r = .error .eoverflow ∨ ∃ e, r = .error e ∧
        (tcKeepNativeStream fd (streamPrefixText ++ raw)).run.Returns migrateKernel systemFault w
          (.error e) w)) w := by
  have hlook : Prog.wpE migrateKernel systemFault (fun w w' => w' = w)
      (tcKeepNativeStream fd (streamPrefixText ++ raw)) (fun kept w' => w' = w ∧ kept = false)
      (fun _ w' => w' = w) w := by
    apply tcKeepNativeStream_spec (G := fun w w' => w' = w) fd _ (fun _ => rfl)
    · intro bytes hbytes
      rw [joinedStream, habsent] at hbytes
      cases hbytes
    · exact fun _ => ⟨rfl, rfl⟩
    · exact fun _ => rfl
  have hreturns := Prog.wp_and hlook (Prog.wp_of_returns fun _ _ h => h)
  apply Prog.wp_bind.mpr
  apply Prog.wp_guarantee_mono (Prog.wp_mono hreturns _) fun _ _ h => h.1
  rintro (e | kept) w' ⟨hends, hreturn⟩
  · obtain rfl : w' = w := hends
    exact ⟨rfl, .inr ⟨e, rfl, hreturn⟩⟩
  · obtain ⟨rfl, rfl⟩ : w' = w ∧ kept = false := hends
    show Prog.wp migrateKernel systemFault _ (ExceptT.run
      (if hfsStreamXattrs ≤ extentsFor logical.length then throw Errno.eoverflow else _)) _ _
    rw [if_pos hmany]
    exact ⟨rfl, .inl rfl⟩

/-! ### Without faults -/

theorem quietly_tcKeepNativeStream_absent {anchor : Name} (habsent : w.attr fd anchor = none) :
    quietly (tcKeepNativeStream fd anchor) w = (.ok false, w) := by
  rw [tcKeepNativeStream, quietly_bind_ok (quietly_attempt (quietly_tcNativeGet_none habsent))]
  rfl

theorem quietly_overflow (phase : Phase) {anchor : Name} {logical : Bytes}
    (habsent : w.attr fd anchor = none) (hmany : hfsStreamXattrs ≤ extentsFor logical.length) :
    quietly (tcWriteInternalStream phase fd anchor logical) w = (.error .eoverflow, w) := by
  rw [tcWriteInternalStream, quietly_bind_ok (quietly_tcKeepNativeStream_absent habsent)]
  show quietly (if hfsStreamXattrs ≤ extentsFor logical.length then throw Errno.eoverflow else _) w =
    _
  rw [if_pos hmany]
  rfl

theorem quietly_tcNativeWriteVerified_copy (name : Name) (value : Bytes) :
    (quietly (tcNativeWriteVerified .copy fd name value false) w).1 = .ok () := by
  cases hattr : w.attr fd name with
  | none =>
    rw [quietly_write_missing hattr]
    exact congrArg Prod.fst quietly_tcNativeWrite
  | some v =>
    rw [tcNativeWriteVerified, quietly_bind_ok (quietly_attempt (quietly_tcNativeGet_some hattr))]
    show (quietly (if v = value then pure () else tcNativeWrite .copy fd name value) w).1 = _
    split
    · rfl
    · exact congrArg Prod.fst quietly_tcNativeWrite

theorem quietly_writeExtents_copy (raw : Name) (count i : Nat) (rest : Bytes) :
    (quietly (writeExtents .copy fd raw count i rest) w).1 = .ok () := by
  induction count generalizing i rest w with
  | zero => rfl
  | succ count ih =>
    have hfirst : quietly (tcNativeWriteVerified .copy fd (extentName i raw)
        (rest.take hfsXattrSize) false) w = (.ok (), _) :=
      Prod.ext (quietly_tcNativeWriteVerified_copy _ _) rfl
    rw [writeExtents, quietly_bind_ok hfirst]
    exact ih _ _

theorem quietly_internal_stream {anchor : Name} {logical : Bytes}
    (habsent : w.attr fd anchor = none) (hfew : extentsFor logical.length < hfsStreamXattrs) :
    (quietly (tcWriteInternalStream .copy fd anchor logical) w).1 = .ok () := by
  have hextents : quietly (writeExtents .copy fd (rawStreamName anchor)
      (extentsFor logical.length) 1 (logical.drop (hfsXattrSize - 1))) w = (.ok (), _) :=
    Prod.ext (quietly_writeExtents_copy _ _ _ _) rfl
  rw [tcWriteInternalStream, quietly_bind_ok (quietly_tcKeepNativeStream_absent habsent)]
  show (quietly (if hfsStreamXattrs ≤ extentsFor logical.length then throw Errno.eoverflow
    else _) w).1 = _
  rw [if_neg (Nat.not_le_of_lt hfew), quietly_bind_ok hextents]
  exact quietly_tcNativeWriteVerified_copy _ _

/-! ### With any faults -/

/-- For a file without the anchor: too long a stream ends in the overflow with nothing written, a
return without an error leaves the whole stream, and wherever the call is stopped there is no anchor,
or the stream is whole and nothing more is written. -/
theorem internal_stream_whole_or_absent (phase : Phase) {anchor : Name} (logical : Bytes)
    (hanchor : tcStreamAnchor anchor = true) (habsent : w.attr fd anchor = none) :
    (34 < extentsFor logical.length →
      (∀ w', (tcWriteInternalStream phase fd anchor logical).run.Visits migrateKernel systemFault
        w w' → w' = w) ∧
      (∀ r w', (tcWriteInternalStream phase fd anchor logical).run.Returns migrateKernel systemFault
        w r w' → r = .error .eoverflow ∨ ∃ e, r = .error e ∧
          (tcKeepNativeStream fd anchor).run.Returns migrateKernel systemFault w (.error e) w) ∧
      quietly (tcWriteInternalStream phase fd anchor logical) w = (.error .eoverflow, w)) ∧
    (extentsFor logical.length ≤ 34 →
      (quietly (tcWriteInternalStream .copy fd anchor logical) w).1 = .ok ()) ∧
    (∀ w', (tcWriteInternalStream phase fd anchor logical).run.Returns migrateKernel systemFault
      w (.ok ()) w' → extentsFor logical.length ≤ 34 ∧ HeldWhole fd anchor logical w') ∧
    ∀ q w', Prog.Reaches migrateKernel systemFault
      (tcWriteInternalStream phase fd anchor logical).run w q w' →
      w'.attr fd anchor = none ∨
        HeldWhole fd anchor logical w' ∧ ∀ w'', q.Visits migrateKernel systemFault w' w'' → w'' = w' := by
  obtain ⟨raw, rfl⟩ := streamAnchor_iff.mp hanchor
  have hwhole := @tcWriteInternalStream_whole w fd phase raw logical habsent
  refine ⟨fun hmany => ?_, fun hfew => quietly_internal_stream habsent (Nat.lt_succ_of_le hfew),
    fun w' hreturns => ?_, fun q w' hreach => ?_⟩
  · have hoverflow := tcWriteInternalStream_overflow phase raw logical habsent hmany
    refine ⟨fun w' hvisits => ?_, fun r w' hreturns => (Prog.wp_returns hoverflow hreturns).2, ?_⟩
    · exact Prog.wp_visits_rel (G := fun w w' => w' = w) (fun _ => rfl) (fun h h' => h'.trans h)
        hoverflow hvisits
    · exact quietly_overflow phase habsent hmany
  · obtain ⟨hcount, hheld⟩ := Prog.wp_returns hwhole hreturns
    exact ⟨Nat.le_of_lt_succ hcount, hheld⟩
  · have hsofar : AnchorLast fd (streamPrefixText ++ raw) logical w w' :=
      Prog.wp_visits_rel AnchorLast.refl AnchorLast.trans hwhole hreach.visits
    have hrest := Prog.wp_reaches hwhole hreach
    cases hpresent : w'.attr fd (streamPrefixText ++ raw) with
    | none => exact .inl rfl
    | some v =>
      right
      constructor
      · rcases hsofar with rfl | ⟨_, hnone | hheld⟩
        · rw [habsent] at hpresent
          cases hpresent
        · rw [hnone] at hpresent
          cases hpresent
        · exact hheld
      · intro w'' hvisits
        rcases Prog.wp_visits_rel AnchorLast.refl AnchorLast.trans hrest hvisits with h | ⟨hnone, _⟩
        · exact h
        · rw [hnone] at hpresent
          cases hpresent

end Internal

theorem stream_of_x_written_whole :
    let p := tcWriteInternalStream .copy fileX anchorA [1]
    (quietly p streamVolume).1 = .ok () ∧ HeldWhole fileX anchorA [1] (quietly p streamVolume).2 := by
  have habsent : streamVolume.attr fileX anchorA = none := by decide +kernel
  have hfew : extentsFor ([1] : Bytes).length ≤ 34 := by decide
  obtain ⟨_, hquiet, hwhole, _⟩ := internal_stream_whole_or_absent .copy [1]
    (show tcStreamAnchor anchorA = true by decide +kernel) habsent
  have hreturns := @quietly_returns _ (tcWriteInternalStream .copy fileX anchorA [1]) streamVolume
  rw [hquiet hfew] at hreturns
  exact ⟨hquiet hfew, (hwhole _ hreturns).2⟩

end TimeCapsule.Migrate
