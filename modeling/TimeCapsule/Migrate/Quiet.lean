import TimeCapsule.Migrate.Streams

/-!
# Runs without faults

What each part of the migrator returns, and the world it leaves behind, when no call goes wrong.
-/

namespace TimeCapsule.Migrate

open Lib

variable {α β : Type} {p : Mig α} {f : α → Mig β} {w w' w'' : World}

/-- The result and the world at the end when nothing goes wrong. -/
def quietly (p : Mig α) (w : World) : Except Errno α × World := Prog.exec migrateKernel quiet p.run w

theorem quietly_bind_ok {a : α} (h : quietly p w = (.ok a, w')) :
    quietly (p >>= f) w = quietly (f a) w' := by
  refine Eq.trans (Prog.exec_bind (p := p.run) (f := ExceptT.bindCont f)) ?_
  rw [quietly] at h
  rw [h]
  rfl

theorem quietly_bind_error {e : Errno} (h : quietly p w = (.error e, w')) :
    quietly (p >>= f) w = (.error e, w') := by
  refine Eq.trans (Prog.exec_bind (p := p.run) (f := ExceptT.bindCont f)) ?_
  rw [quietly] at h
  rw [h]
  rfl

theorem quietly_attempt {r : Except Errno α} (h : quietly p w = (r, w')) :
    quietly (Prog.attempt p) w = (.ok r, w') := by
  refine Eq.trans (Prog.exec_bind (p := p.run)) ?_
  rw [quietly] at h
  rw [h]
  rfl

/-- What comes of a program that does not fail came of its two parts. -/
theorem quietly_bind_eq_ok {b : β} (h : quietly (p >>= f) w = (.ok b, w'')) :
    ∃ a w', quietly p w = (.ok a, w') ∧ quietly (f a) w' = (.ok b, w'') := by
  cases hp : quietly p w with
  | mk r w' =>
    cases r with
    | error e =>
      rw [quietly_bind_error hp] at h
      exact absurd (congrArg Prod.fst h) (by simp)
    | ok a => exact ⟨a, w', rfl, (quietly_bind_ok hp).symm.trans h⟩

theorem quietly_reads (h : ReadsOnly p) : (quietly p w).2 = w :=
  Prog.Uses.exec_unchanged h fun _ hop => perform_reads hop

theorem quietly_reads_eq (h : ReadsOnly p) : quietly p w = ((quietly p w).1, w) :=
  Prod.ext rfl (quietly_reads h)

theorem quietly_returns :
    p.run.Returns migrateKernel systemFault w (quietly p w).1 (quietly p w).2 :=
  Prog.exec_returns systemFault_quiet

/-- What holds of every end under faults holds of the end without faults. -/
theorem wpE_quietly {G : World → World → Prop} {Q : α → World → Prop} {E : Errno → World → Prop}
    {a : α} (h : Prog.wpE migrateKernel systemFault G p Q E w)
    (hp : quietly p w = (.ok a, w')) : Q a w' := by
  have hreturns := @quietly_returns _ p w
  rw [hp] at hreturns
  exact Prog.wp_returns (Q := Prog.Ends Q E) h hreturns

theorem quietly_guarantees {G : World → World → Prop} (hrefl : ∀ w, G w w)
    (htrans : ∀ {u v w}, G u v → G v w → G u w)
    (h : Prog.Guarantees migrateKernel systemFault G p) : G w (quietly p w).2 :=
  Prog.wp_visits_rel hrefl htrans (h w) quietly_returns.visits

theorem World.afterRun_eq (phase : Phase) (metadata : LegacyMetadata) (roots : Roots) :
    w.afterRun phase metadata roots = quietly (migrate phase metadata true roots) w := by
  rw [World.afterRun, Prog.run_nil]
  rfl

/-! ## Native attributes -/

section Native

variable {fd : FileId} {name : Name} {value : Bytes} {phase : Phase} {keepExisting : Bool}

theorem getxattr_eq : w.getxattr fd name = (w.attr fd name).elim (.error .enoattr) .ok := rfl

theorem quietly_tcNativeGet : quietly (tcNativeGet fd name) w = (w.getxattr fd name, w) := by
  have hsize : quietly (sys (.getxattrSize fd name)) w = ((w.getxattr fd name).map (·.length), w) :=
    rfl
  rw [tcNativeGet]
  cases hattr : w.attr fd name with
  | none =>
    rw [getxattr_eq, hattr] at hsize ⊢
    exact quietly_bind_error hsize
  | some v =>
    rw [getxattr_eq, hattr] at hsize ⊢
    rw [quietly_bind_ok hsize]
    by_cases hlen : v.length = 0
    · rw [if_pos hlen, List.length_eq_zero_iff.mp hlen]
      rfl
    · have hvalue : quietly (sys (.getxattr fd name v.length)) w = (.ok v, w) := by
        show (((w.getxattr fd name).bind _), w) = _
        rw [getxattr_eq, hattr]
        show ((if v.length < v.length then Except.error Errno.erange else .ok v), w) = _
        rw [if_neg (Nat.lt_irrefl _)]
      rw [if_neg hlen, quietly_bind_ok hvalue, if_neg fun h => h rfl]
      rfl

theorem quietly_tcNativeGet_some (h : w.attr fd name = some value) :
    quietly (tcNativeGet fd name) w = (.ok value, w) := by
  rw [quietly_tcNativeGet, getxattr_eq, h]
  rfl

theorem quietly_tcNativeGet_none (h : w.attr fd name = none) :
    quietly (tcNativeGet fd name) w = (.error .enoattr, w) := by
  rw [quietly_tcNativeGet, getxattr_eq, h]
  rfl

theorem quietly_tcAirportFsetxattr :
    quietly (tcAirportFsetxattr fd name value) w = (.ok (), w.setAttr fd name value) := rfl

theorem quietly_tcNativeWrite :
    quietly (tcNativeWrite .copy fd name value) w = (.ok (), w.setAttr fd name value) := by
  rw [tcNativeWrite, quietly_bind_ok quietly_tcAirportFsetxattr,
    quietly_bind_ok (quietly_attempt (quietly_tcNativeGet_some attr_setAttr_self))]
  show quietly (if value = value then pure () else throw .eio) _ = _
  rw [if_pos rfl]
  rfl

/-- A value that is there is kept in both phases. -/
theorem quietly_write_present {v : Bytes} (h : w.attr fd name = some v)
    (hkeep : v = value ∨ keepExisting = true) :
    quietly (tcNativeWriteVerified phase fd name value keepExisting) w = (.ok (), w) := by
  rw [tcNativeWriteVerified, quietly_bind_ok (quietly_attempt (quietly_tcNativeGet_some h))]
  show quietly (if v = value then pure () else if keepExisting = true then pure () else _) w = _
  split
  · rfl
  · rename_i hne
    rw [if_pos (hkeep.resolve_left hne)]
    rfl

theorem quietly_write_missing (h : w.attr fd name = none) :
    quietly (tcNativeWriteVerified phase fd name value keepExisting) w =
      quietly (tcNativeWrite phase fd name value) w := by
  rw [tcNativeWriteVerified, quietly_bind_ok (quietly_attempt (quietly_tcNativeGet_none h))]
  rfl

end Native

/-! ## Streams -/

section Stream

variable {fd : FileId} {anchor raw : Name} {phase : Phase}

/-- A fragment of a stream as the migrator writes and accepts it. -/
def FragmentOk (fragment : Bytes) : Prop := fragment.length ≠ 0 ∧ fragment.length ≤ hfsXattrSize

/-- A stream whose fragments are all there. -/
def CompleteStream (attr : Name → Option Bytes) (anchor : Name) : Prop :=
  ∃ first, attr anchor = some first ∧ FragmentOk first ∧ extentCount first < hfsStreamXattrs ∧
    ∀ j, 1 ≤ j → j < 1 + extentCount first →
      ∃ extent, attr (extentName j (rawStreamName anchor)) = some extent ∧ FragmentOk extent

theorem quietly_readNativeExtents (count i : Nat)
    (h : ∀ j, i ≤ j → j < i + count → ∃ extent, w.attr fd (extentName j raw) = some extent ∧
      FragmentOk extent) :
    quietly (readNativeExtents fd raw count i) w = (.ok (), w) := by
  induction count generalizing i with
  | zero => rfl
  | succ count ih =>
    obtain ⟨extent, hextent, hne, hle⟩ := h i (Nat.le_refl i) (by omega)
    rw [readNativeExtents, quietly_bind_ok (quietly_tcNativeGet_some hextent),
      if_neg (not_or.mpr ⟨hne, Nat.not_lt.mpr hle⟩)]
    exact ih (i + 1) fun j hj hlt => h j (by omega) (by omega)

theorem of_quietly_readNativeExtents (count i : Nat)
    (h : quietly (readNativeExtents fd raw count i) w = (.ok (), w')) :
    ∀ j, i ≤ j → j < i + count → ∃ extent, w.attr fd (extentName j raw) = some extent ∧
      FragmentOk extent := by
  induction count generalizing i with
  | zero =>
    intro j hj hlt
    omega
  | succ count ih =>
    intro j hj hlt
    rw [readNativeExtents] at h
    cases hextent : w.attr fd (extentName i raw) with
    | none =>
      rw [quietly_bind_error (quietly_tcNativeGet_none hextent)] at h
      exact absurd (congrArg Prod.fst h) (by simp)
    | some extent =>
      rw [quietly_bind_ok (quietly_tcNativeGet_some hextent)] at h
      by_cases hbad : extent.length = 0 ∨ hfsXattrSize < extent.length
      · rw [if_pos hbad] at h
        exact absurd (congrArg Prod.fst h) (by simp [quietly, Prog.exec])
      · rw [if_neg hbad] at h
        rw [not_or, Nat.not_lt] at hbad
        by_cases hi : j = i
        · exact ⟨extent, hi ▸ hextent, hbad⟩
        · exact ih (i + 1) h j (by omega) (by omega)

theorem quietly_tcKeepNativeStream_complete (h : CompleteStream (w.attr fd) anchor) :
    quietly (tcKeepNativeStream fd anchor) w = (.ok true, w) := by
  obtain ⟨first, hfirst, ⟨hne, hle⟩, hcount, hextents⟩ := h
  rw [tcKeepNativeStream, quietly_bind_ok (quietly_attempt (quietly_tcNativeGet_some hfirst))]
  show quietly (if first.length = 0 ∨ hfsXattrSize < first.length then throw .eio else _) w = _
  rw [if_neg (not_or.mpr ⟨hne, Nat.not_lt.mpr hle⟩), if_neg (Nat.not_le.mpr hcount),
    quietly_bind_ok (quietly_readNativeExtents _ _ hextents)]
  rfl

theorem quietly_tcKeepNativeStream_none (h : w.attr fd anchor = none) :
    quietly (tcKeepNativeStream fd anchor) w = (.ok false, w) := by
  rw [tcKeepNativeStream, quietly_bind_ok (quietly_attempt (quietly_tcNativeGet_none h))]
  rfl

/-- A stream that has an anchor is accepted only when it is complete. -/
theorem of_quietly_tcKeepNativeStream {first : Bytes} {kept : Bool}
    (hfirst : w.attr fd anchor = some first)
    (h : quietly (tcKeepNativeStream fd anchor) w = (.ok kept, w')) :
    CompleteStream (w.attr fd) anchor := by
  rw [tcKeepNativeStream, quietly_bind_ok (quietly_attempt (quietly_tcNativeGet_some hfirst))] at h
  replace h : quietly (if first.length = 0 ∨ hfsXattrSize < first.length then throw .eio
    else if hfsStreamXattrs ≤ extentCount first then throw .eio
    else do
      readNativeExtents fd (rawStreamName anchor) (extentCount first) 1
      return true) w = (.ok kept, w') := h
  by_cases hbad : first.length = 0 ∨ hfsXattrSize < first.length
  · rw [if_pos hbad] at h
    exact absurd (congrArg Prod.fst h) (by simp [quietly, Prog.exec])
  · rw [if_neg hbad] at h
    by_cases hcount : hfsStreamXattrs ≤ extentCount first
    · rw [if_pos hcount] at h
      exact absurd (congrArg Prod.fst h) (by simp [quietly, Prog.exec])
    · rw [if_neg hcount] at h
      obtain ⟨_, _, hread, -⟩ := quietly_bind_eq_ok h
      rw [not_or, Nat.not_lt] at hbad
      exact ⟨first, hfirst, hbad, Nat.lt_of_not_le hcount, of_quietly_readNativeExtents _ _ hread⟩

end Stream

end TimeCapsule.Migrate
