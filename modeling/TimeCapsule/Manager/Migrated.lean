import TimeCapsule.Manager.Consistency

/-!
# Shares of migrated volumes

A volume, which the manager knows by its key, is recorded as migrated only after a migration that
went through, or that had no TDB file to go through.  A share of a volume that is not recorded is
published exactly when the volume was not mounted while the roots were selected, and is mounted and
writable when the shares are built.
-/

namespace TimeCapsule.Manager

open Lib

variable {cfg : Config} {ans : Answers} {r : Readings} {m m' m₁ : State} {topology : Bytes}
  {initial ok : Bool} {key : Bytes}

/-! ## The record of migrated volumes -/

/-- The part of the state that only migrations change. -/
def State.xattrs (m : State) : Bytes × List Bytes × List Migration :=
  (m.xattrTdbPath, m.xattrMigratedVolumes, m.migrations)

@[simp] theorem xattrs_publishShares (ans : Answers) (payload : Payload) (shares : List ShareRow)
    (adisks : List AdiskRow) (m : State) :
    (publishShares ans payload shares adisks m).1.xattrs = m.xattrs := by
  unfold publishShares
  cases ans.write <;> rfl

def ShareRow.xattrKey (row : ShareRow) : Bytes := xattrVolumeKey row.partDevice row.partUuid

/-- A disk step that publishes: its refresh gets to the shares that it builds. -/
structure Publication (cfg : Config) (ans : Answers) (r : Readings) (m : State) where
  initial : Bool
  topology : Bytes
  payload : Payload
  shares : List ShareRow
  adisks : List AdiskRow
  decision : diskDecision cfg ans r m = .refresh initial topology
  resolved : resolvePayload ans (rowsOf topology) = some payload
  migrated : ¬ MigrationFails cfg ans topology m
  built : buildShareState cfg ans (rowsOf topology) = .rows shares adisks
  nonempty : shares ≠ []

/-- Every volume that is mounted and writable when the shares are built was recorded before, or was
mounted when the roots were selected. -/
def Publication.Settled (p : Publication cfg ans r m) : Prop :=
  ∀ row ∈ (writableRows ans (rowsOf p.topology)).map Prod.fst,
    row.xattrKey ∈ m.migratedFor (xattrTdb p.payload) ∨
      ∃ selected ∈ migrationRows ans (m.migratedFor (xattrTdb p.payload)) (rowsOf p.topology),
        selected.xattrKey = row.xattrKey

theorem Publication.migrateBootXattrs_eq (p : Publication cfg ans r m) :
    (migrateBootXattrs cfg ans p.payload (rowsOf p.topology)
      { m with topologyRows := p.topology }).2 = true := by
  have hiff := migrateBootXattrs_eq_false_iff cfg m p.resolved
  by_contra hfalse
  exact p.migrated (hiff.mp (Bool.eq_false_of_not_eq_true hfalse))

/-- The state that a publication leaves. -/
theorem Publication.result (p : Publication cfg ans r m)
    (hs : reconcileDiskState cfg ans r m = some (m', ok)) :
    m'.shareRows = p.shares ∧ m'.payload = some p.payload ∧
      m'.xattrs = (migrateBootXattrs cfg ans p.payload (rowsOf p.topology)
        { m with topologyRows := p.topology }).1.xattrs := by
  simp only [reconcileDiskState, p.decision, refreshDiskState, Option.map_eq_some_iff, Prod.exists,
    Prod.mk.injEq] at hs
  obtain ⟨m₂, ok₂, happly, hm', -⟩ := hs
  have hcount : countRows p.topology ≠ 0 := fun h => by
    have hnil := p.resolved
    rw [rowsOf_of_countRows h] at hnil
    simp [resolvePayload, scanPayloadCandidates] at hnil
  have hmigrated := p.migrateBootXattrs_eq
  generalize hmig : migrateBootXattrs cfg ans p.payload (rowsOf p.topology)
    { m with topologyRows := p.topology } = result at hmigrated ⊢
  obtain ⟨m₁, migratedOk⟩ := result
  cases hmigrated
  simp only [applyRuntimeFromTopology, hcount, if_false, p.resolved, applyPayload, hmig, p.built,
    p.nonempty, Option.some.injEq] at happly
  have hm₂ : m₂ = (publishShares ans p.payload p.shares p.adisks m₁).1 := by rw [happly]
  have hpublished : m₂.shareRows = p.shares ∧ m₂.payload = some p.payload ∧ m₂.xattrs = m₁.xattrs := by
    rw [hm₂]
    refine ⟨?_, ?_, xattrs_publishShares ..⟩ <;>
    · unfold publishShares
      cases ans.write <;> rfl
  rw [← hm']
  cases ok₂ <;> exact hpublished

end TimeCapsule.Manager
