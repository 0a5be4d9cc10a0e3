import TimeCapsule.Deploy.Program

/-!
# What comes before the destructive phase

Every part of a deployment leaves the steps it stands for in the log of the run, all of them
successful, or it raises; so the step that removes the legacy metadata has everything before it.
The mode of the migration is another matter: the migrator and the flash configuration derive it from
the same override in two ways.
-/

namespace TimeCapsule.Deploy

open Lib Migrate Prog

abbrev Log : Type := FailingLog RemoteOp DeployError RemoteRes

/-- A verification that says no is no success. -/
def good : (op : RemoteOp) → RemoteRes op → Bool
  | .verifyPayloadHome _ _, result => PayloadVerificationResult.ok result
  | _, _ => true

/-! ## What each part leaves in the log -/

/-- The steps of a transfer. -/
def transferOps (plan : DeploymentPlan) (sources : SourceId → LocalSource)
    (transfer : FileTransfer) : List RemoteOp :=
  match transfer.mode with
  | .flashAtomic =>
      let tmp := flashUploadTmpPath transfer.destination
      [.scp transfer.sourceId (sources transfer.sourceId) tmp
          (some (transfer.timeoutSeconds.getD flashTextUploadTimeoutSeconds)),
        .installFlashFile tmp transfer.destination (plannedMode plan transfer.destination)]
  | _ => [.scp transfer.sourceId (sources transfer.sourceId) transfer.destination
      transfer.timeoutSeconds]

section Parts

variable {allow : RemoteOp → ((op : RemoteOp) → Fallible DeployError RemoteRes op) → Log → Prop}

theorem achieves_checked_bind {α β : Type} {c : Checked α} {f : α → RemoteM β}
    {R : β → List RemoteOp → Prop} (h : ∀ a, c = .ok a → Achieves good allow (f a) R) :
    Achieves good allow (checked c >>= f) R := by
  cases c with
  | ok a => exact h a rfl
  | error message => exact achieves_throw _

theorem leaves_runEach (actions : List RemoteAction) :
    Leaves good allow (runEach actions) (actions.map .action) := by
  induction actions with
  | nil => exact leaves_nil _
  | cons action rest ih => exact (leaves_fallible fun _ => rfl).bind fun _ => ih

theorem leaves_runRemoteActions (actions : List RemoteAction) :
    Leaves good allow (runRemoteActions actions) (actions.map .action) :=
  Leaves.after fun _ => leaves_runEach actions

theorem leaves_uploadFlashFile (sourceId : SourceId) (source : LocalSource) (destination : String)
    (timeoutSeconds : Nat) (mode : String) :
    Leaves good allow (uploadFlashFile sourceId source destination timeoutSeconds mode)
      [.scp sourceId source (flashUploadTmpPath destination) (some timeoutSeconds),
        .installFlashFile (flashUploadTmpPath destination) destination mode] := by
  apply Leaves.after
  intro _
  have hinstall : Leaves good allow (do
      let _ : Unit ← remote (.scp sourceId source (flashUploadTmpPath destination)
        (some timeoutSeconds))
      let _ : Unit ← remote (.installFlashFile (flashUploadTmpPath destination) destination mode)
      return ()) ([.scp sourceId source (flashUploadTmpPath destination) (some timeoutSeconds)] ++
        [.installFlashFile (flashUploadTmpPath destination) destination mode]) :=
    (leaves_fallible fun _ => rfl).bind fun _ => (leaves_fallible fun _ => rfl).first
  refine Achieves.bind (S := fun r _ _ => r.toOption.isSome) hinstall.attempt ?_ ?_
  · intro r
    cases r with
    | ok _ => exact achieves_pure rfl
    | error e => exact Achieves.bind (leaves_nil _) (fun _ => achieves_throw e) fun _ _ _ _ _ h => h
  · intro r _ done done' hr hok
    cases r with
    | ok a => exact (hr a rfl).trans (List.sublist_append_left done done')
    | error e => cases hok

theorem leaves_transferFile (plan : DeploymentPlan) (sources : SourceId → LocalSource)
    (transfer : FileTransfer) :
    Leaves good allow (transferFile plan sources transfer) (transferOps plan sources transfer) := by
  cases h : transfer.mode with
  | flashAtomic =>
    simp only [transferFile, transferOps, h]
    exact leaves_uploadFlashFile _ _ _ _ _
  | scp =>
    simp only [transferFile, transferOps, h]
    exact Leaves.first (leaves_fallible fun _ => rfl)
  | generated =>
    simp only [transferFile, transferOps, h]
    exact Leaves.first (leaves_fallible fun _ => rfl)

theorem leaves_uploadEach (plan : DeploymentPlan) (sources : SourceId → LocalSource)
    (destinations : List String) (uploads : List FileTransfer) (cleaned : Bool) :
    Leaves good allow (uploadEach plan sources destinations uploads cleaned)
      (uploads.flatMap (transferOps plan sources)) := by
  induction uploads generalizing cleaned with
  | nil => exact leaves_nil _
  | cons transfer rest ih =>
    refine Leaves.bind (Achieves.raising ?_ _) fun _ => ih _
    refine Leaves.after fun _ => ?_
    split
    · exact Leaves.after fun _ => leaves_transferFile plan sources transfer
    · exact leaves_transferFile plan sources transfer

theorem leaves_verifyDeployedPayload (home : PayloadHome) (waitSeconds : Nat) :
    Leaves good allow (verifyDeployedPayload home waitSeconds)
      [.verifyPayloadHome home waitSeconds] := by
  refine Achieves.bind (S := fun a _ _ => PayloadVerificationResult.ok a = true)
    (achieves_fallible _) ?_ ?_
  · intro verification
    show Achieves good allow (if PayloadVerificationResult.ok verification then _ else _) _
    split
    · rename_i hok
      exact achieves_pure hok
    · exact achieves_throw _
  · rintro verification _ done done' rfl hok
    have hgood : good (.verifyPayloadHome home waitSeconds) verification = true := hok
    simp [hgood]

/-- What is done between the two phases of the migration. -/
def deployOps (home : PayloadHome) (plan : DeploymentPlan) (sources : SourceId → LocalSource) :
    List RemoteOp :=
  plan.uploads.flatMap (transferOps plan sources) ++ (plan.postUploadActions.map .action ++
    ([.verifyPayloadHome home plan.appleMountWaitSeconds] ++ ([.flushRemoteWrites] ++
      [.verifyPayloadHome home plan.appleMountWaitSeconds])))

theorem leaves_deployPayload (home : PayloadHome) (plan : DeploymentPlan)
    (sources : SourceId → LocalSource) :
    Leaves good allow (deployPayload home plan sources) (deployOps home plan sources) :=
  (leaves_uploadEach plan sources _ plan.uploads false).bind fun _ =>
    (leaves_runRemoteActions plan.postUploadActions).bind fun _ =>
      (leaves_verifyDeployedPayload home _).bind fun _ =>
        (leaves_fallible fun _ => rfl).bind fun _ => leaves_verifyDeployedPayload home _

/-- The step of the migrator on these volumes. -/
def migrateOp (plan : DeploymentPlan) (phase : Phase) (legacyMetadata : LegacyMetadata)
    (roots : List MaStVolume) : RemoteOp :=
  .xattrHfsMigrate phase plan.xattrMigratorTarget (plan.privateDir ++ "/xattr.tdb") legacyMetadata
    (roots.map (·.volumeRoot))

/-- A phase that is skipped reports no roots, one that is not has some; they are among the given. -/
def Selected (roots : Option (List MaStVolume)) : Selection → Prop
  | .skip result => result.roots = []
  | .migrate mounted _ => mounted ≠ [] ∧ ∀ given, roots = some given → mounted.Sublist given

theorem achieves_mountRoots (waitSeconds : Nat) (volumes : List MaStVolume) :
    Achieves good allow (mountRoots waitSeconds volumes)
      fun result _ => result.1.Sublist volumes := by
  induction volumes with
  | nil => exact achieves_pure (List.Sublist.refl _)
  | cons volume rest ih =>
    refine Achieves.after fun mounted => ?_
    refine Achieves.bind ih (S := fun result b _ => result.1.Sublist rest →
      b.1.Sublist (volume :: rest)) (fun result => ?_) fun _ _ _ _ h h' => h' h
    cases mounted
    · exact achieves_pure fun h => h.cons volume
    · exact achieves_pure fun h => h.cons_cons volume

theorem achieves_candidateRoots (roots : Option (List MaStVolume)) :
    Achieves good allow (candidateRoots roots)
      fun candidates _ => ∀ given, roots = some given → candidates = given := by
  cases roots with
  | none =>
    refine (achieves_fallible _).mono ?_
    intro _ _ _ given hgiven
    cases hgiven
  | some roots => exact achieves_pure fun given hgiven => Option.some.inj hgiven

theorem achieves_selectMigrationRoots (plan : DeploymentPlan) (phase : Phase)
    (roots : Option (List MaStVolume)) :
    Achieves good allow (selectMigrationRoots plan phase roots)
      fun selection _ => Selected roots selection := by
  refine Achieves.after fun available => ?_
  split
  · exact achieves_throw _
  refine Achieves.after fun returncode => ?_
  split
  · exact achieves_pure rfl
  split
  · exact achieves_throw _
  refine Achieves.bind (achieves_candidateRoots roots) (fun candidates => ?_)
    fun _ _ _ _ h (h' : _ → _) => h' h
  split
  · exact achieves_throw _
  refine Achieves.bind (achieves_mountRoots _ candidates) (fun result => ?_)
    fun _ _ _ _ h (h' : _ → _) => h' h
  obtain ⟨mounted, unavailable⟩ := result
  show Achieves good allow (if mounted.isEmpty then _ else _) _
  split
  · split
    · exact achieves_pure fun _ _ => rfl
    · exact achieves_throw _
  · rename_i hmounted
    refine achieves_pure fun hsub hcandidates => ⟨?_, ?_⟩
    · simpa using hmounted
    · intro given hgiven
      rwa [hcandidates given hgiven] at hsub

/-- A phase that reports roots has migrated these. -/
theorem achieves_runXattrMigrationPhase (plan : DeploymentPlan) (phase : Phase)
    (legacyMetadata : LegacyMetadata) (roots : Option (List MaStVolume)) :
    Achieves good allow (runXattrMigrationPhase plan phase legacyMetadata roots)
      fun result done => result.roots ≠ [] →
        [migrateOp plan phase legacyMetadata result.roots].Sublist done := by
  refine Achieves.raising ?_ _
  refine Achieves.bind (S := fun selection result done => Selected roots selection →
    result.roots ≠ [] → [migrateOp plan phase legacyMetadata result.roots].Sublist done)
    (achieves_selectMigrationRoots plan phase roots) ?_ ?_
  · intro selection
    cases selection with
    | skip result => exact achieves_pure fun h hne => absurd h hne
    | migrate mounted unavailable =>
      refine Achieves.bind (leaves_fallible fun _ => rfl) (S := fun _ result _ =>
        result.roots = mounted) (fun _ => achieves_pure rfl) ?_
      rintro _ result done done' hleft rfl _ _
      exact hleft.trans (List.sublist_append_left done done')
  · intro selection result done done' hselected h hne
    exact (h hselected hne).trans (List.sublist_append_right done done')

section Copy

variable {num : Numerals} {config : AppConfig} {home : PayloadHome} {plan : DeploymentPlan}
  {runtime : DeployRuntimeConfig}

/-- Everything up to the destructive phase was done for these roots and with this configuration. -/
def Deployed (home : PayloadHome) (plan : DeploymentPlan) (runtime : DeployRuntimeConfig)
    (text : List Char) (roots : List MaStVolume) (done : List RemoteOp) : Prop :=
  List.Sublist (migrateOp plan .copy (migratorMetadata runtime) roots ::
    deployOps home plan
      (deploymentUploadSources plan.artifacts text (renderRsyncDaemonConfig home))) done

/-- What the copy phase and the upload have achieved: nothing is promised when no root was copied. -/
def Copied (num : Numerals) (config : AppConfig) (home : PayloadHome) (plan : DeploymentPlan)
    (runtime : DeployRuntimeConfig) (copied : XattrMigrationResult) (done : List RemoteOp) : Prop :=
  copied.roots ≠ [] → ∃ text, renderFlashRuntimeConfig num config runtime = .ok text ∧
    Deployed home plan runtime text copied.roots done

theorem Copied.later {copied : XattrMigrationResult} {done : List RemoteOp} (before : List RemoteOp)
    (h : Copied num config home plan runtime copied done) :
    Copied num config home plan runtime copied (before ++ done) := by
  intro hne
  obtain ⟨text, htext, hdeployed⟩ := h hne
  exact ⟨text, htext, List.Sublist.trans hdeployed (List.sublist_append_right before done)⟩

variable (num config home plan runtime) in
theorem achieves_copyAndDeploy : Achieves good allow (copyAndDeploy num config home plan runtime)
    (Copied num config home plan runtime) := by
  have hlater : ∀ copied before done, Copied num config home plan runtime copied done →
      Copied num config home plan runtime copied (before ++ done) :=
    fun _ before _ h => h.later before
  refine Achieves.later (fun _ => ?_) hlater
  refine achieves_checked_bind fun text htext => ?_
  refine Achieves.later (fun _ => ?_) hlater
  refine Achieves.bind (achieves_runXattrMigrationPhase plan .copy _ none)
    (S := fun copied result done => result = copied ∧ (deployOps home plan
      (deploymentUploadSources plan.artifacts text (renderRsyncDaemonConfig home))).Sublist done)
    (fun copied => ?_) ?_
  · exact Achieves.bind (leaves_deployPayload home plan _)
      (fun _ => achieves_pure (R := fun result _ => result = copied) rfl)
      fun _ _ done done' h h' => ⟨h', h.trans (List.sublist_append_left done done')⟩
  · rintro copied result done done' hcopied ⟨rfl, hdeployed⟩ hne
    exact ⟨text, htext, (hcopied hne).append hdeployed⟩

end Copy

end Parts

end TimeCapsule.Deploy
