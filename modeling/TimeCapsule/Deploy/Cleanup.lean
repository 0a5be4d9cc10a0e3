import TimeCapsule.Deploy.Order

/-!
# The destructive phase

A deployment asks for the destructive phase once, at the end, and for roots that its copy phase has
migrated.  Both phases have the mode that the flash configuration gives smbd exactly when the mode
is an override, or the configuration does not ask for the mode that the migrator takes for an
override that is missing.
-/

namespace TimeCapsule.Deploy

open Lib Migrate Prog

/-! ## What a deployment asks for -/

/-- Steps of the migrator are of these phases and this mode, and the flash configuration that is
copied is one of these texts. -/
def Within (phases : Phase → Prop) (mode : LegacyMetadata) (texts : List Char → Prop) :
    RemoteOp → Prop
  | .xattrHfsMigrate phase _ _ legacyMetadata _ => phases phase ∧ legacyMetadata = mode
  | .scp sourceId source _ _ =>
      sourceId = .generatedFlashConfig → ∃ text, source = .text text ∧ texts text
  | _ => True

section Asks

variable {phases : Phase → Prop} {mode : LegacyMetadata} {texts : List Char → Prop}

theorem within_remote {op : RemoteOp} (h : Within phases mode texts op) :
    Confined (Within phases mode texts) (remote op) :=
  confined_fallible h

theorem within_checked {α : Type} (c : Checked α) :
    Confined (Within phases mode texts) (checked c) := by
  cases c with
  | ok a => exact confined_pure a
  | error message => exact confined_throw _

theorem within_checked_bind {α β : Type} {c : Checked α} {f : α → RemoteM β}
    (h : ∀ a, c = .ok a → Confined (Within phases mode texts) (f a)) :
    Confined (Within phases mode texts) (checked c >>= f) := by
  cases c with
  | ok a => exact h a rfl
  | error message => exact confined_throw _

theorem within_runRemoteActions (actions : List RemoteAction) :
    Confined (Within phases mode texts) (runRemoteActions actions) := by
  refine Confined.bind (within_checked _) fun _ => ?_
  induction actions with
  | nil => exact confined_pure ()
  | cons action rest ih => exact Confined.bind (within_remote trivial) fun _ => ih

theorem within_cleanupFlashUploadTmpPaths (destinations : List String) :
    Confined (Within phases mode texts) (cleanupFlashUploadTmpPaths destinations) := by
  unfold cleanupFlashUploadTmpPaths
  split
  · exact confined_pure ()
  · exact Confined.bind (within_remote trivial) fun _ => confined_pure ()

theorem within_uploadFlashFile {sourceId : SourceId} {source : LocalSource}
    (hsource : sourceId = .generatedFlashConfig → ∃ text, source = .text text ∧ texts text)
    (destination : String) (timeoutSeconds : Nat) (permission : String) :
    Confined (Within phases mode texts)
      (uploadFlashFile sourceId source destination timeoutSeconds permission) := by
  refine Confined.bind (within_remote trivial) fun _ => ?_
  refine Confined.bind (Confined.attempt ?_) fun installed => ?_
  · refine Confined.bind (within_remote hsource) fun _ => ?_
    exact Confined.bind (within_remote trivial) fun _ => confined_pure ()
  · cases installed with
    | ok _ => exact confined_pure ()
    | error e =>
      have hbest : Confined (Within phases mode texts)
          (bestEffortCleanupFlashUploadTmpPath (flashUploadTmpPath destination)) :=
        Confined.bind (Confined.attempt (within_remote trivial)) fun _ => confined_pure ()
      exact Confined.bind hbest fun _ => confined_throw e

theorem within_ensurePayloadVolumeBeforeTransfer (plan : DeploymentPlan) (transfer : FileTransfer) :
    Confined (Within phases mode texts) (ensurePayloadVolumeBeforeTransfer plan transfer) := by
  unfold ensurePayloadVolumeBeforeTransfer
  split
  · refine Confined.bind (within_remote trivial) fun mounted => ?_
    cases mounted
    · exact confined_throw _
    · exact confined_pure ()
  · exact confined_pure ()

theorem within_uploadDeploymentPayload {sources : SourceId → LocalSource}
    (hsources : ∃ text, sources .generatedFlashConfig = .text text ∧ texts text)
    (plan : DeploymentPlan) (uploads : List FileTransfer) :
    Confined (Within phases mode texts) (uploadDeploymentPayload plan sources uploads) := by
  have hsource : ∀ id, id = .generatedFlashConfig → ∃ text, sources id = .text text ∧ texts text := by
    rintro _ rfl
    exact hsources
  have htransfer : ∀ transfer,
      Confined (Within phases mode texts) (transferFile plan sources transfer) := by
    intro transfer
    unfold transferFile
    split
    · exact within_uploadFlashFile (hsource _) _ _ _
    · exact Confined.bind (within_remote (hsource _)) fun _ => confined_pure ()
  unfold uploadDeploymentPayload
  generalize flashDestinations uploads = destinations
  generalize false = cleaned
  induction uploads generalizing cleaned with
  | nil => exact confined_pure ()
  | cons transfer rest ih =>
    refine Confined.bind (Confined.raising ?_ _) fun _ => ih _
    refine Confined.bind (within_ensurePayloadVolumeBeforeTransfer plan transfer) fun _ => ?_
    split
    · exact Confined.bind (within_cleanupFlashUploadTmpPaths destinations) fun _ => htransfer transfer
    · exact htransfer transfer

theorem within_verifyDeployedPayload (home : PayloadHome) (waitSeconds : Nat) :
    Confined (Within phases mode texts) (verifyDeployedPayload home waitSeconds) := by
  refine Confined.bind (within_remote trivial) fun verification => ?_
  show Confined _ (if PayloadVerificationResult.ok verification then _ else _)
  split
  · exact confined_pure ()
  · exact confined_throw _

theorem within_mountRoots (waitSeconds : Nat) (volumes : List MaStVolume) :
    Confined (Within phases mode texts) (mountRoots waitSeconds volumes) := by
  induction volumes with
  | nil => exact confined_pure _
  | cons volume rest ih =>
    refine Confined.bind (within_remote trivial) fun mounted => ?_
    refine Confined.bind ih fun result => ?_
    cases mounted <;> exact confined_pure _

theorem within_selectMigrationRoots (plan : DeploymentPlan) (phase : Phase)
    (roots : Option (List MaStVolume)) :
    Confined (Within phases mode texts) (selectMigrationRoots plan phase roots) := by
  refine Confined.bind (within_remote trivial) fun available => ?_
  split
  · exact confined_throw _
  refine Confined.bind (within_remote trivial) fun returncode => ?_
  split
  · exact confined_pure _
  split
  · exact confined_throw _
  have hcandidates : Confined (Within phases mode texts) (candidateRoots roots) := by
    cases roots with
    | none => exact within_remote trivial
    | some roots => exact confined_pure _
  refine Confined.bind hcandidates fun candidates => ?_
  split
  · exact confined_throw _
  refine Confined.bind (within_mountRoots _ candidates) fun result => ?_
  obtain ⟨mounted, unavailable⟩ := result
  show Confined _ (if mounted.isEmpty then _ else _)
  split
  · split
    · exact confined_pure _
    · exact confined_throw _
  · exact confined_pure _

theorem within_runXattrMigrationPhase (plan : DeploymentPlan) {phase : Phase} (hphase : phases phase)
    (roots : Option (List MaStVolume)) :
    Confined (Within phases mode texts) (runXattrMigrationPhase plan phase mode roots) := by
  refine Confined.raising (Confined.bind (within_selectMigrationRoots plan phase roots) fun selection => ?_) _
  cases selection with
  | skip result => exact confined_pure result
  | migrate mounted unavailable =>
    exact Confined.bind (within_remote ⟨hphase, rfl⟩) fun _ => confined_pure _

variable {num : Numerals} {config : AppConfig} {home : PayloadHome} {plan : DeploymentPlan}
  {runtime : DeployRuntimeConfig}

variable (num config home plan runtime) in
theorem within_copyAndDeploy (hcopy : phases .copy) :
    Confined (Within phases (migratorMetadata runtime)
      fun text => renderFlashRuntimeConfig num config runtime = .ok text)
      (copyAndDeploy num config home plan runtime) := by
  unfold copyAndDeploy
  apply Confined.bind (Confined.raising (within_runRemoteActions _) _)
  intro _
  apply within_checked_bind
  intro text htext
  have hsources : ∃ t, deploymentUploadSources plan.artifacts text (renderRsyncDaemonConfig home)
      .generatedFlashConfig = .text t ∧ renderFlashRuntimeConfig num config runtime = .ok t :=
    ⟨text, rfl, htext⟩
  apply Confined.bind (within_uploadDeploymentPayload hsources plan [plan.migrationUpload])
  intro _
  apply Confined.bind (within_runXattrMigrationPhase plan hcopy none)
  intro copied
  apply Confined.bind _ fun _ => confined_pure copied
  unfold deployPayload
  apply Confined.bind (within_uploadDeploymentPayload hsources plan plan.uploads)
  intro _
  apply Confined.bind (within_runRemoteActions _)
  intro _
  apply Confined.bind (within_verifyDeployedPayload home _)
  intro _
  refine Confined.bind ?_ fun _ => within_verifyDeployedPayload home _
  exact within_remote trivial

variable (num config home plan runtime) in
theorem within_uploadAndVerifyDeploymentPayload (hcopy : phases .copy) (hcleanup : phases .cleanup) :
    Confined (Within phases (migratorMetadata runtime)
      fun text => renderFlashRuntimeConfig num config runtime = .ok text)
      (uploadAndVerifyDeploymentPayload num config home plan runtime) := by
  unfold uploadAndVerifyDeploymentPayload
  apply Confined.bind (within_copyAndDeploy num config home plan runtime hcopy)
  intro copied
  apply Confined.bind (within_runXattrMigrationPhase plan hcleanup _)
  intro _
  exact confined_pure ()

end Asks

/-! ## A deployment without failures -/

section Healthy

/-- The environment in which every step succeeds; the given volume is attached. -/
def healthy (volume : MaStVolume) : (op : RemoteOp) → Fallible DeployError RemoteRes op
  | .ensureVolumeRootMounted _ _ _ => .ok true
  | .testFile _ => .ok (0 : Nat)
  | .readMastVolumes => .ok [volume]
  | .xattrHfsMigrate _ _ _ _ _ => .ok ""
  | .verifyPayloadHome _ _ => .ok (⟨true, "managed payload verified"⟩ : PayloadVerificationResult)
  | .action _ => .ok ()
  | .removePaths _ => .ok ()
  | .scp _ _ _ _ => .ok ()
  | .installFlashFile _ _ _ => .ok ()
  | .flushRemoteWrites => .ok ()

variable {volume : MaStVolume}

theorem completes_checked {α : Type} {c : Checked α} {a : α} (h : c = .ok a) :
    Completes (healthy volume) (checked c) fun b => b = a := by
  subst h
  exact completes_pure rfl

theorem completes_runRemoteActions {actions : List RemoteAction}
    (h : renderRemoteActions actions = .ok ()) :
    Completes (healthy volume) (runRemoteActions actions) fun _ => True := by
  refine Completes.bind (completes_checked h) fun _ _ => ?_
  clear h
  induction actions with
  | nil => exact completes_pure trivial
  | cons action rest ih => exact Completes.bind (completes_fallible rfl) fun _ _ => ih

theorem completes_uploadFlashFile (sourceId : SourceId) (source : LocalSource) (destination : String)
    (timeoutSeconds : Nat) (mode : String) : Completes (healthy volume)
      (uploadFlashFile sourceId source destination timeoutSeconds mode) fun _ => True := by
  refine Completes.bind (completes_fallible rfl) fun _ _ => ?_
  have hinstall : Completes (healthy volume) (do
      let _ : Unit ← remote (.scp sourceId source (flashUploadTmpPath destination)
        (some timeoutSeconds))
      let _ : Unit ← remote (.installFlashFile (flashUploadTmpPath destination) destination mode)
      return ()) fun _ => True :=
    Completes.bind (completes_fallible rfl) fun _ _ =>
      Completes.bind (completes_fallible rfl) fun _ _ => completes_pure trivial
  refine Completes.bind hinstall.attempt fun installed hok => ?_
  obtain ⟨a, rfl, -⟩ := hok
  exact completes_pure trivial

theorem completes_uploadDeploymentPayload (plan : DeploymentPlan) (sources : SourceId → LocalSource)
    (uploads : List FileTransfer) :
    Completes (healthy volume) (uploadDeploymentPayload plan sources uploads) fun _ => True := by
  have htransfer : ∀ transfer, Completes (healthy volume) (transferFile plan sources transfer)
      fun _ => True := by
    intro transfer
    unfold transferFile
    split
    · exact completes_uploadFlashFile _ _ _ _ _
    · exact Completes.bind (completes_fallible rfl) fun _ _ => completes_pure trivial
  have hvolume : ∀ transfer, Completes (healthy volume)
      (ensurePayloadVolumeBeforeTransfer plan transfer) fun _ => True := by
    intro transfer
    unfold ensurePayloadVolumeBeforeTransfer
    split
    · refine Completes.bind (completes_fallible rfl) fun mounted hmounted => ?_
      subst hmounted
      exact completes_pure trivial
    · exact completes_pure trivial
  have hclean : ∀ destinations, Completes (healthy volume)
      (cleanupFlashUploadTmpPaths destinations) fun _ => True := by
    intro destinations
    unfold cleanupFlashUploadTmpPaths
    split
    · exact completes_pure trivial
    · exact Completes.bind (completes_fallible rfl) fun _ _ => completes_pure trivial
  unfold uploadDeploymentPayload
  generalize flashDestinations uploads = destinations
  generalize false = cleaned
  induction uploads generalizing cleaned with
  | nil => exact completes_pure trivial
  | cons transfer rest ih =>
    refine Completes.bind (P := fun _ => True) (Completes.raising ?_ _) fun _ _ => ih _
    refine Completes.bind (hvolume transfer) fun _ _ => ?_
    split
    · exact Completes.bind (hclean destinations) fun _ _ => htransfer transfer
    · exact htransfer transfer

theorem completes_verifyDeployedPayload (home : PayloadHome) (waitSeconds : Nat) :
    Completes (healthy volume) (verifyDeployedPayload home waitSeconds) fun _ => True := by
  refine Completes.bind (completes_fallible rfl) fun verification hverification => ?_
  subst hverification
  exact completes_pure trivial

/-- With everything healthy the copy phase migrates the attached volume. -/
theorem completes_copyPhase (plan : DeploymentPlan) (mode : LegacyMetadata) :
    Completes (healthy volume) (runXattrMigrationPhase plan .copy mode none)
      fun copied => copied.roots = [volume] := by
  have hmount : Completes (healthy volume) (mountRoots plan.appleMountWaitSeconds [volume])
      fun result => result = ([volume], []) := by
    refine Completes.bind (completes_fallible rfl) fun mounted hmounted => ?_
    subst hmounted
    exact completes_pure rfl
  have hselect : Completes (healthy volume) (selectMigrationRoots plan .copy none)
      fun selection => selection = .migrate [volume] [] := by
    refine Completes.bind (completes_fallible rfl) fun available havailable => ?_
    subst havailable
    refine Completes.bind (completes_fallible rfl) fun returncode hreturncode => ?_
    subst hreturncode
    refine Completes.bind (completes_fallible rfl) fun candidates hcandidates => ?_
    subst hcandidates
    refine Completes.bind hmount fun result hresult => ?_
    subst hresult
    exact completes_pure rfl
  refine Completes.raising (Completes.bind hselect fun selection hselection => ?_) _
  subst hselection
  exact Completes.bind (completes_fallible rfl) fun _ _ => completes_pure rfl

variable {num : Numerals} {config : AppConfig} {home : PayloadHome} {plan : DeploymentPlan}
  {runtime : DeployRuntimeConfig} {text : List Char}

variable (volume home) in
theorem completes_copyAndDeploy (hpre : renderRemoteActions plan.preUploadActions = .ok ())
    (hpost : renderRemoteActions plan.postUploadActions = .ok ())
    (htext : renderFlashRuntimeConfig num config runtime = .ok text) :
    Completes (healthy volume) (copyAndDeploy num config home plan runtime)
      fun copied => copied.roots = [volume] := by
  refine Completes.bind (Completes.raising (completes_runRemoteActions hpre) _) fun _ _ => ?_
  refine Completes.bind (completes_checked htext) fun _ _ => ?_
  refine Completes.bind (completes_uploadDeploymentPayload plan _ _) fun _ _ => ?_
  refine Completes.bind (completes_copyPhase plan _) fun copied hcopied => ?_
  have hdeploy : ∀ sources,
      Completes (healthy volume) (deployPayload home plan sources) fun _ => True := by
    intro sources
    refine Completes.bind (completes_uploadDeploymentPayload plan sources _) fun _ _ => ?_
    refine Completes.bind (completes_runRemoteActions hpost) fun _ _ => ?_
    refine Completes.bind (completes_verifyDeployedPayload home _) fun _ _ => ?_
    refine Completes.bind (completes_fallible rfl) fun _ _ => ?_
    exact completes_verifyDeployedPayload home _
  exact Completes.bind (hdeploy _) fun _ _ => completes_pure hcopied

end Healthy

/-! ## The destructive step -/

section Safe

variable (num : Numerals) (config : AppConfig) (home : PayloadHome) (plan : DeploymentPlan)
  (runtime : DeployRuntimeConfig)

/-- Before each destructive step the copy phase, the uploads, the last actions, the flush and the
two verifications around it have succeeded, and the step is for roots that were copied. -/
def CleanupOrdered (log : Log) : Prop :=
  ∀ before after migrator tdb legacyMetadata roots answer,
    log = before ++ ⟨.xattrHfsMigrate .cleanup migrator tdb legacyMetadata roots, answer⟩ :: after →
    ∃ text copied, renderFlashRuntimeConfig num config runtime = .ok text ∧
      roots.Sublist (copied.map (·.volumeRoot)) ∧
      Deployed home plan runtime text copied (succeeded good before)

/-- The migrator runs in the mode that the flash configuration of the run gives smbd. -/
def OneMode (log : Log) : Prop :=
  ∀ phase migrator tdb legacyMetadata roots answer,
    ⟨.xattrHfsMigrate phase migrator tdb legacyMetadata roots, answer⟩ ∈ log →
    ∀ text destination timeoutSeconds answer',
      ⟨.scp .generatedFlashConfig (.text text) destination timeoutSeconds, answer'⟩ ∈ log →
      smbdFruitMetadata text = legacyMetadata

/-- Both hold wherever a run of the deployment is, whatever the remote side answers. -/
def DeploymentSafe : Prop :=
  ∀ log, Visits logged (fun _ _ _ => True)
      (uploadAndVerifyDeploymentPayload num config home plan runtime).run [] log →
    CleanupOrdered num config home plan runtime log ∧ OneMode log

/-- The run raises before it comes to the migration: a path is not to be removed, a setting is no
number, or the protocol options exclude each other. -/
def Refused : Prop :=
  (∃ message, renderRemoteActions plan.preUploadActions = .error message) ∨
    ∃ message, renderFlashRuntimeConfig num config runtime = .error message

variable {num config home plan runtime}

/-- The log has no destructive step in it. -/
def Harmless (log : Log) : Prop :=
  ∀ migrator tdb legacyMetadata roots answer,
    ⟨.xattrHfsMigrate .cleanup migrator tdb legacyMetadata roots, answer⟩ ∉ log

theorem Harmless.ordered {log : Log} (h : Harmless log) :
    CleanupOrdered num config home plan runtime log := by
  rintro before after migrator tdb legacyMetadata roots answer rfl
  exact absurd (by simp) (h migrator tdb legacyMetadata roots answer)

/-- The only destructive step is the last one. -/
theorem Harmless.ordered_append {log : Log} (h : Harmless log) {text : List Char}
    {copied : List MaStVolume} {roots : List String} {migrator tdb : String}
    {legacyMetadata : LegacyMetadata}
    {answer : Fallible DeployError RemoteRes
      (.xattrHfsMigrate .cleanup migrator tdb legacyMetadata roots)}
    (htext : renderFlashRuntimeConfig num config runtime = .ok text)
    (hroots : roots.Sublist (copied.map (·.volumeRoot)))
    (hdone : Deployed home plan runtime text copied (succeeded good log)) :
    CleanupOrdered num config home plan runtime
      (log ++ [⟨.xattrHfsMigrate .cleanup migrator tdb legacyMetadata roots, answer⟩]) := by
  intro before after migrator' tdb' legacyMetadata' roots' answer' hlog
  rcases List.eq_nil_or_concat after with rfl | ⟨after', last, rfl⟩
  · obtain ⟨rfl, hlast⟩ := List.append_inj' hlog rfl
    cases hlast
    exact ⟨text, copied, htext, hroots, hdone⟩
  · rw [List.concat_eq_append, ← List.cons_append, ← List.append_assoc] at hlog
    obtain ⟨rfl, -⟩ := List.append_inj' hlog rfl
    exact absurd (by simp) (h migrator' tdb' legacyMetadata' roots' answer')

/-- Steps of the copy phase and the upload are harmless. -/
theorem Confined.harmless {α : Type} {p : RemoteM α} {mode : LegacyMetadata}
    {texts : List Char → Prop} (hp : Confined (Within (· = .copy) mode texts) p) {log : Log}
    (hlog : Harmless log) :
    wpE logged (fun _ _ _ => True) (fun _ log' => Harmless log') p (fun _ log' => Harmless log')
      (fun _ log' => Harmless log') log := by
  refine Preserves.of_uses hp.uses ?_ log hlog
  intro op answer log hop hlog migrator tdb legacyMetadata roots result hmem
  rcases List.mem_append.mp hmem with hmem | hmem
  · exact hlog migrator tdb legacyMetadata roots result hmem
  · cases List.mem_singleton.mp hmem
    cases hop.1

/-- The destructive phase after a copy phase: it is for roots that were copied. -/
theorem ordered_cleanup {copied : XattrMigrationResult} {log : Log} (hlog : Harmless log)
    (hcopied : Copied num config home plan runtime copied (succeeded good log)) :
    wpE logged (fun _ _ _ => True)
      (fun _ log' => CleanupOrdered num config home plan runtime log')
      (runXattrMigrationPhase plan .cleanup (migratorMetadata runtime) (some copied.roots))
      (fun _ _ => True) (fun _ _ => True) log := by
  suffices hrun : wpE logged (fun _ _ _ => True)
      (fun _ log' => CleanupOrdered num config home plan runtime log')
      (migrateXattrTdbToHfs plan .cleanup (migratorMetadata runtime) (some copied.roots))
      (fun _ _ => True) (fun _ _ => True) log from
    wpE_tryCatch.mpr (wpE_mono hrun (fun _ _ h => h) fun _ _ h => h)
  have hwithin : Confined (Within (· = .copy) .stream fun _ => True)
      (selectMigrationRoots plan .cleanup (some copied.roots)) :=
    within_selectMigrationRoots plan .cleanup (some copied.roots)
  have hselect := wpE_and (Confined.harmless hwithin hlog)
    ((achieves_selectMigrationRoots plan .cleanup (some copied.roots)).spec log)
  refine wpE_bind.mpr (wpE_mono (wpE_guarantee_mono hselect fun _ _ h => h.ordered) ?_
    fun _ _ _ => trivial)
  rintro selection _ ⟨hharmless, new, rfl, hselected⟩
  cases selection with
  | skip result => trivial
  | migrate mounted unavailable =>
    obtain ⟨hne, hsub⟩ := hselected
    have hroots := hsub copied.roots rfl
    have hcopiedne : copied.roots ≠ [] := by
      intro hnil
      rw [hnil] at hroots
      exact hne (List.sublist_nil.mp hroots)
    obtain ⟨text, htext, hdeployed⟩ := hcopied hcopiedne
    refine wpE_bind.mpr (wpE_fallible fun answer => ⟨?_, ?_⟩)
    · refine hharmless.ordered_append htext (hroots.map _) ?_
      rw [succeeded_append]
      exact List.Sublist.trans hdeployed (List.sublist_append_left _ _)
    · cases answer <;> trivial

theorem ordered_deployment {log : Log} (h : Visits logged (fun _ _ _ => True)
      (uploadAndVerifyDeploymentPayload num config home plan runtime).run [] log) :
    CleanupOrdered num config home plan runtime log := by
  have hstart : Harmless [] := by
    intro _ _ _ _ _ hmem
    cases hmem
  have hcopy := wpE_and
    (Confined.harmless (within_copyAndDeploy num config home plan runtime rfl) hstart)
    ((achieves_copyAndDeploy num config home plan runtime).spec [])
  suffices hrun : wpE logged (fun _ _ _ => True)
      (fun _ log' => CleanupOrdered num config home plan runtime log')
      (uploadAndVerifyDeploymentPayload num config home plan runtime)
      (fun _ _ => True) (fun _ _ => True) [] from wp_visits hrun hstart.ordered h
  refine wpE_bind.mpr (wpE_mono (wpE_guarantee_mono hcopy fun _ _ h => h.ordered) ?_
    fun _ _ _ => trivial)
  rintro copied _ ⟨hharmless, new, rfl, hcopied⟩
  exact wpE_bind.mpr (wpE_mono (ordered_cleanup hharmless hcopied) (fun _ _ _ => trivial)
    fun _ _ _ => trivial)

/-- What the flash configuration says and what the migrator is told, from the same override. -/
theorem mode_agrees_iff {text : List Char}
    (htext : renderFlashRuntimeConfig num config runtime = .ok text) :
    smbdFruitMetadata text = migratorMetadata runtime ↔
      runtime.fruitMetadataNetatalk.isSome ∨
        parseBool (config.setting "TC_FRUIT_METADATA_NETATALK") = false := by
  rw [smbdFruitMetadata_rendered htext, effective, migratorMetadata]
  cases runtime.fruitMetadataNetatalk with
  | some b => cases b <;> simp
  | none => cases parseBool (config.setting "TC_FRUIT_METADATA_NETATALK") <;> simp

theorem oneMode_deployment (hmode : ∀ text, renderFlashRuntimeConfig num config runtime = .ok text →
      smbdFruitMetadata text = migratorMetadata runtime) {log : Log}
    (h : Visits logged (fun _ _ _ => True)
      (uploadAndVerifyDeploymentPayload num config home plan runtime).run [] log) :
    OneMode log := by
  have hconfined : Confined (Within (fun _ => True) (migratorMetadata runtime)
      fun text => renderFlashRuntimeConfig num config runtime = .ok text)
      (uploadAndVerifyDeploymentPayload num config home plan runtime) :=
    within_uploadAndVerifyDeploymentPayload num config home plan runtime trivial trivial
  have hwithin := Uses.logged hconfined.uses (fun _ hmem => absurd hmem (by simp)) h
  intro phase migrator tdb legacyMetadata roots answer hmigrate text destination timeoutSeconds
    answer' hscp
  obtain ⟨-, rfl⟩ := hwithin _ hmigrate
  obtain ⟨t, ht, hrendered⟩ := hwithin _ hscp rfl
  obtain rfl := LocalSource.text.inj ht
  exact hmode text hrendered

/-- A run that is refused uploads no flash configuration. -/
theorem oneMode_of_refused (hrefused : Refused num config plan runtime) {log : Log}
    (h : Visits logged (fun _ _ _ => True)
      (uploadAndVerifyDeploymentPayload num config home plan runtime).run [] log) :
    OneMode log := by
  have hcopy : Confined (Within (fun _ => True) (migratorMetadata runtime) fun _ => False)
      (copyAndDeploy num config home plan runtime) := by
    rcases hrefused with ⟨message, hpre⟩ | ⟨message, hflash⟩
    · have hthrow : copyAndDeploy num config home plan runtime =
          throw (stopError (.value message)) := by
        simp only [copyAndDeploy, runRemoteActions, hpre]
        rfl
      rw [hthrow]
      exact confined_throw _
    · refine Confined.bind (Confined.raising (within_runRemoteActions _) _) fun _ => ?_
      refine within_checked_bind fun text htext => ?_
      rw [hflash] at htext
      cases htext
  have hconfined : Confined (Within (fun _ => True) (migratorMetadata runtime) fun _ => False)
      (uploadAndVerifyDeploymentPayload num config home plan runtime) := by
    refine Confined.bind hcopy fun copied => ?_
    exact Confined.bind (within_runXattrMigrationPhase plan trivial _) fun _ => confined_pure ()
  have hwithin := Uses.logged hconfined.uses (fun _ hmem => absurd hmem (by simp)) h
  intro phase migrator tdb legacyMetadata roots answer _ text destination timeoutSeconds answer' hscp
  obtain ⟨_, _, hfalse⟩ := hwithin _ hscp rfl
  exact hfalse.elim

variable (home) in
/-- A run without failures leaves the flash configuration and the copy phase in its log. -/
theorem exists_migrated_and_uploaded {text : List Char}
    (hpre : renderRemoteActions plan.preUploadActions = .ok ())
    (hpost : renderRemoteActions plan.postUploadActions = .ok ())
    (htext : renderFlashRuntimeConfig num config runtime = .ok text) {transfer : FileTransfer}
    (htransfer : transfer ∈ plan.uploads) (hsource : transfer.sourceId = .generatedFlashConfig)
    (hmode : transfer.mode = .flashAtomic) :
    ∃ log, Visits logged (fun _ _ _ => True)
        (uploadAndVerifyDeploymentPayload num config home plan runtime).run [] log ∧
      ∃ roots answer destination timeoutSeconds answer',
        ⟨.xattrHfsMigrate .copy plan.xattrMigratorTarget (plan.privateDir ++ "/xattr.tdb")
          (migratorMetadata runtime) roots, answer⟩ ∈ log ∧
        ⟨.scp .generatedFlashConfig (.text text) destination timeoutSeconds, answer'⟩ ∈ log := by
  let volume : MaStVolume := ⟨"wd0", "dk2", "/Volumes/dk2", "Data", "", true, "hfs"⟩
  obtain ⟨copied, hok, hroots⟩ := (completes_copyAndDeploy volume home hpre hpost htext).spec []
  let p := (copyAndDeploy num config home plan runtime).run
  have hreturns : p.Returns logged (fun _ _ _ => True) [] (exec logged (healthy volume) p []).1
      (exec logged (healthy volume) p []).2 :=
    exec_returns fun _ _ => trivial
  have hdone := wp_returns ((achieves_copyAndDeploy num config home plan runtime).spec []) hreturns
  rw [hok] at hdone
  obtain ⟨new, hlog, hcopied⟩ := hdone
  obtain ⟨text', htext', hdeployed⟩ := hcopied (by simp [hroots])
  obtain rfl := Except.ok.inj (htext.symm.trans htext')
  refine ⟨_, hreturns.visits_bind, ?_⟩
  rw [hlog, List.nil_append]
  obtain ⟨answer, hmigrate⟩ := mem_of_mem_succeeded (hdeployed.subset List.mem_cons_self)
  have hscp : RemoteOp.scp .generatedFlashConfig (.text text)
      (flashUploadTmpPath transfer.destination)
      (some (transfer.timeoutSeconds.getD flashTextUploadTimeoutSeconds)) ∈
      plan.uploads.flatMap (transferOps plan (deploymentUploadSources plan.artifacts text
        (renderRsyncDaemonConfig home))) := by
    refine List.mem_flatMap.mpr ⟨transfer, htransfer, ?_⟩
    simp [transferOps, hmode, hsource, deploymentUploadSources]
  obtain ⟨answer', hscp'⟩ := mem_of_mem_succeeded
    (hdeployed.subset (List.mem_cons_of_mem _ (List.mem_append_left _ hscp)))
  exact ⟨_, answer, _, _, answer', hmigrate, hscp'⟩

/-- Where the two ways to derive the mode differ, a run that is not refused shows it. -/
theorem agrees_of_safe {artifacts : DeployArtifactPaths} {waitSeconds : Nat}
    (hsafe : DeploymentSafe num config home (buildDeploymentPlan home artifacts waitSeconds) runtime)
    (hrefused : ¬ Refused num config (buildDeploymentPlan home artifacts waitSeconds) runtime) :
    runtime.fruitMetadataNetatalk.isSome ∨
      parseBool (config.setting "TC_FRUIT_METADATA_NETATALK") = false := by
  rw [Refused, not_or] at hrefused
  obtain ⟨hpre, hflash⟩ := hrefused
  cases hpre' : renderRemoteActions
      (buildDeploymentPlan home artifacts waitSeconds).preUploadActions with
  | error message => exact absurd ⟨message, hpre'⟩ hpre
  | ok _ =>
    cases htext : renderFlashRuntimeConfig num config runtime with
    | error message => exact absurd ⟨message, htext⟩ hflash
    | ok text =>
      have hconfig : flashScript .generatedFlashConfig "tcapsulesmb.conf" ∈
          (buildDeploymentPlan home artifacts waitSeconds).uploads := by
        simp [buildDeploymentPlan, plannedUploads]
      obtain ⟨log, hlog, roots, answer, destination, timeoutSeconds, answer', hmigrate, hscp⟩ :=
        exists_migrated_and_uploaded home hpre' rfl htext hconfig rfl rfl
      have hmode := (hsafe log hlog).2 _ _ _ _ _ _ hmigrate _ _ _ _ hscp
      exact (mode_agrees_iff htext).mp hmode

theorem deployment_safe_iff (num : Numerals) (config : AppConfig) (home : PayloadHome)
    (artifacts : DeployArtifactPaths) (waitSeconds : Nat) (runtime : DeployRuntimeConfig) :
    DeploymentSafe num config home (buildDeploymentPlan home artifacts waitSeconds) runtime ↔
      Refused num config (buildDeploymentPlan home artifacts waitSeconds) runtime ∨
        runtime.fruitMetadataNetatalk.isSome ∨
        parseBool (config.setting "TC_FRUIT_METADATA_NETATALK") = false := by
  constructor
  · intro hsafe
    exact or_iff_not_imp_left.mpr (agrees_of_safe hsafe)
  · intro h log hlog
    refine ⟨ordered_deployment hlog, ?_⟩
    rcases h with hrefused | hagree
    · exact oneMode_of_refused hrefused hlog
    · exact oneMode_deployment (fun text htext => (mode_agrees_iff htext).mpr hagree) hlog

end Safe

/-- The numerals of ASCII. -/
def asciiNumerals : Numerals where
  unicode := ⟨fun _ => false, fun _ => none⟩
  isDigit := Char.isDigit

/-- The internal disk. -/
def dk2Home : PayloadHome := ⟨"/Volumes/dk2", "/dev/dk2", ".samba4"⟩

def someArtifacts : DeployArtifactPaths :=
  ⟨"smbd", "xattr-hfs-migrate", "mdns-advertiser", "nbns-advertiser", "rsync", "service",
    "telemetry"⟩

/-- With a configuration that says nothing and no overrides, the device has smbd read Netatalk
metadata, while the migrator is told to read streams. -/
theorem not_deployment_safe : ¬ ∀ num config home artifacts waitSeconds runtime,
    DeploymentSafe num config home (buildDeploymentPlan home artifacts waitSeconds) runtime := by
  intro hsafe
  have hpre : renderRemoteActions
      (buildDeploymentPlan dk2Home someArtifacts 30).preUploadActions = .ok () := by
    rfl
  have hflash : (renderFlashRuntimeConfig asciiNumerals ⟨[]⟩
      { nbnsEnabled := false }).toOption.isSome = true := by
    decide +kernel
  have hrefused : ¬ Refused asciiNumerals ⟨[]⟩ (buildDeploymentPlan dk2Home someArtifacts 30)
      { nbnsEnabled := false } := by
    rintro (⟨message, herror⟩ | ⟨message, herror⟩)
    · rw [hpre] at herror
      cases herror
    · rw [herror] at hflash
      cases hflash
  rcases agrees_of_safe (hsafe _ _ _ _ _ _) hrefused with hsome | hparse
  · cases hsome
  · exact absurd hparse (by decide)

end TimeCapsule.Deploy
