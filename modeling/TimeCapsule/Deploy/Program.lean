import TimeCapsule.Deploy.Plan
import TimeCapsule.Lib.Logged

/-!
# The run of a deployment

`upload_and_verify_deployment_payload` and what it calls, over remote steps that each may fail.  A
remote step answers with a result or an error, and the environment chooses the answer.
-/

namespace TimeCapsule.Deploy

open Lib Migrate

inductive DeployError where
  | ssh (message : String) (timedOut : Bool)
  | runtime (message : String)
  | value (message : String)
  | device (message : String) (code : Option String)
deriving Repr

/-- `str(exc)` -/
def DeployError.message : DeployError → String
  | .ssh message _ => message
  | .runtime message => message
  | .value message => message
  | .device message _ => message

def isSshTimeoutError : DeployError → Bool
  | .ssh _ timedOut => timedOut
  | _ => false

/-- What is copied to the device. -/
inductive LocalSource where
  | binary (path : String)
  | asset (name : String)
  | text (contents : List Char)
deriving Repr

inductive RemoteOp where
  | action (action : RemoteAction)
  | ensureVolumeRootMounted (volumeRoot devicePath : String) (waitSeconds : Nat)
  | testFile (path : String)
  | readMastVolumes
  | xattrHfsMigrate (phase : Phase) (migrator tdb : String) (legacyMetadata : LegacyMetadata)
      (roots : List String)
  | removePaths (paths : List String)
  | scp (sourceId : SourceId) (source : LocalSource) (destination : String)
      (timeoutSeconds : Option Nat)
  | installFlashFile (tmp destination mode : String)
  | verifyPayloadHome (home : PayloadHome) (waitSeconds : Nat)
  | flushRemoteWrites

structure PayloadVerificationResult where
  ok : Bool
  detail : String
deriving Repr

/-- `testFile` answers with the exit status, the migrator with its output. -/
def RemoteRes : RemoteOp → Type
  | .ensureVolumeRootMounted _ _ _ => Bool
  | .testFile _ => Nat
  | .readMastVolumes => List MaStVolume
  | .xattrHfsMigrate _ _ _ _ _ => String
  | .verifyPayloadHome _ _ => PayloadVerificationResult
  | _ => Unit

abbrev RemoteM (α : Type) : Type := Prog.Failing RemoteOp DeployError RemoteRes α

/-- One remote step, whose error is raised. -/
def remote (op : RemoteOp) : RemoteM (RemoteRes op) := Prog.fallible op

def checked {α : Type} : Checked α → RemoteM α
  | .ok a => return a
  | .error message => throw (.value message)

/-! ## Remote actions -/

def runEach : List RemoteAction → RemoteM Unit
  | [] => return ()
  | action :: rest => do
      let _ : Unit ← remote (.action action)
      runEach rest

/-- All commands are rendered before the first one runs. -/
def runRemoteActions (actions : List RemoteAction) : RemoteM Unit := do
  checked (renderRemoteActions actions)
  runEach actions

/-! ## Uploads -/

/-- `_flash_upload_tmp_path`: the hidden file beside the destination. -/
def flashUploadTmpPath (destination : String) : String :=
  let name := (destination.toList.reverse.takeWhile (· ≠ '/')).reverse
  let parent := (destination.toList.reverse.dropWhile (· ≠ '/')).reverse
  String.ofList parent ++ "." ++ String.ofList name ++ ".tmp"

def cleanupFlashUploadTmpPaths (destinations : List String) : RemoteM Unit :=
  match (destinations.map flashUploadTmpPath).eraseDups with
  | [] => return ()
  | path :: paths => do
      let _ : Unit ← remote (.removePaths (path :: paths))
      return ()

/-- An error of the clean-up itself is dropped. -/
def bestEffortCleanupFlashUploadTmpPath (tmp : String) : RemoteM Unit := do
  let _ ← Prog.attempt (remote (.removePaths [tmp]))
  return ()

def uploadFlashFile (sourceId : SourceId) (source : LocalSource) (destination : String)
    (timeoutSeconds : Nat) (mode : String) : RemoteM Unit := do
  let tmp := flashUploadTmpPath destination
  let _ : Unit ← remote (.removePaths [tmp])
  let installed : Except DeployError Unit ← Prog.attempt (do
    let _ : Unit ← remote (.scp sourceId source tmp (some timeoutSeconds))
    let _ : Unit ← remote (.installFlashFile tmp destination mode)
    return ())
  match installed with
  | .ok () => return ()
  | .error e => do
      bestEffortCleanupFlashUploadTmpPath tmp
      throw e

def destinationIsUnder (path root : String) : Bool :=
  rstripSlash path == rstripSlash root ||
    ((rstripSlash root).toList ++ ['/']).isPrefixOf (rstripSlash path).toList

def ensurePayloadVolumeBeforeTransfer (plan : DeploymentPlan) (transfer : FileTransfer) :
    RemoteM Unit := do
  if destinationIsUnder transfer.destination plan.payloadDir then
    let mounted : Bool ← remote
      (.ensureVolumeRootMounted plan.volumeRoot plan.devicePath plan.appleMountWaitSeconds)
    if mounted then return ()
    else throw (.runtime ("payload volume " ++ plan.volumeRoot ++
      " is not mounted before upload to " ++ transfer.destination))
  else return ()

/-- `_deployment_upload_sources` -/
def deploymentUploadSources (artifacts : DeployArtifactPaths)
    (flashConfigText rsyncConfigText : List Char) : SourceId → LocalSource
  | .binarySmbd => .binary artifacts.smbd
  | .binaryXattrMigrator => .binary artifacts.xattrMigrator
  | .binaryMdns => .binary artifacts.mdns
  | .binaryNbns => .binary artifacts.nbns
  | .binaryService => .binary artifacts.service
  | .binaryTelemetry => .binary artifacts.telemetry
  | .binaryRsync => .binary artifacts.rsync
  | .generatedFlashConfig => .text flashConfigText
  | .generatedRsyncConfig => .text rsyncConfigText
  | .packagedRcLocal => .asset "rc.local"
  | .packagedCommonSh => .asset "common.sh"
  | .packagedDfreeSh => .asset "dfree.sh"
  | .packagedBoot => .asset "boot.sh"
  | .packagedManager => .asset "manager.sh"
  | .packagedXattrMigrateWrapper => .asset "migrate.sh"

/-- The mode that the plan gives the destination; a later permission replaces an earlier one. -/
def plannedMode (plan : DeploymentPlan) (destination : String) : String :=
  ((plan.permissions.reverse.find? (·.path == destination)).map (·.mode)).getD "755"

def transferFile (plan : DeploymentPlan) (sources : SourceId → LocalSource)
    (transfer : FileTransfer) : RemoteM Unit :=
  match transfer.mode with
  | .flashAtomic => uploadFlashFile transfer.sourceId (sources transfer.sourceId)
      transfer.destination (transfer.timeoutSeconds.getD flashTextUploadTimeoutSeconds)
      (plannedMode plan transfer.destination)
  | _ => do
      let _ : Unit ← remote (.scp transfer.sourceId (sources transfer.sourceId)
        transfer.destination transfer.timeoutSeconds)
      return ()

def flashDestinations (uploads : List FileTransfer) : List String :=
  (uploads.filter (·.mode = .flashAtomic)).map (·.destination)

def payloadUploadTimeoutMessage : String :=
  "The disk did not respond while copying the SMB payload. It may be failing or unable to spin up. " ++
    "Run Disk Repair; if this keeps happening, the disk may need replacing."

/-- `_payload_upload_timed_out` of the transfer that was being made. -/
def payloadUploadTimedOut (plan : DeploymentPlan) (transfer : FileTransfer) (e : DeployError) : Bool :=
  destinationIsUnder transfer.destination plan.payloadDir && isSshTimeoutError e

def uploadError (plan : DeploymentPlan) (transfer : FileTransfer) (e : DeployError) : DeployError :=
  if payloadUploadTimedOut plan transfer e then
    .device payloadUploadTimeoutMessage (some "payload_upload_timeout")
  else e

/-- The flash files are cleaned up before the first of them is written. -/
def uploadEach (plan : DeploymentPlan) (sources : SourceId → LocalSource) (destinations : List String) :
    List FileTransfer → (flashTmpPathsCleaned : Bool) → RemoteM Unit
  | [], _ => return ()
  | transfer :: rest, cleaned => do
      Prog.raising (do
        ensurePayloadVolumeBeforeTransfer plan transfer
        if transfer.mode = .flashAtomic ∧ cleaned = false then
          cleanupFlashUploadTmpPaths destinations
        transferFile plan sources transfer) (uploadError plan transfer)
      uploadEach plan sources destinations rest (cleaned || transfer.mode = .flashAtomic)

def uploadDeploymentPayload (plan : DeploymentPlan) (sources : SourceId → LocalSource)
    (uploads : List FileTransfer) : RemoteM Unit :=
  uploadEach plan sources (flashDestinations uploads) uploads false

/-! ## The migration -/

structure XattrMigrationResult where
  output : String
  roots : List MaStVolume
  unavailableRoots : List String
deriving Repr

def phaseName : Phase → String
  | .copy => "copy"
  | .cleanup => "cleanup"

/-- The volumes that can be mounted, and the roots of the others. -/
def mountRoots (waitSeconds : Nat) : List MaStVolume → RemoteM (List MaStVolume × List String)
  | [] => return ([], [])
  | volume :: rest => do
      let mounted : Bool ←
        remote (.ensureVolumeRootMounted volume.volumeRoot volume.devicePath waitSeconds)
      let (others, unavailable) ← mountRoots waitSeconds rest
      if mounted then return (volume :: others, unavailable)
      else return (others, volume.volumeRoot :: unavailable)

/-- What is left to do once the roots are chosen. -/
inductive Selection where
  | skip (result : XattrMigrationResult)
  | migrate (mounted : List MaStVolume) (unavailable : List String)

def candidateRoots : Option (List MaStVolume) → RemoteM (List MaStVolume)
  | none => remote .readMastVolumes
  | some roots => return roots

/-- The first half of `migrate_xattr_tdb_to_hfs`. -/
def selectMigrationRoots (plan : DeploymentPlan) (phase : Phase)
    (roots : Option (List MaStVolume)) : RemoteM Selection := do
  let available : Bool ← remote
    (.ensureVolumeRootMounted plan.volumeRoot plan.devicePath plan.appleMountWaitSeconds)
  if ¬ available then throw (.runtime "migration payload volume is unavailable")
  else
    let returncode : Nat ← remote (.testFile (plan.privateDir ++ "/xattr.tdb"))
    if returncode = 1 then
      return .skip ⟨"migration_phase=" ++ phaseName phase ++ " skipped reason=no_legacy_tdb", [], []⟩
    else if returncode ≠ 0 then throw (.runtime "could not probe legacy metadata")
    else
      let candidates ← candidateRoots roots
      if candidates.isEmpty then throw (.runtime "migration found no attached HFS volumes")
      else
        let (mounted, unavailable) ← mountRoots plan.appleMountWaitSeconds candidates
        if mounted.isEmpty then
          if phase = .cleanup ∧ roots.isSome then
            return .skip ⟨"migration_phase=cleanup skipped reason=copied_roots_unavailable", [],
              unavailable⟩
          else throw (.runtime "migration found no mounted HFS volumes")
        else return .migrate mounted unavailable

def migrateXattrTdbToHfs (plan : DeploymentPlan) (phase : Phase) (legacyMetadata : LegacyMetadata)
    (roots : Option (List MaStVolume)) : RemoteM XattrMigrationResult := do
  match ← selectMigrationRoots plan phase roots with
  | .skip result => return result
  | .migrate mounted unavailable => do
      let output : String ← remote (.xattrHfsMigrate phase plan.xattrMigratorTarget
        (plan.privateDir ++ "/xattr.tdb") legacyMetadata (mounted.map (·.volumeRoot)))
      return ⟨output, mounted, unavailable⟩

def xattrMigrationTimeoutMessage : String :=
  "Timed out migrating Samba metadata into native HFS attributes. " ++
    "Verified exports may already be committed; unexported metadata is retained. " ++
    "Rerun deploy after checking the disk."

def migrationError (phase : Phase) (e : DeployError) : DeployError :=
  if isSshTimeoutError e then
    .device xattrMigrationTimeoutMessage (some "xattr_migration_timeout")
  else .device ("Native HFS metadata migration (" ++ phaseName phase ++ ") failed: " ++ e.message)
    (some "xattr_migration_failed")

def runXattrMigrationPhase (plan : DeploymentPlan) (phase : Phase) (legacyMetadata : LegacyMetadata)
    (roots : Option (List MaStVolume)) : RemoteM XattrMigrationResult :=
  Prog.raising (migrateXattrTdbToHfs plan phase legacyMetadata roots) (migrationError phase)

/-! ## The deployment -/

def renderRsyncDaemonConfig (home : PayloadHome) : List Char :=
  ("port = 873\nlog file = /mnt/Memory/samba4/var/rsync.log\nuid = root\ngid = wheel\n" ++
    "read only = false\nlist = true\n\n[shareroot]\npath = " ++ rstripSlash home.volumeRoot ++
    "/ShareRoot\n").toList

def payloadVerificationError (home : PayloadHome) (result : PayloadVerificationResult) : String :=
  "managed payload verification failed at " ++ home.payloadDir ++ ": " ++ result.detail

def verifyDeployedPayload (home : PayloadHome) (waitSeconds : Nat) : RemoteM Unit := do
  let verification : PayloadVerificationResult ← remote (.verifyPayloadHome home waitSeconds)
  if verification.ok then return ()
  else throw (.device (payloadVerificationError home verification) none)

def managerStopTimeoutMessage : String :=
  "A service on the device is stuck, often due to a failing disk. " ++
    "Unplug the device, plug it back in, and try again."

def managerStopTimeoutSentinel : String := "process manager did not stop"

/-- `pattern in text` -/
def containsText (text pattern : String) : Bool :=
  (List.range (text.length + 1)).any fun i => pattern.toList.isPrefixOf (text.toList.drop i)

def stopError (e : DeployError) : DeployError :=
  if containsText e.message managerStopTimeoutSentinel then
    .device managerStopTimeoutMessage (some "manager_stop_timeout")
  else e

/-- An override that is not given counts as one that is off. -/
def migratorMetadata (runtime : DeployRuntimeConfig) : LegacyMetadata :=
  if runtime.fruitMetadataNetatalk = some true then .netatalk else .stream

section Run

variable (num : Numerals) (config : AppConfig) (home : PayloadHome) (plan : DeploymentPlan)
  (runtime : DeployRuntimeConfig)

/-- The uploads, the last actions and the checks, between the two phases of the migration. -/
def deployPayload (sources : SourceId → LocalSource) : RemoteM Unit := do
  uploadDeploymentPayload plan sources plan.uploads
  runRemoteActions plan.postUploadActions
  verifyDeployedPayload home plan.appleMountWaitSeconds
  let _ : Unit ← remote .flushRemoteWrites
  verifyDeployedPayload home plan.appleMountWaitSeconds

/-- Everything before the destructive phase; the result is that of the copy phase. -/
def copyAndDeploy : RemoteM XattrMigrationResult := do
  Prog.raising (runRemoteActions plan.preUploadActions) stopError
  let flashConfigText ← checked (renderFlashRuntimeConfig num config runtime)
  let sources :=
    deploymentUploadSources plan.artifacts flashConfigText (renderRsyncDaemonConfig home)
  uploadDeploymentPayload plan sources [plan.migrationUpload]
  let copied ← runXattrMigrationPhase plan .copy (migratorMetadata runtime) none
  deployPayload home plan sources
  return copied

def uploadAndVerifyDeploymentPayload : RemoteM Unit := do
  let copied ← copyAndDeploy num config home plan runtime
  let _ ← runXattrMigrationPhase plan .cleanup (migratorMetadata runtime) (some copied.roots)
  return ()

end Run

end TimeCapsule.Deploy
