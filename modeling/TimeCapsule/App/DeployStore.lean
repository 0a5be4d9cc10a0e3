import TimeCapsule.App.FlashStore

/-!
# Installing

The store runs the helper to plan an installation and to carry it out, and publishes how far it has got.
A dashboard keeps the installation's state in the profile of the device: what the store publishes makes
tasks, and these write the profile when they come to run.
-/

namespace TimeCapsule.App

open Lib

structure DeployOptions where
  nbnsEnabled : Bool
  rsyncEnabled : Bool
  noReboot : Bool
  noWait : Bool
  internalShareUseDiskRoot : Bool
  smbBindLanOnly : Bool
  smbBrowseCompatibility : Bool
  mdnsAdvertiseAFP : Bool
  anyProtocol : Bool
  requireSMBEncryption : Bool
  forceDisableSMBSigningAndEncryption : Bool
  fruitMetadataNetatalk : Bool
  vfsAIOForkEnabled : Bool
  debugLogging : Bool
  ataIdleSeconds : Int
  ataStandby : Option Int
  mountWait : Int
deriving DecidableEq, Repr

/-- `OperationParams.Deploy.params` -/
def deployParams (dryRun : Bool) (o : DeployOptions) : JsonObject :=
  [("dry_run", .bool dryRun), ("no_reboot", .bool o.noReboot), ("no_wait", .bool o.noWait),
    ("nbns_enabled", .bool o.nbnsEnabled), ("rsync_enabled", .bool o.rsyncEnabled),
    ("internal_share_use_disk_root", .bool o.internalShareUseDiskRoot),
    ("smb_bind_lan_only", .bool o.smbBindLanOnly),
    ("smb_browse_compatibility", .bool o.smbBrowseCompatibility),
    ("mdns_advertise_afp", .bool o.mdnsAdvertiseAFP), ("any_protocol", .bool o.anyProtocol),
    ("require_smb_encryption", .bool o.requireSMBEncryption),
    ("force_disable_smb_signing_and_encryption", .bool o.forceDisableSMBSigningAndEncryption),
    ("fruit_metadata_netatalk", .bool o.fruitMetadataNetatalk),
    ("vfs_aio_fork_enabled", .bool o.vfsAIOForkEnabled), ("debug_logging", .bool o.debugLogging),
    ("mount_wait", .int o.mountWait), ("ata_idle_seconds", .int o.ataIdleSeconds),
    ("ata_standby", (o.ataStandby.map Json.int).getD (.str ""))]

inductive DeployWorkflowState where
  | idle
  | planning
  | planReady
  | planStale
  | planFailed
  | deploying
  | awaitingConfirmation
  | deployed
  | deployFailed
deriving DecidableEq, Repr

structure DeployPlanPayload where
  payloadFamily : Option String
  rsyncEnabled : Bool
deriving DecidableEq, Repr

structure DeployResultPayload where
  rebootRequested : Option Bool
  verified : Option Bool
  message : Option String
deriving DecidableEq, Repr

/-- `BackendErrorViewModel` -/
structure DeployError where
  code : String
  message : String
  recovery : Option DeviceRecoverySnapshot
deriving DecidableEq, Repr

/-- `WorkflowLocalError` -/
def DeployError.ofLocal (code : String) : DeployError := ⟨code, "workflow.error." ++ code, none⟩

/-- An event with what it says, and with its payload, as the plan and the installation decode it. -/
structure DeployEvent extends BackendEvent where
  ok : Option Bool
  message : String
  recovery : Option DeviceRecoverySnapshot
  plan : Except String DeployPlanPayload
  result : Except String DeployResultPayload

/-- What the store publishes. -/
inductive Published where
  | state (state : DeployWorkflowState)
  | stage
deriving DecidableEq, Repr

structure DeployWorkflowStore where
  state : DeployWorkflowState
  plan : Option DeployPlanPayload
  result : Option DeployResultPayload
  error : Option DeployError
  currentStage : Option String
  plannedOptions : Option DeployOptions
  /-- The options that are set, or the code of what is wrong with them. -/
  currentOptions : Except String DeployOptions
  backend : BackendClient
  /-- The operation of the observer. -/
  activeOperation : Option ActiveOperation
  /-- What has been published, and not been seen. -/
  published : List Published

/-- What a run is started with: `conflict` is the coordinator's reason to refuse it. -/
structure DeployStart where
  id : String
  context : Option DeviceRuntimeContext
  password : Option String
  conflict : Option String

namespace DeployWorkflowStore

variable (p : Platform)

def isBusy (s : DeployWorkflowStore) : Bool :=
  s.backend.isRunning || s.backend.pendingConfirmation.isSome

def setState (state : DeployWorkflowState) (s : DeployWorkflowStore) : DeployWorkflowStore :=
  { s with state := state, published := s.published ++ [.state state] }

def setStage (stage : Option String) (s : DeployWorkflowStore) : DeployWorkflowStore :=
  { s with currentStage := stage, published := s.published ++ [.stage] }

/-- `finish` of the observer. -/
def finish (s : DeployWorkflowStore) : DeployWorkflowStore := { s with activeOperation := none }

/-- `rejectRun` and `failLocally` -/
def rejectRun (state : DeployWorkflowState) (error : DeployError) (s : DeployWorkflowStore) :
    DeployWorkflowStore :=
  (({ s with error := some error }.setStage none).setState state).finish

def reconcilePlanFreshness (s : DeployWorkflowStore) : DeployWorkflowStore :=
  if s.plan.isNone || !(s.state = .planReady || s.state = .planStale) then s
  else if s.currentOptions.toOption = s.plannedOptions then
    let s := s.setState .planReady
    if s.error.map (·.code) = some "deploy_plan_stale" then { s with error := none } else s
  else s.setState .planStale

/-! ### Runs -/

/-- A run that has started: its operation and its options. -/
structure Started where
  operation : ActiveOperation
  options : DeployOptions

/-- What the two runs have in common: a run is refused, or its helper runs. -/
def run (refused : DeployWorkflowState) (dryRun : Bool) (profileID : ProfileID) (start : DeployStart)
    (s : DeployWorkflowStore) : DeployWorkflowStore × Option Started :=
  match s.currentOptions with
  | .error code => (s.rejectRun refused (.ofLocal code), none)
  | .ok options =>
      if s.isBusy then (s.rejectRun refused (.ofLocal "operation_already_running"), none)
      else
        let s := { s with backend := s.backend.settled s.backend.clear }
        match start.conflict with
        | some message => (s.rejectRun refused ⟨"operation_rejected", message, none⟩, none)
        | none =>
            let operation : ActiveOperation := ⟨start.id, "deploy", some profileID, start.context⟩
            ({ s with
              backend := s.backend.settled (s.backend.run "deploy"
                (injectingPassword p start.password (deployParams dryRun options)) start.context
                start.id)
              activeOperation := some operation }, some ⟨operation, options⟩)

def runPlan (profileID : ProfileID) (start : DeployStart) (s : DeployWorkflowStore) :
    DeployWorkflowStore × Option ActiveOperation :=
  let (s, started) := s.run p .planFailed true profileID start
  match started with
  | none => (s, none)
  | some started =>
      let s := s.setState .planning
      let s := { s with plan := none, result := none, error := none }.setStage none
      ({ s with plannedOptions := some started.options }, some started.operation)

def runDeploy (profileID : ProfileID) (start : DeployStart) (s : DeployWorkflowStore) :
    DeployWorkflowStore × Option ActiveOperation :=
  let hasFreshPlan := s.plan.isSome && s.plannedOptions = s.currentOptions.toOption
  let (s, started) := s.run p .deployFailed false profileID start
  match started with
  | none => (s, none)
  | some started =>
      let s := s.setState .deploying
      let plan := if hasFreshPlan then s.plan else none
      let s := { s with plan := plan, result := none, error := none }.setStage none
      ({ s with plannedOptions := some started.options }, some started.operation)

/-! ### Events -/

def applyConfirmationCancelled (s : DeployWorkflowStore) : DeployWorkflowStore :=
  let s := ({ s with error := none }.setStage none).finish
  if s.plan.isNone then s.setState .idle else (s.setState .planReady).reconcilePlanFreshness

/-- A plan or an installation has failed. -/
def failed (error : DeployError) (s : DeployWorkflowStore) : DeployWorkflowStore :=
  let state : DeployWorkflowState := if s.state = .planning then .planFailed else .deployFailed
  ({ s with error := some error }.setState state).finish

def applyError (event : DeployEvent) (s : DeployWorkflowStore) : DeployWorkflowStore :=
  if event.code = some "confirmation_required" then
    { s with error := none }.setState .awaitingConfirmation
  else if event.code = some "confirmation_cancelled" then s.applyConfirmationCancelled
  else s.failed ⟨event.code.getD "operation_failed", event.message, event.recovery⟩

def failContract (state : DeployWorkflowState) (message : String) (s : DeployWorkflowStore) :
    DeployWorkflowStore :=
  ({ s with error := some ⟨"contract_decode_failed", message, none⟩ }.setState state).finish

def applyPlanResult (event : DeployEvent) (s : DeployWorkflowStore) : DeployWorkflowStore :=
  match event.plan with
  | .ok plan =>
      (({ s with plan := some plan, result := none, error := none }.finish).setState
        .planReady).reconcilePlanFreshness
  | .error message => s.failContract .planFailed message

def applyDeployResult (event : DeployEvent) (s : DeployWorkflowStore) : DeployWorkflowStore :=
  match event.result with
  | .ok result => ({ s with result := some result, error := none }.setState .deployed).finish
  | .error message => s.failContract .deployFailed message

def handle (event : DeployEvent) (s : DeployWorkflowStore) : DeployWorkflowStore :=
  if event.operation ≠ "deploy" then s
  else
    match (if event.type = "stage" then event.stage else none) with
    | some stage =>
        let s := s.setStage (some stage)
        if s.state = .awaitingConfirmation then s.setState .deploying else s
    | none =>
        if event.type = "error" then s.applyError event
        else if event.type ≠ "result" then s
        else if event.ok = some false then s.failed ⟨"operation_failed", event.message, none⟩
        else
          match s.state with
          | .planning => s.applyPlanResult event
          | .deploying | .awaitingConfirmation => s.applyDeployResult event
          | _ => s

/-- The observer hands an event on when it is one of the active operation. -/
def process (event : DeployEvent) (s : DeployWorkflowStore) : DeployWorkflowStore :=
  match s.activeOperation with
  | none => s
  | some operation => if operation.accepts event.toBackendEvent then s.handle event else s

/-- The event that stands for a confirmation that is not given. -/
def cancelled (confirmation : PendingConfirmation) : DeployEvent where
  type := "error"
  operation := confirmation.operation
  code := some "confirmation_cancelled"
  details := none
  requestId := some confirmation.requestID
  stage := none
  risk := none
  cancellable := none
  ok := none
  message := "helper.error.cancelled"
  recovery := none
  plan := .error ""
  result := .error ""

def confirmPending (s : DeployWorkflowStore) : DeployWorkflowStore :=
  { s with backend := s.backend.settled s.backend.confirmPending }

def cancelPendingConfirmation (s : DeployWorkflowStore) : DeployWorkflowStore :=
  let settled := { s with backend := s.backend.settled s.backend.cancelPendingConfirmation }
  match s.backend.pendingConfirmation, s.backend.isRunning with
  | some confirmation, false => settled.process (cancelled confirmation)
  | _, _ => settled

end DeployWorkflowStore

/-! ## The profile -/

/-- `DeviceDashboardSnapshotMapper` -/
structure Snapshots where
  deployState : DeviceDeployStateSnapshot
  runtimeState : DeviceRuntimeStateSnapshot
deriving DecidableEq, Repr

def startedDeploySnapshots (operation : ActiveOperation) (payloadFamily stage : Option String)
    (startedAt : Date) : Snapshots where
  deployState :=
    { operationID := some operation.id
      startedAt := startedAt
      updatedAt := startedAt
      finishedAt := none
      status := .deploying
      stage := stage
      payloadFamily := payloadFamily
      rebootRequested := none
      verified := none
      summary := ""
      errorCode := none
      errorMessage := none
      recovery := none }
  runtimeState := ⟨.installing, .deploy, stage, payloadFamily, none, "", none, none, none⟩

def inProgressDeploySnapshots (current : DeviceDeployStateSnapshot)
    (runtimeState : Option DeviceRuntimeStateSnapshot) (status : DeviceDeployStateStatus)
    (stage : Option String) (observedAt : Date) : Snapshots where
  deployState :=
    { current with updatedAt := observedAt, finishedAt := none, status := status, stage := stage }
  runtimeState :=
    { state := .installing
      source := .deploy
      stage := stage
      payloadFamily := (runtimeState.bind (·.payloadFamily)).or current.payloadFamily
      verified := runtimeState.bind (·.verified)
      summary := (runtimeState.map (·.summary)).getD ""
      errorCode := runtimeState.bind (·.errorCode)
      errorMessage := runtimeState.bind (·.errorMessage)
      recovery := runtimeState.bind (·.recovery) }

def failedDeploySnapshots (operation : ActiveOperation) (profile : DeviceProfile)
    (stage payloadFamily : Option String) (error : Option DeployError) (failedAt : Date) :
    Snapshots :=
  let current := profile.lastDeployState
  let errorCode := error.map (·.code)
  let errorMessage := (error.map (·.message)).getD "install.state.deploy_failed"
  let recovery := error.bind (·.recovery)
  { deployState :=
      { operationID := (current.bind (·.operationID)).or (some operation.id)
        startedAt := (current.map (·.startedAt)).getD failedAt
        updatedAt := failedAt
        finishedAt := some failedAt
        status := .failed
        stage := stage
        payloadFamily := payloadFamily
        rebootRequested := none
        verified := none
        summary := ""
        errorCode := errorCode
        errorMessage := some errorMessage
        recovery := recovery }
    runtimeState :=
      ⟨.installFailed, .deploy, stage, payloadFamily, some false, "", errorCode, some errorMessage,
        recovery⟩ }

def succeededDeploySnapshots (operation : ActiveOperation) (profile : DeviceProfile)
    (result : DeployResultPayload) (payloadFamily stage : Option String) (finishedAt : Date) :
    Snapshots :=
  let current := profile.lastDeployState
  let runtimeState : DeviceRuntimeState :=
    if result.verified = some true then .installedVerified else .installedUnverified
  let summary := result.message.getD ""
  { deployState :=
      { operationID := (current.bind (·.operationID)).or (some operation.id)
        startedAt := (current.map (·.startedAt)).getD finishedAt
        updatedAt := finishedAt
        finishedAt := some finishedAt
        status := .succeeded
        stage := stage
        payloadFamily := payloadFamily
        rebootRequested := result.rebootRequested
        verified := result.verified
        summary := summary
        errorCode := none
        errorMessage := none
        recovery := none }
    runtimeState :=
      ⟨runtimeState, .deploy, stage, payloadFamily, result.verified, summary, none, none, none⟩ }

/-! ## Tasks -/

/-- A task that waits to run.  The first two look at what the store has published, the others write the
profile. -/
inductive DashboardTask where
  | updateDeployState (state : DeployWorkflowState)
  | updateCurrentDeployStage
  | persistStarted (operation : ActiveOperation) (snapshots : Snapshots)
  | persistStage (operation : ActiveOperation) (observedAt : Date)
  | persistAwaitingConfirmation
  | persistFailed (operation : ActiveOperation)
  | persistSucceeded (operation : ActiveOperation) (profile : DeviceProfile)
      (result : DeployResultPayload)
deriving DecidableEq, Repr

/-- The operation that a task is for. -/
def DashboardTask.operation? : DashboardTask → Option ActiveOperation
  | persistStarted operation _ => some operation
  | persistStage operation _ => some operation
  | persistFailed operation => some operation
  | persistSucceeded operation _ _ => some operation
  | _ => none

/-- The store of a device, the operation that its dashboard follows, the profile, and the tasks that
wait. -/
structure DeployDashboard where
  store : DeployWorkflowStore
  activeDeployOperation : Option ActiveOperation
  profile : DeviceProfile
  tasks : List DashboardTask

namespace DeployDashboard

variable (p : Platform)

/-- The task that looks at what has been published. -/
def taskOf : Published → DashboardTask
  | .state state => .updateDeployState state
  | .stage => .updateCurrentDeployStage

/-- What the store has published makes tasks. -/
def observe (store : DeployWorkflowStore) (d : DeployDashboard) : DeployDashboard :=
  { d with
    store := { store with published := [] }
    tasks := d.tasks ++ store.published.map taskOf }

def addTask (task : DashboardTask) (d : DeployDashboard) : DeployDashboard :=
  { d with tasks := d.tasks ++ [task] }

def trackDeployStart (operation : ActiveOperation) (now : Date) (d : DeployDashboard) :
    DeployDashboard :=
  { d with activeDeployOperation := some operation }.addTask
    (.persistStarted operation (startedDeploySnapshots operation
      ((d.store.plan.bind (·.payloadFamily)).or d.profile.payloadFamily) d.store.currentStage now))

/-! ### What a task does -/

def updateDeployState (state : DeployWorkflowState) (d : DeployDashboard) : DeployDashboard :=
  match d.activeDeployOperation with
  | none => d
  | some operation =>
      if operation.profileID.isNone then d
      else
        match state with
        | .awaitingConfirmation => d.addTask .persistAwaitingConfirmation
        | .deployFailed => { d with activeDeployOperation := none }.addTask (.persistFailed operation)
        | .deployed =>
            let d' := { d with activeDeployOperation := none }
            match d.store.result with
            | none => d'
            | some result => d'.addTask (.persistSucceeded operation d.profile result)
        | _ => d

def updateCurrentDeployStage (now : Date) (d : DeployDashboard) : DeployDashboard :=
  match d.activeDeployOperation with
  | none => d
  | some operation =>
      if (d.store.state = .deploying || d.store.state = .awaitingConfirmation) &&
          operation.profileID.isSome then
        d.addTask (.persistStage operation now)
      else d

/-- `updateInstallOperationState` of the registry -/
def persist (snapshots : Snapshots) (rsyncEnabled : Option Bool) (now : Date) (d : DeployDashboard) :
    DeployDashboard :=
  { d with
    profile :=
      { d.profile with
        lastDeployState := some snapshots.deployState
        runtimeState := some snapshots.runtimeState
        settings :=
          { d.profile.settings with
            rsyncEnabled := rsyncEnabled.getD d.profile.settings.rsyncEnabled }
        updatedAt := now } }

/-- A deploy state that is in progress is written with another status and stage. -/
def persistInProgress (current : DeviceDeployStateSnapshot) (status : DeviceDeployStateStatus)
    (observedAt now : Date) (d : DeployDashboard) : DeployDashboard :=
  d.persist (inProgressDeploySnapshots current d.profile.runtimeState status
    (d.store.currentStage.or current.stage) observedAt) none now

def runTask (task : DashboardTask) (now : Date) (d : DeployDashboard) : DeployDashboard :=
  match task with
  | .updateDeployState state => d.updateDeployState state
  | .updateCurrentDeployStage => d.updateCurrentDeployStage now
  | .persistStarted _ snapshots => d.persist snapshots none now
  | .persistStage operation observedAt =>
      match d.profile.lastDeployState with
      | none => d
      | some current =>
          if current.operationID = some operation.id && current.status.isInProgress then
            d.persistInProgress current current.status observedAt now
          else d
  | .persistAwaitingConfirmation =>
      match d.profile.lastDeployState with
      | none => d
      | some current =>
          if current.status.isInProgress then
            d.persistInProgress current .awaitingConfirmation now now
          else d
  | .persistFailed operation =>
      let payloadFamily := ((d.profile.lastDeployState.bind (·.payloadFamily)).or
        (d.store.plan.bind (·.payloadFamily))).or d.profile.payloadFamily
      d.persist (failedDeploySnapshots operation d.profile d.store.currentStage payloadFamily
        d.store.error now) none now
  | .persistSucceeded operation profile result =>
      let stage := d.store.currentStage.or (profile.lastDeployState.bind (·.stage))
      let payloadFamily := (d.store.plan.bind (·.payloadFamily)).or profile.payloadFamily
      d.persist (succeededDeploySnapshots operation profile result payloadFamily stage now)
        ((d.store.plannedOptions.map (·.rsyncEnabled)).or (d.store.plan.map (·.rsyncEnabled))) now

/-! ### Steps -/

/-- What happens: the user's actions, what the helper does, and one of the waiting tasks, which runs to
its end. -/
inductive Step where
  | runPlan (start : DeployStart)
  | runDeploy (start : DeployStart) (now : Date)
  | setOptions (options : Except String DeployOptions)
  | confirmPending
  | cancelPendingConfirmation
  | helperEvent (event : DeployEvent)
  | helperFinished (exitCode : Int)
  | runTask (task : DashboardTask) (now : Date)

/-- The user starts an installation. -/
def runInstall (start : DeployStart) (now : Date) (d : DeployDashboard) : DeployDashboard :=
  let (store, started) := d.store.runDeploy p d.profile.id start
  match started with
  | none => d.observe store
  | some operation => (d.observe store).trackDeployStart operation now

def after (d : DeployDashboard) : Step → DeployDashboard
  | .runPlan start => d.observe (d.store.runPlan p d.profile.id start).1
  | .runDeploy start now => d.runInstall p start now
  | .setOptions options =>
      d.observe { d.store with currentOptions := options }.reconcilePlanFreshness
  | .confirmPending => d.observe d.store.confirmPending
  | .cancelPendingConfirmation => d.observe d.store.cancelPendingConfirmation
  | .helperEvent event =>
      d.observe ({ d.store with
        backend := d.store.backend.settled (d.store.backend.appendEvent event.toBackendEvent)
      }.process event)
  | .helperFinished exitCode =>
      d.observe { d.store with
        backend := d.store.backend.settled (d.store.backend.finishRun exitCode) }
  | .runTask task now => { d with tasks := d.tasks.erase task }.runTask task now

end DeployDashboard

end TimeCapsule.App
