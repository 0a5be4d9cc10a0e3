import TimeCapsule.App.Operations

/-!
# Writing firmware

A device's firmware is backed up, a change is planned for the backup, and the plan is written.  The
store keeps the backup and the plan between the runs of the helper, and says what can be run next.
-/

namespace TimeCapsule.App

open Lib

inductive FlashPlanMode where
  | patch
  | restore
  | checkApple
  | downloadOnly
deriving DecidableEq, Repr

namespace FlashPlanMode

def rawValue : FlashPlanMode → String
  | patch => "patch"
  | restore => "restore"
  | checkApple => "check_apple"
  | downloadOnly => "download_only"

def writesFirmware (mode : FlashPlanMode) : Bool := mode = patch || mode = restore

end FlashPlanMode

inductive FlashWorkflowState where
  | unavailable
  | disabledInThisBuild
  | eligibleForReadOnlyAnalysis
  | readingBanks
  | savingBackup
  | analyzingBanks
  | planAvailable
  | appleCheckComplete
  | appleFirmwareMismatch
  | appleFirmwareReady
  | writeLocked
  | awaitingStrongConfirmation
  | writing
  | readbackValidating
  | writeValidated
  | writeValidatedSnapshotStale
  | restoreRebooting
  | failed
deriving DecidableEq, Repr

inductive FlashBuildPolicy where
  | disabled
  | readOnly
  | writesEnabled
deriving DecidableEq, Repr

structure FlashEligibility where
  state : FlashWorkflowState
  readOnlyAllowed : Bool
  writeAllowed : Bool
deriving DecidableEq, Repr

/-- `FlashEligibilityPolicy.eligibility` -/
def eligibility (supportsFlashBootHook : Bool) (buildPolicy : FlashBuildPolicy) : FlashEligibility :=
  if !supportsFlashBootHook then ⟨.unavailable, false, false⟩
  else
    match buildPolicy with
    | .disabled => ⟨.disabledInThisBuild, false, false⟩
    | .readOnly => ⟨.eligibleForReadOnlyAnalysis, true, false⟩
    | .writesEnabled => ⟨.writeLocked, true, true⟩

inductive FlashUserAction where
  | backupAndInspect
  | planPatch
  | planRestore
  | checkApple
  | downloadApple
  | writePatch
  | writeRestore
deriving DecidableEq, Repr

namespace FlashUserAction

def planAction : FlashPlanMode → FlashUserAction
  | .patch => planPatch
  | .restore => planRestore
  | .checkApple => checkApple
  | .downloadOnly => downloadApple

/-- The mode that an action plans. -/
def planned : FlashUserAction → Option FlashPlanMode
  | planPatch => some .patch
  | planRestore => some .restore
  | checkApple => some .checkApple
  | downloadApple => some .downloadOnly
  | _ => none

def isWrite (action : FlashUserAction) : Bool := action = writePatch || action = writeRestore

end FlashUserAction

structure FlashFirmwareSelection where
  version : String
  templatePath : String
deriving DecidableEq, Repr

/-! ## What the helper says -/

structure FlashBackupPayload where
  backupDir : String
deriving DecidableEq, Repr

structure FlashPlanPayload where
  mode : FlashPlanMode
  writeRequested : Bool
  /-- `appleFirmwareMatch?.matched` -/
  appleFirmwareMatched : Option Bool
deriving DecidableEq, Repr

structure FlashWritePayload where
  mode : FlashPlanMode
  writeMayHaveModifiedDevice : Bool
  writeValidated : Bool
deriving DecidableEq, Repr

/-- An event with its payload, as each kind of it decodes. -/
structure FlashEvent extends BackendEvent where
  ok : Option Bool
  backup : Option FlashBackupPayload
  plan : Option FlashPlanPayload
  write : Option FlashWritePayload

/-! ## What the helper is asked -/

section Params

variable (p : Platform)

def appendFirmwareSelection (selection : FlashFirmwareSelection) (params : JsonObject) : JsonObject :=
  let trimmedVersion := trimmingCharacters p.whitespacesAndNewlines selection.version
  let params :=
    if trimmedVersion.isEmpty then params
    else dictSet params "firmware_version" (.str trimmedVersion)
  let trimmedTemplate := trimmingCharacters p.whitespacesAndNewlines selection.templatePath
  if trimmedTemplate.isEmpty then params
  else dictSet params "firmware_template" (.str trimmedTemplate)

/-- `OperationParams.Flash.backup` -/
def flashBackupParams : JsonObject := [("action", .str "backup")]

/-- `OperationParams.Flash.plan` -/
def flashPlanParams (backupDir : String) (mode : FlashPlanMode) (selection : FlashFirmwareSelection) :
    JsonObject :=
  appendFirmwareSelection p selection
    [("action", .str "plan"), ("backup_dir", .str backupDir), ("mode", .str mode.rawValue),
      ("force", .bool false)]

/-- `OperationParams.Flash.write` -/
def flashWriteParams (backupDir : String) (mode : FlashPlanMode) (selection : FlashFirmwareSelection) :
    JsonObject :=
  let shouldReboot := mode = .restore
  appendFirmwareSelection p selection
    ([("action", .str "write"), ("backup_dir", .str backupDir), ("mode", .str mode.rawValue),
      ("force", .bool false), ("reboot_after_write", .bool shouldReboot)] ++
      if shouldReboot then [("wait_after_reboot", .bool true)] else [])

end Params

/-- A client after its last change. -/
def BackendClient.settled (b : BackendClient) (changes : List BackendClient) : BackendClient :=
  changes.getLastD b

/-! ## The store -/

/-- The store, without the messages and the notice that it shows. -/
structure FlashWorkflowStore where
  state : FlashWorkflowState
  backup : Option FlashBackupPayload
  plan : Option FlashPlanPayload
  writeResult : Option FlashWritePayload
  backupSnapshotStale : Bool
  /-- The operation and the name of the stage. -/
  currentStage : Option (String × String)
  firmwareVersion : String
  firmwareTemplatePath : String
  buildPolicy : FlashBuildPolicy
  backend : BackendClient
  eligibility : FlashEligibility
  /-- The operation of the observer. -/
  activeOperation : Option ActiveOperation
  activeAction : Option FlashUserAction
  pendingFirmwareSelection : Option FlashFirmwareSelection
  plannedFirmwareSelection : Option FlashFirmwareSelection

/-- What a run is started with: `conflict` tells that the coordinator has another helper for the
device. -/
structure FlashStart where
  id : String
  profileID : Option ProfileID
  context : Option DeviceRuntimeContext
  password : Option String
  conflict : Bool

namespace FlashWorkflowStore

/-- A store that nothing has happened to. -/
def fresh (buildPolicy : FlashBuildPolicy) : FlashWorkflowStore where
  state := .writeLocked
  backup := none
  plan := none
  writeResult := none
  backupSnapshotStale := false
  currentStage := none
  firmwareVersion := ""
  firmwareTemplatePath := ""
  buildPolicy := buildPolicy
  backend := .idle
  eligibility := ⟨.writeLocked, true, true⟩
  activeOperation := none
  activeAction := none
  pendingFirmwareSelection := none
  plannedFirmwareSelection := none

variable (p : Platform)

def isBusy (s : FlashWorkflowStore) : Bool :=
  s.backend.isRunning || s.backend.pendingConfirmation.isSome

def canBackup (s : FlashWorkflowStore) : Bool := !s.isBusy && s.eligibility.readOnlyAllowed

def canPlan (s : FlashWorkflowStore) : Bool :=
  !s.isBusy && s.eligibility.readOnlyAllowed && s.backup.isSome && !s.backupSnapshotStale

def canPlanWrites (s : FlashWorkflowStore) : Bool := s.canPlan && s.eligibility.writeAllowed

def currentFirmwareSelection (s : FlashWorkflowStore) : FlashFirmwareSelection where
  version := trimmingCharacters p.whitespacesAndNewlines s.firmwareVersion
  templatePath := trimmingCharacters p.whitespacesAndNewlines s.firmwareTemplatePath

def canWrite (mode : FlashPlanMode) (s : FlashWorkflowStore) : Bool :=
  !s.isBusy && s.eligibility.writeAllowed && s.plan.map (·.mode) = some mode &&
    s.plan.map (·.writeRequested) = some true && s.backup.isSome && !s.backupSnapshotStale &&
    s.plannedFirmwareSelection = some (s.currentFirmwareSelection p) &&
    (s.state = .planAvailable || s.state = .failed)

def canWritePatch (s : FlashWorkflowStore) : Bool := s.canWrite p .patch

def canWriteRestore (s : FlashWorkflowStore) : Bool := s.canWrite p .restore

def reject (s : FlashWorkflowStore) : FlashWorkflowStore := { s with state := .failed }

/-! ### Runs -/

def resetRunState (s : FlashWorkflowStore) : FlashWorkflowStore :=
  { s with
    backend := s.backend.settled s.backend.clear
    currentStage := none
    activeOperation := none
    activeAction := none }

/-- `startRun`, with whether it was started. -/
def startRun (action : FlashUserAction) (params : JsonObject) (start : FlashStart)
    (s : FlashWorkflowStore) : FlashWorkflowStore × Bool :=
  if s.isBusy then (s.reject, false)
  else
    let s := s.resetRunState
    if start.conflict then (s.reject, false)
    else
      ({ s with
        backend := s.backend.settled (s.backend.run "flash"
          (injectingPassword p start.password params) start.context start.id)
        activeOperation := some ⟨start.id, "flash", start.profileID, start.context⟩
        activeAction := some action }, true)

def backupAndInspect (start : FlashStart) (s : FlashWorkflowStore) : FlashWorkflowStore × Bool :=
  if !s.canBackup then (s.reject, false)
  else
    let (s, started) := s.startRun p .backupAndInspect flashBackupParams start
    if !started then (s, false)
    else
      ({ s with
        state := .readingBanks
        backup := none
        plan := none
        writeResult := none
        backupSnapshotStale := false
        pendingFirmwareSelection := none
        plannedFirmwareSelection := none }, true)

def planFlash (mode : FlashPlanMode) (start : FlashStart) (s : FlashWorkflowStore) :
    FlashWorkflowStore × Bool :=
  if !s.canPlan then (s.reject, false)
  else if mode.writesFirmware && !s.canPlanWrites then (s.reject, false)
  else
    match s.backup with
    | none => (s.reject, false)
    | some backup =>
        let selection := s.currentFirmwareSelection p
        let (s, started) := s.startRun p (.planAction mode)
          (flashPlanParams p backup.backupDir mode selection) start
        if !started then (s, false)
        else
          ({ s with
            state := .analyzingBanks
            plan := none
            writeResult := none
            pendingFirmwareSelection := some selection }, true)

def write (mode : FlashPlanMode) (start : FlashStart) (s : FlashWorkflowStore) :
    FlashWorkflowStore × Bool :=
  if !mode.writesFirmware then (s.reject, false)
  else if s.isBusy then (s.reject, false)
  else
    match s.plan, s.backup with
    | some plan, some backup =>
        if plan.mode = mode && plan.writeRequested then
          let selection := s.currentFirmwareSelection p
          if s.plannedFirmwareSelection ≠ some selection then (s.reject, false)
          else
            let (s, started) := s.startRun p (if mode = .patch then .writePatch else .writeRestore)
              (flashWriteParams p backup.backupDir mode selection) start
            if !started then (s, false)
            else ({ s with state := .writing, writeResult := none }, true)
        else (s.reject, false)
    | _, _ => (s.reject, false)

/-! ### Other actions -/

def refresh (supportsFlashBootHook : Bool) (s : FlashWorkflowStore) : FlashWorkflowStore :=
  let s := { s with eligibility := App.eligibility supportsFlashBootHook s.buildPolicy }
  if s.backup.isNone && s.plan.isNone && s.writeResult.isNone && s.activeOperation.isNone then
    { s with state := s.eligibility.state }
  else s

def invalidatePlanIfFirmwareSelectionChanged (s : FlashWorkflowStore) : FlashWorkflowStore :=
  if !s.isBusy && s.plan.isSome &&
      s.plannedFirmwareSelection ≠ some (s.currentFirmwareSelection p) then
    { s with
      plan := none
      writeResult := none
      plannedFirmwareSelection := none
      state := if s.backup.isSome && !s.backupSnapshotStale then .planAvailable else s.state }
  else s

def setFirmwareVersion (text : String) (s : FlashWorkflowStore) : FlashWorkflowStore :=
  { s with firmwareVersion := text }.invalidatePlanIfFirmwareSelectionChanged p

def setFirmwareTemplatePath (text : String) (s : FlashWorkflowStore) : FlashWorkflowStore :=
  { s with firmwareTemplatePath := text }.invalidatePlanIfFirmwareSelectionChanged p

def clear (s : FlashWorkflowStore) : FlashWorkflowStore :=
  { s with
    backend := s.backend.settled s.backend.clear
    state := s.eligibility.state
    backup := none
    plan := none
    writeResult := none
    backupSnapshotStale := false
    currentStage := none
    activeOperation := none
    activeAction := none
    pendingFirmwareSelection := none
    plannedFirmwareSelection := none }

/-! ### Events -/

/-- The stages from the write of a bank on. -/
def modifyingStages : List String :=
  ["write_primary_bank", "write_active_bank", "post_write_validation", "reboot",
    "wait_for_reboot_down", "wait_for_reboot_up"]

def stateForStage (stage : String) (s : FlashWorkflowStore) : FlashWorkflowState :=
  if stage = "read_flash" then .readingBanks
  else if stage = "save_raw_backup" then .savingBackup
  else if ["inspect_backup", "analyze_flash", "plan_flash"].contains stage then .analyzingBanks
  else if stage = "confirm_write" then .awaitingStrongConfirmation
  else if ["pre_write_validation", "post_write_validation"].contains stage then .readbackValidating
  else if ["write_primary_bank", "write_active_bank"].contains stage then .writing
  else if ["reboot", "wait_for_reboot_down", "wait_for_reboot_up"].contains stage then
    .restoreRebooting
  else s.state

def currentStageMayHaveModifiedFirmware (s : FlashWorkflowStore) : Bool :=
  s.currentStage.any fun stage => stage.1 = "flash" && modifyingStages.contains stage.2

def writeMayHaveModifiedFirmware (result : FlashWritePayload) : Bool :=
  result.writeMayHaveModifiedDevice ||
    result.writeValidated && (result.mode = .patch || result.mode = .restore)

def markSnapshotStaleAfterWrite (s : FlashWorkflowStore) : FlashWorkflowStore :=
  { s with
    backupSnapshotStale := true
    plan := none
    plannedFirmwareSelection := none
    state := .writeValidatedSnapshotStale }

def stateAfterPlan (plan : FlashPlanPayload) : FlashWorkflowState :=
  match plan.mode with
  | .checkApple =>
      if plan.appleFirmwareMatched = some false then .appleFirmwareMismatch else .appleCheckComplete
  | .downloadOnly => .appleFirmwareReady
  | .patch | .restore => .planAvailable

/-- The end of an operation. -/
def finish (s : FlashWorkflowStore) : FlashWorkflowStore :=
  { s with activeOperation := none, activeAction := none, pendingFirmwareSelection := none }

/-- A payload that does not decode. -/
def contractDecodeFailed (s : FlashWorkflowStore) : FlashWorkflowStore :=
  { s with state := .failed }.finish

def applyBackup (backup : FlashBackupPayload) (s : FlashWorkflowStore) : FlashWorkflowStore :=
  { s with
    backup := some backup
    backupSnapshotStale := false
    plannedFirmwareSelection := none
    state := .planAvailable }

def applyPlan (plan : FlashPlanPayload) (s : FlashWorkflowStore) : FlashWorkflowStore :=
  let planned := s.pendingFirmwareSelection.getD (s.currentFirmwareSelection p)
  let s := { s with plannedFirmwareSelection := some planned, pendingFirmwareSelection := none }
  if planned = s.currentFirmwareSelection p then
    { s with plan := some plan, state := stateAfterPlan plan }
  else
    { s with
      plan := none
      state := if s.backup.isNone then s.eligibility.state else .planAvailable }

def applyWrite (result : FlashWritePayload) (s : FlashWorkflowStore) : FlashWorkflowStore :=
  let s := { s with writeResult := some result }
  if writeMayHaveModifiedFirmware result then s.markSnapshotStaleAfterWrite
  else { s with state := .writeValidated }

def applyResult (event : FlashEvent) (s : FlashWorkflowStore) : FlashWorkflowStore :=
  let applied : Option FlashWorkflowStore :=
    match s.activeAction with
    | some .backupAndInspect => event.backup.map fun backup => s.applyBackup backup
    | some .writePatch | some .writeRestore => event.write.map fun result => s.applyWrite result
    | some _ => event.plan.map fun plan => s.applyPlan p plan
    | none => some s
  match applied with
  | some s => { s with currentStage := none }.finish
  | none => s.contractDecodeFailed

def applyError (event : FlashEvent) (s : FlashWorkflowStore) : FlashWorkflowStore :=
  if event.code = some "confirmation_required" then { s with state := .awaitingStrongConfirmation }
  else if event.code = some "confirmation_cancelled" then
    { { s with currentStage := none }.finish with
      state :=
        if s.plan.isNone then if s.backup.isNone then s.eligibility.state else .writeLocked
        else .planAvailable }
  else
    let s :=
      if s.activeAction.any (·.isWrite) && s.currentStageMayHaveModifiedFirmware then
        s.markSnapshotStaleAfterWrite
      else s
    { s with state := .failed }.finish

def applyFalseResult (s : FlashWorkflowStore) : FlashWorkflowStore :=
  { s with state := .failed, activeOperation := none, activeAction := none }

def handle (event : FlashEvent) (s : FlashWorkflowStore) : FlashWorkflowStore :=
  if event.operation ≠ "flash" then s
  else
    match (if event.type = "stage" then event.stage else none) with
    | some stage =>
        { s with currentStage := some (event.operation, stage), state := s.stateForStage stage }
    | none =>
        if event.type = "error" then s.applyError event
        else if event.type ≠ "result" then s
        else if event.ok = some false then s.applyFalseResult
        else s.applyResult p event

/-- The observer hands an event on when it is one of the active operation. -/
def process (event : FlashEvent) (s : FlashWorkflowStore) : FlashWorkflowStore :=
  match s.activeOperation with
  | none => s
  | some activeOperation =>
      if activeOperation.accepts event.toBackendEvent then s.handle p event else s

/-! ### Confirmations -/

def confirmPending (s : FlashWorkflowStore) : FlashWorkflowStore :=
  { s with backend := s.backend.settled s.backend.confirmPending }

/-- The event that stands for a confirmation that is not given. -/
def cancelled (confirmation : PendingConfirmation) : FlashEvent where
  type := "error"
  operation := confirmation.operation
  code := some "confirmation_cancelled"
  details := none
  requestId := some confirmation.requestID
  stage := none
  risk := none
  cancellable := none
  ok := none
  backup := none
  plan := none
  write := none

def cancelPendingConfirmation (s : FlashWorkflowStore) : FlashWorkflowStore :=
  let settled := { s with backend := s.backend.settled s.backend.cancelPendingConfirmation }
  match s.backend.pendingConfirmation, s.backend.isRunning with
  | some confirmation, false => settled.process p (cancelled confirmation)
  | _, _ => settled

/-! ### Steps -/

/-- What happens to a store: the user's actions, and what the helper does.  The store handles an event
before the helper goes on. -/
inductive Step where
  | backupAndInspect (start : FlashStart)
  | planFlash (mode : FlashPlanMode) (start : FlashStart)
  | write (mode : FlashPlanMode) (start : FlashStart)
  | setFirmwareVersion (text : String)
  | setFirmwareTemplatePath (text : String)
  | refresh (supportsFlashBootHook : Bool)
  | confirmPending
  | cancelPendingConfirmation
  | clear
  | helperEvent (event : FlashEvent)
  | helperFinished (exitCode : Int)

def after (s : FlashWorkflowStore) : Step → FlashWorkflowStore
  | .backupAndInspect start => (s.backupAndInspect p start).1
  | .planFlash mode start => (s.planFlash p mode start).1
  | .write mode start => (s.write p mode start).1
  | .setFirmwareVersion text => s.setFirmwareVersion p text
  | .setFirmwareTemplatePath text => s.setFirmwareTemplatePath p text
  | .refresh supportsFlashBootHook => s.refresh supportsFlashBootHook
  | .confirmPending => s.confirmPending
  | .cancelPendingConfirmation => s.cancelPendingConfirmation p
  | .clear => s.clear
  | .helperEvent event =>
      { s with
        backend := s.backend.settled (s.backend.appendEvent event.toBackendEvent) }.process p event
  | .helperFinished exitCode =>
      { s with backend := s.backend.settled (s.backend.finishRun exitCode) }

/-- A helper does something only while it runs. -/
def Enabled (s : FlashWorkflowStore) : Step → Prop
  | .helperEvent _ => s.backend.isRunning = true
  | .helperFinished _ => s.backend.isRunning = true
  | _ => True

end FlashWorkflowStore

end TimeCapsule.App
