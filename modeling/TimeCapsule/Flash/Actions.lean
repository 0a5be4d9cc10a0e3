import TimeCapsule.Lib.Prog
import TimeCapsule.Flash.Manifest

/-!
# Flash actions

Backing up, planning and writing, as programs over the backup directory and the device.  A program
may be killed between any two operations, so also between any two of its file writes.
-/

namespace TimeCapsule.Flash

open Lib

/-! ## Operations -/

/-- What a file holds; the text of a manifest is kept as its JSON value. -/
inductive FileContent where
  | bytes (data : Bytes)
  | json (value : Json)

/-- `json.loads` -/
def FileContent.json? (env : ActionEnv) : FileContent → Option Json
  | .json value => some value
  | .bytes data => env.loads data

inductive FlashEvent where
  | wrote (path : Path)
  | flashed (bank : String)
deriving DecidableEq, Repr

/-- The file system, and the writes and flash commands so far. -/
structure FlashWorld where
  files : Path → Option FileContent
  log : List FlashEvent

def FlashWorld.write (w : FlashWorld) (path : Path) (content : FileContent) : FlashWorld where
  files p := if p = path then some content else w.files p
  log := w.log ++ [.wrote path]

def FlashWorld.flash (w : FlashWorld) (bank : String) : FlashWorld :=
  { w with log := w.log ++ [.flashed bank] }

inductive FlashOp where
  | readFile (path : Path)
  | writeFile (path : Path) (content : FileContent)
  | defaultBackupDir (acpHost syap : String)
  | resolveTarget
  | dumpRemoteBank (device : String)
  | readLiveLogin
  | readAcpProperty (name : String)
  | flashFirmwareBank (bank : String) (payload : Bytes)
  | requireConfirmation
  | requestReboot (wait : Bool)

/-- Failures of the device come back as the text of the error. -/
def FlashAns : FlashOp → Type
  | .readFile _ => Option FileContent
  | .writeFile _ _ => Bool
  | .defaultBackupDir _ _ => String
  | .resolveTarget => Except ActionError FlashTarget
  | .dumpRemoteBank _ => Except String Bytes
  | .readLiveLogin => Except String Bytes
  | .readAcpProperty _ => Except String Nat
  | .flashFirmwareBank _ _ => Except String (Nat × Bytes)
  | .requireConfirmation => Except ActionError Unit
  | .requestReboot _ => Except String Unit

/-- Files are read as they are; everything else answers as the fault says. -/
def flashKernel : Kernel FlashOp FlashAns FlashWorld ((op : FlashOp) → FlashAns op) where
  step op fault w :=
    match op with
    | .readFile path => (w.files path, w)
    | .writeFile path content =>
        let written : Bool := fault (.writeFile path content)
        (written, if written then w.write path content else w)
    | .flashFirmwareBank bank payload => (fault (.flashFirmwareBank bank payload), w.flash bank)
    | op => (fault op, w)

abbrev FlashM (α : Type) := Prog.Raising FlashOp FlashAns ActionError α

def FlashM.ask (op : FlashOp) : FlashM (FlashAns op) := Prog.ask op

def ofExcept {α : Type} (result : Except ActionError α) : FlashM α := ExceptT.mk (.ret result)

/-- An error text of the device, as the error it is raised as. -/
def raising {α : Type} (f : String → ActionError) (result : Except String α) : FlashM α :=
  ofExcept (result.mapError f)

def ofFlash {α : Type} (result : Except FlashError α) : FlashM α :=
  ofExcept (result.mapError .flash)

def flashFailure {α : Type} (message : String) : FlashM α :=
  throw (.flash (.analysis message))

/-- `if refused: raise error` -/
def raiseIf (refused : Bool) (error : ActionError) : FlashM Unit :=
  if refused then throw error else return ()

def failIf (refused : Bool) (message : String) : FlashM Unit :=
  raiseIf refused (.flash (.analysis message))

def writeFile (env : ActionEnv) (path : Path) (content : FileContent) : FlashM Unit := do
  let written : Bool ← FlashM.ask (.writeFile path content)
  if written then return () else throw (.os (env.osErrorText path))

/-! ## Device -/

def dumpRemoteBank (device : String) : FlashM Bytes := do
  raising .transport (← FlashM.ask (.dumpRemoteBank device))

def readAcpPropertyInt (name : String) : FlashM Nat := do
  raising (fun text => .flash (.analysis s!"ACP property {name} read failed: {text}"))
    (← FlashM.ask (.readAcpProperty name))

def readFlashInputs : FlashM FlashInputs := do
  let primary ← dumpRemoteBank primaryDevice
  let secondary ← dumpRemoteBank secondaryDevice
  let cks1 ← readAcpPropertyInt "cks1"
  let cks2 ← readAcpPropertyInt "cks2"
  let syap ← readAcpPropertyInt "syAP"
  let liveLogin ← raising .transport (← FlashM.ask .readLiveLogin)
  return ⟨primary, secondary, some cks1, some cks2, toString syap, liveLogin⟩

/-! ## Backup directory -/

structure FlashAnalysisBundle where
  inspection : FlashInspection
  backupDir : String
  manifest : JsonObject

def saveFlashBanks (env : ActionEnv) (backupDir : String) (primary secondary : Bytes) :
    FlashM Unit := do
  writeFile env ⟨backupDir, "primary.raw"⟩ (.bytes primary)
  writeFile env ⟨backupDir, "secondary.raw"⟩ (.bytes secondary)

def saveFlashManifest (env : ActionEnv) (backupDir : String) (manifest : JsonObject) :
    FlashM Unit :=
  writeFile env ⟨backupDir, "manifest.json"⟩ (.json (.obj manifest))

def loadFlashManifest (env : ActionEnv) (backupDir : String) : FlashM JsonObject := do
  let path : Path := ⟨env.resolveDir backupDir, "manifest.json"⟩
  let content : Option FileContent ← FlashM.ask (.readFile path)
  match content with
  | none => flashFailure s!"flash manifest not found: {path.text}"
  | some content =>
      match content.json? env with
      | none => flashFailure s!"flash manifest is not valid JSON: {path.text}"
      | some (.obj manifest) => return manifest
      | some _ => flashFailure s!"flash manifest is not an object: {path.text}"

def readBytes (env : ActionEnv) (path : Path) : FlashM Bytes := do
  let content : Option FileContent ← FlashM.ask (.readFile path)
  match content with
  | none =>
      flashFailure s!"flash backup raw bank file could not be read: {env.osErrorText path}"
  | some (.bytes data) => return data
  | some (.json value) => return env.dumps value

def readBackupRaw (env : ActionEnv) (backupDir : String) (manifest : JsonObject) :
    FlashM (Bytes × Bytes) := do
  let primary ← readBytes env (manifestFilePath env manifest backupDir "primary")
  let secondary ← readBytes env (manifestFilePath env manifest backupDir "secondary")
  return (primary, secondary)

def inspectBackup (env : ActionEnv) (backupDir : String) (operation : FlashOperation) :
    FlashM FlashAnalysisBundle := do
  let backupDir := env.resolveDir backupDir
  let manifest ← loadFlashManifest env backupDir
  ofExcept (if operation = .readOnly then .ok () else requireBackupFreshForPlan manifest)
  let (primary, secondary) ← readBackupRaw env backupDir manifest
  let cks1 ← ofExcept (manifestAcpChecksum env manifest "primary")
  let cks2 ← ofExcept (manifestAcpChecksum env manifest "secondary")
  let osRelease ← ofExcept (backupOsRelease env manifest)
  let inspection ← ofFlash (inspectFlashBanks env.toFlashEnv primary secondary cks1 cks2 osRelease
    (operation = .patch) none
    (some [("primary", manifestLiveLoginMatch manifest "primary" primary),
      ("secondary", manifestLiveLoginMatch manifest "secondary" secondary)]))
  return ⟨inspection, backupDir, refreshManifestInspection manifest inspection operation⟩

def backupFlash (env : ActionEnv) (target : FlashTarget) (backupDir : Option String)
    (operation : FlashOperation) : FlashM FlashAnalysisBundle := do
  let inputs ← readFlashInputs
  let resolvedBackupDir ←
    match backupDir with
    | some baseDir => pure (env.resolveDir baseDir)
    | none => FlashM.ask (.defaultBackupDir target.acpHost inputs.syap)
  saveFlashBanks env resolvedBackupDir inputs.primary inputs.secondary
  let inspection ← ofFlash (inspectFlashBanks env.toFlashEnv inputs.primary inputs.secondary
    inputs.cks1 inputs.cks2 target.osRelease (operation = .patch) (some inputs.liveLogin) none)
  let manifest := manifestFromInspection operation inspection target inputs resolvedBackupDir
  saveFlashManifest env resolvedBackupDir manifest
  return ⟨inspection, resolvedBackupDir, manifest⟩

/-! ## Plans -/

structure PlanParams where
  backupDir : String
  force : Bool
  firmwareTemplate : Option String
  firmwareVersion : Option String
deriving DecidableEq, Repr

/-- `files[key] = path`, if the manifest has a table of files. -/
def setManifestFile (manifest : JsonObject) (key : String) (path : Path) : JsonObject :=
  match manifest.lookup "files" with
  | some (.obj files) => dictSet manifest "files" (.obj (dictSet files key (.str path.text)))
  | _ => manifest

def savePrimaryPatchedBankIfReady (env : ActionEnv) (backupDir : String)
    (inspection : FlashInspection) : FlashM (Option Path) := do
  match inspection.primary.analysis.bind (·.patch) with
  | none => return none
  | some patch =>
      let path : Path := ⟨backupDir, "primary.patched.raw"⟩
      writeFile env path (.bytes patch.targetBank)
      return some path

def savePatchedPrimaryFor (env : ActionEnv) (operation : FlashOperation)
    (bundle : FlashAnalysisBundle) : FlashM (Option Path) :=
  if operation = .patch then savePrimaryPatchedBankIfReady env bundle.backupDir bundle.inspection
  else return none

def saveAcpFlashPayload (env : ActionEnv) (backupDir : String) (plan : FlashPlan) :
    FlashM (Option Path) := do
  match plan.payload with
  | none => return none
  | some payload =>
      let name :=
        match plan.targetBank with
        | none =>
            if plan.mode ≠ .downloadOnly then none else some s!"{plan.mode.text}.basebinary"
        | some bank =>
            let suffix := if plan.mode = .patch then "patched" else plan.mode.text
            some s!"{bank.name}.{suffix}.basebinary"
      match name with
      | none => return none
      | some name =>
          let path : Path := ⟨backupDir, name⟩
          writeFile env path (.bytes payload.data)
          return some path

/-- The key under which the payload file of a plan is listed. -/
def payloadFileKey (plan : FlashPlan) : Option String :=
  match plan.targetBank with
  | some bank => some s!"{bank.name}_{plan.mode.text}_basebinary_payload"
  | none =>
      if plan.mode = .downloadOnly then some s!"{plan.mode.text}_basebinary_payload" else none


def setFileIfSome (manifest : JsonObject) (key : Option String) (path : Option Path) : JsonObject :=
  match key, path with
  | some key, some path => setManifestFile manifest key path
  | _, _ => manifest

def planFlashFromBackup (env : ActionEnv) (operation : FlashOperation) (params : PlanParams) :
    FlashM (FlashAnalysisBundle × Option FlashPlan) := do
  failIf (operation = .patch && !env.zopfliInstalled) zopfliBootstrapMessage
  let bundle ← inspectBackup env params.backupDir operation
  let syap ← ofExcept (backupSyap env bundle.manifest)
  let plan ← ofFlash (planFromOperation env.firmware operation bundle.inspection params.force
    ⟨syap, params.firmwareTemplate, params.firmwareVersion⟩)
  let manifest := dictSet bundle.manifest "operation" (.str operation.text)
  let manifest := dictSet manifest "flash_plan_params" (.obj
    [("operation", .str operation.text),
      ("force", .bool params.force),
      ("firmware_template", jsonStr params.firmwareTemplate),
      ("firmware_version", jsonStr params.firmwareVersion)])
  match plan with
  | none =>
      saveFlashManifest env bundle.backupDir manifest
      return ({ bundle with manifest := manifest }, none)
  | some plan =>
      let patched ← savePatchedPrimaryFor env operation bundle
      let manifest := setFileIfSome manifest (some "primary_patched") patched
      let payloadPath ← saveAcpFlashPayload env bundle.backupDir plan
      let manifest := setFileIfSome manifest (payloadFileKey plan) payloadPath
      let manifest := applyFlashPlanToManifest env
        (dictSet manifest "flash_plan" plan.toJsonable) plan
      saveFlashManifest env bundle.backupDir manifest
      return ({ bundle with manifest := manifest }, some plan)

/-! ## Writing -/

def writeStageForPlan (plan : FlashPlan) : String :=
  if plan.targetBank.any (·.name = "primary") then "write_primary_bank" else "write_active_bank"

/-- The bundle with the outcome, and the write's result if there is one, saved. -/
def recordWriteOutcome (env : ActionEnv) (bundle : FlashAnalysisBundle) (plan : FlashPlan)
    (status : String) (writeValidated writeMayHaveModifiedDevice : Bool) (stage : Option String)
    (writeResult : Option JsonObject) : FlashM FlashAnalysisBundle := do
  let manifest := dictSet bundle.manifest "write_outcome"
    (.obj (writeOutcomePayload plan status writeValidated writeMayHaveModifiedDevice stage))
  let manifest := writeResult.elim manifest fun result =>
    dictSet manifest "write_result" (.obj result)
  saveFlashManifest env bundle.backupDir manifest
  return { bundle with manifest := manifest }

def recordPostWriteAction (env : ActionEnv) (bundle : FlashAnalysisBundle)
    (postWriteAction : String) (rebootRequested rebooted waitedAfterReboot : Bool) :
    FlashM FlashAnalysisBundle := do
  let manifest := withPostWriteAction bundle.manifest postWriteAction rebootRequested rebooted
    waitedAfterReboot
  saveFlashManifest env bundle.backupDir manifest
  return { bundle with manifest := manifest }

def validateLiveTargetMatchesBackup (plan : FlashPlan) : FlashM Unit := do
  match plan.targetBank with
  | none => flashFailure "flash plan has no target bank"
  | some bank =>
      let live ← dumpRemoteBank bank.device
      failIf (sha256Hex live ≠ bank.sha256)
        ("refusing to write because the live firmware bank changed since the saved backup: " ++
          s!"bank={bank.name} live_sha256={sha256Hex live} backup_sha256={bank.sha256}")

def activeChecksumProperty (bankName : String) : FlashM String :=
  if bankName = "primary" then return "cks1"
  else if bankName = "secondary" then return "cks2"
  else flashFailure s!"unknown active bank: {bankName}"

def writeAndValidatePlan (env : ActionEnv) (plan : FlashPlan) (osRelease : String) :
    FlashM JsonObject := do
  match plan.targetBank, plan.payload with
  | some active, some payload => do
      let (command, replyBody) ← raising
        (fun text => .flash (.analysis s!"ACP flash command failed: {text}"))
        (← FlashM.ask (.flashFirmwareBank active.name payload.data))
      let readback ← dumpRemoteBank active.device
      let actualPrefix := readback.take payload.expectedPrefix.length
      failIf (actualPrefix ≠ payload.expectedPrefix)
        ("read-back firmware bank prefix SHA-256 mismatch after ACP write: " ++
          s!"got {sha256Hex actualPrefix}, expected {sha256Hex payload.expectedPrefix}")
      let (expectedBank, expectedFooterChecksum) ← ofFlash (expectedBankAfterWrite active payload)
      failIf (readback ≠ expectedBank)
        ("read-back firmware bank SHA-256 mismatch after ACP write: " ++
          s!"got {sha256Hex readback}, expected {sha256Hex expectedBank}")
      let checksumProperty ← activeChecksumProperty active.name
      let acpChecksum ← raising (fun text => .flash (.analysis
          s!"ACP checksum property {checksumProperty} read failed after write: {text}"))
        (← FlashM.ask (.readAcpProperty checksumProperty))
      let readbackAnalysis ← ofFlash (analyzeBank env.toFlashEnv active.name active.device readback
        (some acpChecksum) osRelease false)
      failIf (!readbackAnalysis.footerValid)
        "read-back firmware bank footer checksum is invalid after ACP write"
      failIf (readbackAnalysis.acpChecksumMatches ≠ some true)
        s!"ACP {checksumProperty} does not match read-back firmware footer after write"
      let expected := (payload.expectedLoginClassification.map (·.text)).getD "None"
      failIf (payload.expectedLoginClassification.any (· ≠ readbackAnalysis.login.classification))
        ("read-back firmware bank LOGIN classification is " ++
          s!"{readbackAnalysis.login.classification.text}; expected {expected}")
      return [("mode", .str plan.mode.text),
        ("bank", .str active.name),
        ("device", .str active.device),
        ("command", .str ("0x" ++ String.ofList (hexPadded 2 command))),
        ("reply_body_size", .int replyBody.length),
        ("reply_body_sha256", .str (sha256Hex replyBody)),
        ("firmware_payload_sha256", .str payload.payloadSha256),
        ("firmware_payload_size", .int payload.data.length),
        ("expected_prefix_sha256", .str (sha256Hex payload.expectedPrefix)),
        ("expected_prefix_size", .int payload.expectedPrefix.length),
        ("expected_bank_sha256", .str (sha256Hex expectedBank)),
        ("readback_sha256", .str (sha256Hex readback)),
        ("readback_prefix_sha256", .str (sha256Hex actualPrefix)),
        ("acp_checksum_property", .str checksumProperty),
        ("acp_checksum", .str (hex08 acpChecksum)),
        ("footer_checksum", .str (hex08 readbackAnalysis.footer.checksum)),
        ("expected_footer_checksum", .str (hex08 expectedFooterChecksum)),
        ("login_classification", .str readbackAnalysis.login.classification.text)]
  | _, _ => flashFailure "flash plan has no write payload"

/-- The outcome is saved before the command is sent and again when it has been checked. -/
def writeFlashPlan (env : ActionEnv) (target : FlashTarget) (bundle : FlashAnalysisBundle)
    (plan : FlashPlan) : FlashM FlashAnalysisBundle := do
  failIf (plan.targetBank.isNone || plan.payload.isNone) "flash plan has no write payload"
  let bundle ← recordWriteOutcome env bundle plan "attempting" false true
    (some (writeStageForPlan plan)) none
  let writeResult ← writeAndValidatePlan env plan target.osRelease
  recordWriteOutcome env bundle plan "validated" true true none (some writeResult)

/-! ## The app's actions -/

/-- Errors of an action as the app reports them. -/
def rethrowApp {α : Type} (analysisCode transportNote : String) (p : FlashM α) : FlashM α :=
  tryCatch p fun
    | .flash (.analysis message) => throw (.app message analysisCode)
    | .transport message => throw (.app (transportNote ++ message) "remote_error")
    | error => throw error

def resolveTarget : FlashM FlashTarget := do
  ofExcept (← FlashM.ask .resolveTarget)

def backupOperation (env : ActionEnv) (backupDir : Option String) : FlashM FlashAnalysisBundle := do
  let target ← resolveTarget
  rethrowApp "validation_failed" "SSH flash read failed: "
    (backupFlash env target backupDir .readOnly)

def planOperation (env : ActionEnv) (operation : FlashOperation) (params : PlanParams) :
    FlashM FlashAnalysisBundle := do
  raiseIf (operation = .readOnly)
    (.app s!"Unsupported flash plan mode: {operation.text}" "validation_failed")
  let (bundle, _) ← rethrowApp "validation_failed" ""
    (planFlashFromBackup env operation params)
  return bundle

structure RebootParams where
  rebootAfterWrite : Option Bool
  waitAfterReboot : Bool
deriving DecidableEq, Repr

/-- Whether to reboot after the write and whether to wait for the device. -/
def writeRebootPolicy (reboot : RebootParams) (operation : FlashOperation) :
    FlashM (Bool × Bool) := do
  let rebootAfterWrite := reboot.rebootAfterWrite.getD (operation = .restore)
  raiseIf (operation = .patch && rebootAfterWrite)
    (.app "Flash patch cannot request reboot; power cycle manually after the validated write"
      "validation_failed")
  return (rebootAfterWrite, rebootAfterWrite && reboot.waitAfterReboot)

def requestReboot (wait : Bool) : FlashM Unit := do
  raising (fun text => .app text "remote_error") (← FlashM.ask (.requestReboot wait))

def finishValidatedWrite (env : ActionEnv) (bundle : FlashAnalysisBundle)
    (operation : FlashOperation) (rebootAfterWrite waitAfterReboot : Bool) :
    FlashM FlashAnalysisBundle := do
  if operation = .patch then
    recordPostWriteAction env bundle "manual_power_cycle" false false false
  else if !rebootAfterWrite then
    recordPostWriteAction env bundle "manual_reboot" false false false
  else
    let bundle ← recordPostWriteAction env bundle "ssh_reboot" true false waitAfterReboot
    requestReboot waitAfterReboot
    if waitAfterReboot then
      recordPostWriteAction env bundle "ssh_reboot" true true true
    else
      return bundle

def writeOperation (env : ActionEnv) (operation : FlashOperation) (params : PlanParams)
    (reboot : RebootParams) : FlashM FlashAnalysisBundle := do
  raiseIf (operation ≠ .patch && operation ≠ .restore)
    (.app s!"Flash mode {operation.text} does not write firmware" "validation_failed")
  let (rebootAfterWrite, waitAfterReboot) ← writeRebootPolicy reboot operation
  let (bundle, plan?) ← rethrowApp "validation_failed" ""
    (planFlashFromBackup env operation params)
  match plan? with
  | none => throw (.app "Flash write has no plan" "validation_failed")
  | some plan =>
      if plan.alreadySatisfied then
        recordWriteOutcome env bundle plan "not_needed" false false none none
      else do
        let target ← resolveTarget
        ofExcept (← FlashM.ask .requireConfirmation)
        let bundle ← rethrowApp "operation_failed" "SSH post-write validation failed: " do
          validateLiveTargetMatchesBackup plan
          writeFlashPlan env target bundle plan
        finishValidatedWrite env bundle operation rebootAfterWrite waitAfterReboot

end TimeCapsule.Flash
