import TimeCapsule.Lib.Json
import TimeCapsule.Flash.Workflow

/-!
# The backup manifest

`manifest.json` keeps the inspection of a saved pair of banks, the values it was made from, the last
plan and the outcome of a write.
-/

namespace TimeCapsule.Flash

open Lib

inductive ActionError where
  | flash (error : FlashError)
  | value (message : String)
  | os (message : String)
  | acp (message : String)
  | transport (message : String)
  | app (message code : String)
deriving DecidableEq, Repr

/-- A file or directory entry; the directory is resolved. -/
structure Path where
  dir : String
  name : String
deriving DecidableEq, Repr

def Path.text (path : Path) : String := path.dir ++ "/" ++ path.name

/-- What the actions take from outside: the firmware catalogue, `Path(text).expanduser().resolve()`
for a file and for a directory (a resolved directory stays as it is), `json.dumps` and `json.loads`
of files that are not kept as JSON, and the texts of list values and system errors. -/
structure ActionEnv extends PayloadEnv where
  firmware : FirmwareSource
  resolvePath : String → Path
  resolveDir : String → String
  resolveDir_resolveDir : ∀ dir, resolveDir (resolveDir dir) = resolveDir dir
  dumps : Json → Bytes
  loads : Bytes → Option Json
  containerText : Json → String
  osErrorText : Path → String

structure FlashTarget where
  acpHost : String
  osRelease : String
deriving DecidableEq, Repr

structure FlashInputs where
  primary : Bytes
  secondary : Bytes
  cks1 : Option Nat
  cks2 : Option Nat
  syap : String
  liveLogin : Bytes
deriving DecidableEq, Repr

/-! ## JSON forms -/

def jsonStr (value : Option String) : Json := Json.ofOption .str value

def jsonNat (value : Option Nat) : Json := Json.ofOption (fun n => .int n) value

def jsonHex (value : Option Nat) : Json := Json.ofOption (fun n => .str (hex08 n)) value

def jsonBool (value : Option Bool) : Json := Json.ofOption .bool value

def jsonStrs (values : List String) : Json := .list (values.map .str)

def PatchBuildInfo.toJsonable (patch : PatchBuildInfo) : Json :=
  .obj
    [("target_bank_sha256", .str patch.targetBankSha256),
      ("patched_image_sha256", .str patch.patchedImageSha256),
      ("patched_gzip_length", .int patch.patchedGzipLength),
      ("compression_method", .str patch.compressionMethod),
      ("changed_range_start", .int patch.changedRangeStart),
      ("changed_range_end", .int patch.changedRangeEnd),
      ("footer_checksum", .str (hex08 patch.footerChecksum))]

def bankToJsonable (bank : BankAnalysis) (wouldWrite : Bool) (writeDecision : String) :
    JsonObject :=
  [("name", .str bank.name),
    ("device", .str bank.device),
    ("size", .int bank.size),
    ("sha256", .str bank.sha256),
    ("would_write", .bool wouldWrite),
    ("write_decision", .str writeDecision),
    ("footer", .obj
      [("offset", .int bank.footer.offset),
        ("checksum", .str (hex08 bank.footer.checksum)),
        ("end_offset", .int bank.footer.endOffset),
        ("valid", .bool bank.footerValid)]),
    ("acp_checksum", jsonHex bank.acpChecksum),
    ("acp_checksum_matches", jsonBool bank.acpChecksumMatches),
    ("gzip", .obj
      [("offset", .int bank.gzipMember.offset),
        ("consumed_length", .int bank.gzipMember.consumedLength),
        ("decompressed_size", .int bank.gzipMember.decompressed.length),
        ("decompressed_sha256", .str bank.decompressedSha256)]),
    ("login", .obj
      [("classification", .str bank.login.classification.text),
        ("offset", jsonNat bank.login.offset),
        ("length", jsonNat bank.login.length),
        ("sha256", jsonStr bank.login.sha256),
        ("match_count", .int bank.login.matchCount)]),
    ("kernel_identity_match", .bool bank.kernelIdentityMatch),
    ("kernel_identity_detail", .str bank.kernelIdentityDetail),
    ("active_selection_failures", jsonStrs bank.activeSelectionFailures),
    ("patch", Json.ofOption PatchBuildInfo.toJsonable bank.patch),
    ("patch_error", jsonStr bank.patchError)]

/-- The part of a bank's entry that both forms end with. -/
def inspectionMembers (bank : BankInspection) : JsonObject :=
  [("backup_valid", .bool bank.backupValid),
    ("backup_failures", jsonStrs bank.backupFailures),
    ("active_candidate", .bool bank.activeCandidate),
    ("active_failures", jsonStrs bank.activeFailures),
    ("live_login_match", jsonBool bank.liveLoginMatch),
    ("analysis_error", jsonStr bank.error)]

def bankInspectionToJsonable (bank : BankInspection) (writeDecision : String) : JsonObject :=
  match bank.analysis with
  | none =>
      [("name", .str bank.name),
        ("device", .str bank.device),
        ("size", .int bank.size),
        ("sha256", .str bank.sha256),
        ("would_write", .bool false),
        ("write_decision", .str writeDecision),
        ("footer", .null),
        ("acp_checksum", jsonHex bank.acpChecksum),
        ("acp_checksum_matches", .null),
        ("gzip", .null),
        ("login", .null),
        ("kernel_identity_match", .bool false),
        ("kernel_identity_detail", .null),
        ("active_selection_failures", jsonStrs bank.activeFailures)] ++
      inspectionMembers bank ++
      [("patch", .null), ("patch_error", .null)]
  | some analysis =>
      dictUpdate (bankToJsonable analysis false writeDecision) (inspectionMembers bank)

def SelectionStatus.text : SelectionStatus → String
  | .selected => "selected"
  | .noCandidates => "no_candidates"
  | .multipleCandidates => "multiple_candidates"

def SelectedBy.text : SelectedBy → String
  | .automatic => "automatic"
  | .liveLogin => "live_login"

def inspectionToJsonable (inspection : FlashInspection) (writePolicy : String) : JsonObject :=
  let decision (bank : BankInspection) : String :=
    match inspection.strictAnalysis, bank.analysis, bank.error with
    | some strict, some analysis, _ => writeDecisionForBank strict analysis
    | _, _, some error => s!"bank inspection failed: {error}"
    | _, _, none => "no firmware write planned"
  [("active_bank", jsonStr inspection.activeBank),
    ("write_policy", .str writePolicy),
    ("active_selection", .obj
      [("status", .str inspection.activeSelection.status.text),
        ("candidates", jsonStrs inspection.activeSelection.candidates),
        ("selected_by", jsonStr (inspection.activeSelection.selectedBy.map (·.text)))]),
    ("banks", .list
      [.obj (bankInspectionToJsonable inspection.primary (decision inspection.primary)),
        .obj (bankInspectionToJsonable inspection.secondary (decision inspection.secondary))])]

def AcpFlashPayload.toJsonable (payload : AcpFlashPayload) : Json :=
  .obj
    [("template_source", .str payload.templateSource),
      ("template_path", jsonStr payload.templatePath),
      ("template_product_id", jsonStr payload.templateProductId),
      ("template_version", jsonStr payload.templateVersion),
      ("template_sha256", .str payload.templateSha256),
      ("payload_sha256", .str payload.payloadSha256),
      ("payload_size", .int payload.data.length),
      ("expected_prefix_sha256", .str (sha256Hex payload.expectedPrefix)),
      ("expected_prefix_size", .int payload.expectedPrefix.length),
      ("expected_login_classification",
        jsonStr (payload.expectedLoginClassification.map (·.text))),
      ("key_id", jsonStr payload.keyId),
      ("inner_model", .int payload.innerModel.toNat),
      ("inner_version", .str (hex08 payload.innerVersion.toNat)),
      ("inner_payload_size", .int payload.innerPayloadSize)]

def AppleFirmwareMatch.toJsonable (firmware : AppleFirmwareMatch) : Json :=
  .obj
    [("matched", .bool firmware.matched),
      ("template_source", .str firmware.templateSource),
      ("template_path", jsonStr firmware.templatePath),
      ("template_product_id", jsonStr firmware.templateProductId),
      ("template_version", jsonStr firmware.templateVersion),
      ("template_sha256", .str firmware.templateSha256),
      ("inner_sha256", .str firmware.innerSha256),
      ("inner_size", .int firmware.innerSize),
      ("key_id", jsonStr firmware.keyId),
      ("inner_model", .int firmware.innerModel.toNat),
      ("inner_version", .str (hex08 firmware.innerVersion.toNat))]

def FlashPlan.toJsonable (plan : FlashPlan) : Json :=
  .obj
    [("mode", .str plan.mode.text),
      ("target_bank", jsonStr (plan.targetBank.map (·.name))),
      ("write_requested", .bool plan.writeRequested),
      ("already_satisfied", .bool plan.alreadySatisfied),
      ("warnings", jsonStrs plan.warnings),
      ("payload", Json.ofOption AcpFlashPayload.toJsonable plan.payload),
      ("apple_match", Json.ofOption AppleFirmwareMatch.toJsonable plan.appleMatch),
      ("apple_matches", .list (plan.appleMatches.map fun found =>
        .obj [("bank", .str found.bank), ("match", found.firmware.toJsonable)])),
      ("apple_match_status", jsonStr plan.appleMatchStatus)]

/-! ## Writing the manifest -/

/-- A change of every bank entry, in place. -/
def mapBanks (f : JsonObject → JsonObject) (manifest : JsonObject) : JsonObject :=
  match manifest.lookup "banks" with
  | some (.list banks) =>
      dictSet manifest "banks" (.list (banks.map fun bank => (bank.toObj?.map fun members =>
        Json.obj (f members)).getD bank))
  | _ => manifest

def markManifestNoWrite (manifest : JsonObject) (decision : String) : JsonObject :=
  mapBanks (fun bank => dictSet (dictSet bank "would_write" (.bool false)) "write_decision"
    (.str decision)) manifest

/-- `bank.get("name") == name` -/
def bankNameIs (bank : JsonObject) (name : Option String) : Bool :=
  match bank.lookup "name", name with
  | some (.str bankName), some name => bankName = name
  | some .null, none => true
  | none, none => true
  | _, _ => false

/-- What a plan notes in the entry of its target bank. -/
def targetWriteDecision (plan : FlashPlan) (targetName : String) : Option String :=
  match plan.mode with
  | .patch =>
      if plan.alreadySatisfied then some "primary bank already patched; no write needed"
      else if plan.writeRequested then some "primary bank patch planned"
      else none
  | .restore =>
      if plan.writeRequested then
        some s!"{targetName} bank restore from Apple firmware planned"
      else
        some s!"{targetName} bank already matches requested Apple stock firmware; no write needed"
  | .checkApple => some "check only; no firmware write planned"
  | .downloadOnly => some "download only; no firmware write planned"
  | .readOnly => none

def setIfSome (members : JsonObject) (key : String) (value : Option String) : JsonObject :=
  value.elim members fun text => dictSet members key (.str text)

def applyFlashPlanToManifest (env : ActionEnv) (manifest : JsonObject) (plan : FlashPlan) :
    JsonObject :=
  let targetName := plan.targetBank.map (·.name)
  mapBanks (fun bank =>
    let named := (bank.lookup "name").filter (·.truthy)
    let bankName := (named.map (·.pyStr env.containerText)).getD "target"
    if !bankNameIs bank targetName then
      let bank := dictSet bank "would_write" (.bool false)
      if targetName.isSome && plan.mode = .patch then
        dictSet bank "write_decision" (.str "secondary backup left unmodified")
      else if targetName.isSome then
        dictSet bank "write_decision" (.str s!"{bankName} bank left unmodified")
      else bank
    else
      setIfSome (dictSet bank "would_write" (.bool plan.writeRequested)) "write_decision"
        (targetWriteDecision plan (targetName.getD "None"))) manifest

def writePolicyForOperation : FlashOperation → String
  | .patch => "primary_bank_patch"
  | .restore => "target_bank_restore"
  | _ => "active_bank_only"

/-- `AIRPORT_IDENTITIES_BY_SYAP`: the device models by product code. -/
def airportModelsBySyap : List (String × String) :=
  [("104", "AirPort5,104"), ("105", "AirPort5,105"), ("106", "TimeCapsule6,106"),
    ("108", "AirPort5,108"), ("109", "TimeCapsule6,109"), ("113", "TimeCapsule6,113"),
    ("114", "AirPort5,114"), ("116", "TimeCapsule6,116"), ("117", "AirPort5,117"),
    ("119", "TimeCapsule8,119"), ("120", "AirPort7,120")]

/-- The inspection's part of the manifest, as it is saved for an operation. -/
def inspectionPayload (operation : FlashOperation) (inspection : FlashInspection) : JsonObject :=
  let payload := inspectionToJsonable inspection (writePolicyForOperation operation)
  if operation ≠ .patch then
    markManifestNoWrite payload "backup only; no patch candidate built"
  else payload

def manifestFromInspection (operation : FlashOperation) (inspection : FlashInspection)
    (target : FlashTarget) (inputs : FlashInputs) (backupDir : String) : JsonObject :=
  dictUpdate (inspectionPayload operation inspection)
    [("operation", .str operation.text),
      ("host", .str target.acpHost),
      ("syap", .str inputs.syap),
      ("device_model", jsonStr (airportModelsBySyap.lookup inputs.syap)),
      ("os_release", .str target.osRelease),
      ("backup_dir", .str backupDir),
      ("files", .obj
        [("primary", .str (Path.text ⟨backupDir, "primary.raw"⟩)),
          ("secondary", .str (Path.text ⟨backupDir, "secondary.raw"⟩)),
          ("manifest", .str (Path.text ⟨backupDir, "manifest.json"⟩))]),
      ("acp_properties", .obj [("cks1", jsonNat inputs.cks1), ("cks2", jsonNat inputs.cks2)]),
      ("live_login", .obj
        [("size", .int inputs.liveLogin.length), ("sha256", .str (sha256Hex inputs.liveLogin))])]

def refreshManifestInspection (manifest : JsonObject) (inspection : FlashInspection)
    (operation : FlashOperation) : JsonObject :=
  let payload := inspectionPayload operation inspection
  ["active_bank", "write_policy", "active_selection", "banks"].foldl
    (fun manifest key => dictSet manifest key ((payload.lookup key).getD .null)) manifest

/-! ## Reading it back -/

def manifestBanks (manifest : JsonObject) : List JsonObject :=
  match manifest.lookup "banks" with
  | some (.list banks) => banks.filterMap (·.toObj?)
  | _ => []

def manifestFilePath (env : ActionEnv) (manifest : JsonObject) (backupDir name : String) : Path :=
  match ((manifest.lookup "files").bind (·.toObj?)).bind fun files =>
      (files.lookup name).bind (·.toStr?) with
  | some text => env.resolvePath text
  | none => ⟨backupDir, name ++ ".raw"⟩

/-- `int(text, 10)` -/
def decimalLiteral (u : UnicodeData) (s : String) : Option Int :=
  match (strip s).toList with
  | '-' :: cs => (digitsOf u 10 cs).map fun n => -(n : Int)
  | '+' :: cs => (digitsOf u 10 cs).map fun n => (n : Int)
  | cs => (digitsOf u 10 cs).map fun n => (n : Int)

/-- A checksum that was kept as a number or as a text. -/
def parseOptionalInt (env : ActionEnv) : Option Json → Except ActionError (Option Int)
  | some (.int value) => .ok (some value)
  | some (.str value) =>
      let text := strip value
      if text = "" then .ok none
      else
        let (base, parsed) :=
          if text.toLower.startsWith "0x" then
            (16, (magnitudeOf env.unicode text.toList).map fun n => (n : Int))
          else (10, decimalLiteral env.unicode text)
        match parsed with
        | some n => .ok (some n)
        | none =>
            .error (.value (s!"invalid literal for int() with base {base}: " ++
              reprStr env.unicode text))
  | _ => .ok none

/-- Checksums are unsigned: a negative literal, which nothing writes, counts as zero. -/
def manifestAcpChecksum (env : ActionEnv) (manifest : JsonObject) (name : String) :
    Except ActionError (Option Nat) := do
  let key := if name = "primary" then "cks1" else "cks2"
  let parsed ←
    match (manifest.lookup "acp_properties").bind (·.toObj?) with
    | some properties => parseOptionalInt env (properties.lookup key)
    | none => pure none
  match parsed with
  | some value => return some value.toNat
  | none =>
      match (manifestBanks manifest).find? fun bank => bankNameIs bank (some name) with
      | some bank => return (← parseOptionalInt env (bank.lookup "acp_checksum")).map (·.toNat)
      | none => return none

def manifestLiveLoginMatch (manifest : JsonObject) (name : String) (data : Bytes) : Option Bool :=
  match (manifestBanks manifest).find? fun bank => bankNameIs bank (some name) with
  | none => none
  | some bank =>
      if (bank.lookup "sha256").bind (·.toStr?) ≠ some (sha256Hex data) then none
      else (bank.lookup "live_login_match").bind (·.toBool?)

/-- `str(manifest.get(key) or "").strip()` -/
def manifestText (env : ActionEnv) (manifest : JsonObject) (key : String) : String :=
  match manifest.lookup key with
  | some value => if value.truthy then strip (value.pyStr env.containerText) else ""
  | none => ""

def backupSyap (env : ActionEnv) (manifest : JsonObject) : Except ActionError String :=
  let syap := manifestText env manifest "syap"
  if syap = "" then .error (.flash (.analysis "flash manifest is missing syAP"))
  else
    match normalizeSyap env.toPayloadEnv (.text syap) with
    | .ok value => .ok (toString value)
    | .error error => .error (.flash error)

def backupOsRelease (env : ActionEnv) (manifest : JsonObject) : Except ActionError String :=
  let osRelease := manifestText env manifest "os_release"
  if osRelease = "" then .error (.flash (.analysis "flash manifest is missing os_release"))
  else .ok osRelease

def staleBackupAfterWriteMessage : String :=
  "This flash backup was used for a firmware write. Back up and inspect again before planning " ++
  "another flash action."

def backupWasUsedForWrite (manifest : JsonObject) : Bool :=
  match (manifest.lookup "write_outcome").bind (·.toObj?) with
  | none => false
  | some outcome => ((outcome.lookup "write_may_have_modified_device").map (·.truthy)).getD false

def requireBackupFreshForPlan (manifest : JsonObject) : Except ActionError Unit :=
  if backupWasUsedForWrite manifest then
    .error (.flash (.analysis staleBackupAfterWriteMessage))
  else .ok ()

/-! ## Outcomes -/

def writeOutcomePayload (plan : FlashPlan) (status : String) (writeValidated : Bool)
    (writeMayHaveModifiedDevice : Bool) (stage : Option String) : JsonObject :=
  let outcome : JsonObject :=
    [("status", .str status),
      ("mode", .str plan.mode.text),
      ("write_validated", .bool writeValidated),
      ("write_may_have_modified_device", .bool writeMayHaveModifiedDevice)]
  let outcome := plan.targetBank.elim outcome fun bank =>
    dictUpdate outcome [("bank", .str bank.name), ("device", .str bank.device)]
  let outcome := plan.payload.elim outcome fun payload =>
    dictUpdate outcome
      [("firmware_payload_sha256", .str payload.payloadSha256),
        ("firmware_payload_size", .int payload.data.length),
        ("expected_prefix_sha256", .str (sha256Hex payload.expectedPrefix)),
        ("expected_prefix_size", .int payload.expectedPrefix.length)]
  setIfSome outcome "stage" stage

/-- `record_post_write_action`, up to saving. -/
def withPostWriteAction (manifest : JsonObject) (postWriteAction : String)
    (rebootRequested rebooted waitedAfterReboot : Bool) : JsonObject :=
  let outcome := ((manifest.lookup "write_outcome").bind (·.toObj?)).getD []
  dictSet manifest "write_outcome" (.obj (dictUpdate outcome
    [("post_write_action", .str postWriteAction),
      ("reboot_requested", .bool rebootRequested),
      ("rebooted", .bool rebooted),
      ("waited_after_reboot", .bool waitedAfterReboot)]))

end TimeCapsule.Flash
