import TimeCapsule.Flash.Inspection
import TimeCapsule.Flash.Payload

/-!
# Plans

What a flash operation would do with an inspected pair of banks.  The firmware templates come from
Apple's catalogue or from a file; finding them is left to a parameter.
-/

namespace TimeCapsule.Flash

open Lib

inductive FlashOperation where
  | readOnly
  | patch
  | restore
  | checkApple
  | downloadOnly
deriving DecidableEq, Repr

def FlashOperation.text : FlashOperation → String
  | .readOnly => "read_only"
  | .patch => "patch"
  | .restore => "restore"
  | .checkApple => "check_apple"
  | .downloadOnly => "download_only"

def LoginClassification.text : LoginClassification → String
  | .stock => "stock"
  | .alreadyPatched => "already_patched"
  | .unknown => "unknown"

structure AppleFirmwareMatch where
  matched : Bool
  templateSource : String
  templatePath : Option String
  templateProductId : Option String
  templateVersion : Option String
  templateSha256 : String
  innerSha256 : String
  innerSize : Nat
  keyId : Option String
  innerModel : UInt32
  innerVersion : UInt32
deriving DecidableEq, Repr

structure BankAppleFirmwareMatch where
  bank : String
  firmware : AppleFirmwareMatch
deriving DecidableEq, Repr

structure FlashPlan where
  mode : FlashOperation
  targetBank : Option BankAnalysis
  payload : Option AcpFlashPayload
  appleMatch : Option AppleFirmwareMatch
  alreadySatisfied : Bool
  warnings : List String
  appleMatches : List BankAppleFirmwareMatch
  appleMatchStatus : Option String
deriving DecidableEq, Repr

def FlashPlan.writeRequested (plan : FlashPlan) : Bool :=
  (plan.mode = .patch ∨ plan.mode = .restore) && !plan.alreadySatisfied

/-- Which firmware a plan asks for. -/
structure FirmwareRequest where
  syap : String
  firmwareTemplate : Option String
  firmwareVersion : Option String
deriving DecidableEq, Repr

/-- The builders that look a template up and try the candidates. -/
structure FirmwareSource where
  buildPatchPayloadForBank : BankAnalysis → FirmwareRequest → Except FlashError AcpFlashPayload
  buildRestorePayloadForBank : BankAnalysis → FirmwareRequest → Except FlashError AcpFlashPayload
  buildDownloadPayloadForSyap : FirmwareRequest → Except FlashError AcpFlashPayload
  findAppleFirmwareMatch : BankAnalysis → FirmwareRequest → Except FlashError AppleFirmwareMatch

/-! ## Messages -/

def lines (texts : List String) : String := "\n".intercalate texts

def pyOptionBool : Option Bool → String
  | none => "None"
  | some true => "True"
  | some false => "False"

def bankInspectionStatusLine (bank : BankInspection) : String :=
  let backupStatus := if bank.backupValid then "valid" else "invalid"
  let activeStatus := if bank.activeCandidate then "candidate" else "not_candidate"
  let details :=
    [s!"{bank.name}: backup={backupStatus}", s!"active={activeStatus}", s!"sha256={bank.sha256}"]
  let more :=
    match bank.analysis with
    | none => bank.error.toList.map fun error => s!"error={error}"
    | some analysis =>
        [s!"footer={hex08 analysis.footer.checksum}",
          s!"acp_match={pyOptionBool analysis.acpChecksumMatches}",
          s!"LOGIN={analysis.login.classification.text}"] ++
        (if bank.backupFailures = [] then []
          else ["backup_failures=" ++ ", ".intercalate bank.backupFailures]) ++
        (if bank.activeFailures = [] then []
          else ["active_failures=" ++ ", ".intercalate bank.activeFailures])
  "; ".intercalate (details ++ more)

def bankSelectionLine (bank : BankAnalysis) : String :=
  if bank.activeSelectionFailures = [] then s!"{bank.name} accepted"
  else s!"{bank.name} rejected: " ++ ", ".intercalate bank.activeSelectionFailures

def activeSelectionErrorMessage (analysis : FlashAnalysis) (write : Bool) : String :=
  let start := if write then "refusing to write because " else ""
  match analysis.activeSelection.status with
  | .noCandidates =>
      lines [s!"{start}no firmware bank passed active selection checks",
        bankSelectionLine analysis.primary, bankSelectionLine analysis.secondary]
  | .multipleCandidates =>
      let candidates := ", ".intercalate analysis.activeSelection.candidates
      lines [s!"{start}multiple firmware banks passed active selection checks: {candidates}",
        bankSelectionLine analysis.primary, bankSelectionLine analysis.secondary]
  | .selected => s!"{start}active firmware bank selection failed"

def writeDecisionForBank (analysis : FlashAnalysis) (bank : BankAnalysis) : String :=
  match analysis.activeBank with
  | none =>
      match analysis.activeSelection.status with
      | .noCandidates =>
          "active bank selection failed: no candidates passed; no patched output written"
      | .multipleCandidates =>
          "active bank selection failed: multiple candidates passed; no patched output written"
      | .selected => "active bank selection failed; no patched output written"
  | some active =>
      if bank.name ≠ active then "inactive bank left unmodified"
      else if bank.login.classification = .alreadyPatched then
        "active bank already patched; no patched output written"
      else if bank.patch.isSome then "active bank patch candidate"
      else if bank.patchError.getD "" ≠ "" then
        "active bank patch refused: " ++ bank.patchError.getD ""
      else s!"active bank patch refused: LOGIN classification {bank.login.classification.text}"

/-! ## Targets -/

def bothBackupBanksValid (inspection : FlashInspection) : Bool :=
  inspection.primary.backupValid && inspection.secondary.backupValid

def bankStatusLines (inspection : FlashInspection) : List String :=
  [bankInspectionStatusLine inspection.primary, bankInspectionStatusLine inspection.secondary]

def patchPreflightLines (reason : String) (inspection : FlashInspection) : List String :=
  [reason] ++ bankStatusLines inspection ++
    ["Use --force to patch the primary bank anyway after reviewing the backup status."]

def forceWarnings (inspection : FlashInspection) : List String :=
  (if bothBackupBanksValid inspection then []
    else ["patch forced despite one or more invalid backup banks"]) ++
  (if inspection.primary.activeCandidate then []
    else ["patch forced even though the primary bank did not pass active-candidate checks"])

def requirePrimaryPatchReady (inspection : FlashInspection) (force : Bool) :
    Except FlashError BankAnalysis :=
  match inspection.primary.analysis with
  | none =>
      .error (.analysis (lines
        (["refusing to patch primary because the primary firmware bank could not be analyzed"] ++
          bankStatusLines inspection)))
  | some analysis =>
      if !force && !bothBackupBanksValid inspection then
        .error (.analysis (lines (patchPreflightLines
          "refusing to patch primary because both firmware banks must be valid backups"
          inspection)))
      else if !force && !inspection.primary.activeCandidate then
        .error (.analysis (lines (patchPreflightLines
          "refusing to patch primary because primary is not an active firmware candidate"
          inspection)))
      else if analysis.login.classification = .alreadyPatched then .ok analysis
      else if analysis.login.classification ≠ .stock then
        .error (.analysis ("refusing to patch primary bank with LOGIN classification " ++
          analysis.login.classification.text))
      else if analysis.patch.isNone then
        let error := analysis.patchError.getD ""
        let detail := if error = "" then "" else s!": {error}"
        .error (.analysis s!"refusing to patch because primary bank has no patch candidate{detail}")
      else .ok analysis

def selectedActiveForReadPlan (inspection : FlashInspection) : Option BankAnalysis :=
  if inspection.activeBank = some "primary" ∧ inspection.primary.analysis.isSome then
    inspection.primary.analysis
  else if inspection.activeBank = some "secondary" ∧ inspection.secondary.analysis.isSome then
    inspection.secondary.analysis
  else none

def restorePrimaryAmbiguousWarning : String :=
  "restore targets primary because multiple firmware banks passed active selection checks"

def requireRestoreTargetBank (inspection : FlashInspection) :
    Except FlashError (BankAnalysis × List String) :=
  if !bothBackupBanksValid inspection then
    .error (.analysis (lines
      (["refusing to restore because both firmware banks must be valid backups"] ++
        bankStatusLines inspection)))
  else
    match selectedActiveForReadPlan inspection with
    | some active => .ok (active, [])
    | none =>
        match inspection.activeSelection.status, inspection.primary.analysis,
            inspection.primary.activeCandidate with
        | .multipleCandidates, some analysis, true =>
            .ok (analysis, [restorePrimaryAmbiguousWarning])
        | _, _, _ =>
            match inspection.strictAnalysis with
            | some analysis => .error (.analysis (activeSelectionErrorMessage analysis true))
            | none =>
                .error (.analysis (lines
                  (["refusing to restore because firmware bank inspection failed"] ++
                    bankStatusLines inspection)))

def candidateAnalyses (inspection : FlashInspection) : List BankAnalysis :=
  [inspection.primary, inspection.secondary].filterMap fun bank =>
    if bank.activeCandidate then bank.analysis else none

def requireReadCandidates (inspection : FlashInspection) : Except FlashError (List BankAnalysis) :=
  match candidateAnalyses inspection, inspection.strictAnalysis with
  | [], some analysis => .error (.analysis (activeSelectionErrorMessage analysis false))
  | [], none => .error (.analysis "no firmware bank could be checked against Apple firmware")
  | candidates, _ => .ok candidates

/-! ## Matches -/

def appleMatchStatus (results : List BankAppleFirmwareMatch) : String :=
  let matchedCount := (results.filter (·.firmware.matched)).length
  if results = [] then "not_checked"
  else if matchedCount = results.length then "all_candidates_match"
  else if matchedCount = 0 then "no_candidates_match"
  else "some_candidates_match"

def aggregateAppleMatch : List BankAppleFirmwareMatch → Option AppleFirmwareMatch
  | [] => none
  | first :: rest =>
      if appleMatchStatus (first :: rest) = "all_candidates_match" then some first.firmware
      else some { first.firmware with matched := false }

/-- The match of the active bank, or what all matches come to. -/
def selectedAppleMatch (active : Option BankAnalysis) (results : List BankAppleFirmwareMatch) :
    Option AppleFirmwareMatch :=
  match results.find? fun result => active.any fun bank => result.bank = bank.name with
  | some selected => some selected.firmware
  | none => aggregateAppleMatch results

def appleMatchFromRestorePayload (payload : AcpFlashPayload) (matched : Bool) :
    AppleFirmwareMatch where
  matched := matched
  templateSource := payload.templateSource
  templatePath := payload.templatePath
  templateProductId := payload.templateProductId
  templateVersion := payload.templateVersion
  templateSha256 := payload.templateSha256
  innerSha256 := sha256Hex payload.expectedPrefix
  innerSize := payload.expectedPrefix.length
  keyId := payload.keyId
  innerModel := payload.innerModel
  innerVersion := payload.innerVersion

/-! ## Plans -/

def planPatchPrimary (source : FirmwareSource) (inspection : FlashInspection) (force : Bool)
    (request : FirmwareRequest) : Except FlashError FlashPlan := do
  let primary ← requirePrimaryPatchReady inspection force
  let warnings := if force then forceWarnings inspection else []
  if primary.login.classification = .alreadyPatched then
    return ⟨.patch, some primary, none, none, true, warnings, [], none⟩
  else
    let payload ← source.buildPatchPayloadForBank primary request
    return ⟨.patch, some primary, some payload, none, false, warnings, [], none⟩

def planRestoreApple (source : FirmwareSource) (inspection : FlashInspection)
    (request : FirmwareRequest) : Except FlashError FlashPlan := do
  let (target, warnings) ← requireRestoreTargetBank inspection
  let payload ← source.buildRestorePayloadForBank target request
  let alreadySatisfied :=
    decide (target.data.take payload.expectedPrefix.length = payload.expectedPrefix)
  return ⟨.restore, some target, some payload,
    some (appleMatchFromRestorePayload payload alreadySatisfied), alreadySatisfied, warnings, [],
    none⟩

def planCheckApple (source : FirmwareSource) (inspection : FlashInspection)
    (request : FirmwareRequest) : Except FlashError FlashPlan := do
  let candidates ← requireReadCandidates inspection
  let results ← candidates.mapM fun bank => do
    let firmware ← source.findAppleFirmwareMatch bank request
    return (⟨bank.name, firmware⟩ : BankAppleFirmwareMatch)
  let status := appleMatchStatus results
  let active := selectedActiveForReadPlan inspection
  return ⟨.checkApple, active, none, selectedAppleMatch active results,
    status = "all_candidates_match", [], results, some status⟩

def planDownloadOnly (source : FirmwareSource) (inspection : FlashInspection)
    (request : FirmwareRequest) : Except FlashError FlashPlan := do
  let active := selectedActiveForReadPlan inspection
  let payload ← source.buildDownloadPayloadForSyap request
  let results := (candidateAnalyses inspection).map fun bank =>
    (⟨bank.name, appleMatchFromRestorePayload payload
      (decide (bank.data.take payload.expectedPrefix.length = payload.expectedPrefix))⟩ :
      BankAppleFirmwareMatch)
  let status := appleMatchStatus results
  return ⟨.downloadOnly, active, some payload, selectedAppleMatch active results,
    status = "all_candidates_match", [], results, some status⟩

def planFromOperation (source : FirmwareSource) (operation : FlashOperation)
    (inspection : FlashInspection) (force : Bool) (request : FirmwareRequest) :
    Except FlashError (Option FlashPlan) :=
  match operation with
  | .patch => (planPatchPrimary source inspection force request).map some
  | .restore => (planRestoreApple source inspection request).map some
  | .checkApple => (planCheckApple source inspection request).map some
  | .downloadOnly => (planDownloadOnly source inspection request).map some
  | .readOnly => .ok none

end TimeCapsule.Flash
