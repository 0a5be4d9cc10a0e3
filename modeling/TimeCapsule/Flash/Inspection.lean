import TimeCapsule.Flash.Bank

/-!
# Inspecting a pair of banks

What is known of both firmware banks and which of them is taken for the active one.  A bank that
cannot be analysed still gives an inspection.  With two candidates the running LOGIN script decides,
given as bytes when the banks are dumped and as a saved verdict afterwards.
-/

namespace TimeCapsule.Flash

open Lib

inductive SelectionStatus where
  | selected
  | noCandidates
  | multipleCandidates
deriving DecidableEq, Repr

inductive SelectedBy where
  | automatic
  | liveLogin
deriving DecidableEq, Repr

structure ActiveSelectionInfo where
  status : SelectionStatus
  candidates : List String
  selectedBy : Option SelectedBy
deriving DecidableEq, Repr

structure FlashAnalysis where
  primary : BankAnalysis
  secondary : BankAnalysis
  activeBank : Option String
  activeSelection : ActiveSelectionInfo
deriving DecidableEq, Repr

structure BankInspection where
  name : String
  device : String
  size : Nat
  sha256 : String
  acpChecksum : Option Nat
  analysis : Option BankAnalysis
  backupValid : Bool
  backupFailures : List String
  activeCandidate : Bool
  activeFailures : List String
  liveLoginMatch : Option Bool
  error : Option String
deriving DecidableEq, Repr

structure FlashInspection where
  primary : BankInspection
  secondary : BankInspection
  activeSelection : ActiveSelectionInfo
deriving DecidableEq, Repr

namespace FlashInspection

def activeBank (inspection : FlashInspection) : Option String :=
  match inspection.activeSelection.candidates with
  | [candidate] => some candidate
  | _ => none

def strictAnalysis (inspection : FlashInspection) : Option FlashAnalysis :=
  match inspection.primary.analysis, inspection.secondary.analysis with
  | some primary, some secondary =>
      some ⟨primary, secondary, inspection.activeBank, inspection.activeSelection⟩
  | _, _ => none

end FlashInspection

def FlashAnalysis.active (analysis : FlashAnalysis) : Option BankAnalysis :=
  if analysis.activeBank = some analysis.primary.name then some analysis.primary
  else if analysis.activeBank = some analysis.secondary.name then some analysis.secondary
  else none

def backupValidationFailures (bank : BankAnalysis) : List String :=
  let checksumProperty := checksumPropertyForBank bank.name
  (if bank.footerValid then [] else ["footer checksum invalid"]) ++
  (match bank.acpChecksumMatches with
    | none => [s!"{checksumProperty} missing"]
    | some true => []
    | some false =>
        let detail := (bank.acpChecksum.map hex08).getD "unknown"
        [s!"{checksumProperty} mismatch: acp={detail} footer={hex08 bank.footer.checksum}"])

def liveLoginMatch (analysis : BankAnalysis) (liveLogin : Option Bytes)
    (savedLiveLoginMatch : Option Bool) : Option Bool :=
  match liveLogin with
  | none => savedLiveLoginMatch
  | some login =>
      if login = [] then none
      else
        let image := analysis.gzipMember.decompressed
        some (find image login 0 image.length).isSome

/-- The inspection of a bank that was analysed. -/
def inspectionOf (analysis : BankAnalysis) (liveLoginMatch : Option Bool) : BankInspection :=
  let backupFailures := backupValidationFailures analysis
  let activeFailures := backupFailures ++
    (if analysis.kernelIdentityMatch then [] else [analysis.kernelIdentityDetail])
  { name := analysis.name
    device := analysis.device
    size := analysis.size
    sha256 := analysis.sha256
    acpChecksum := analysis.acpChecksum
    analysis := some analysis
    backupValid := backupFailures.isEmpty
    backupFailures := backupFailures
    activeCandidate := activeFailures.isEmpty
    activeFailures := activeFailures
    liveLoginMatch := liveLoginMatch
    error := none }

/-- The inspection of a bank whose analysis raised an error. -/
def failedInspection (name device : String) (data : Bytes) (acpChecksum : Option Nat)
    (error : String) : BankInspection where
  name := name
  device := device
  size := data.length
  sha256 := sha256Hex data
  acpChecksum := acpChecksum
  analysis := none
  backupValid := false
  backupFailures := [error]
  activeCandidate := false
  activeFailures := [error]
  liveLoginMatch := none
  error := some error

def inspectBank (env : FlashEnv) (name device : String) (data : Bytes) (acpChecksum : Option Nat)
    (osRelease : String) (buildPatchCandidate : Bool) (liveLogin : Option Bytes)
    (savedLiveLoginMatch : Option Bool) : Except FlashError BankInspection :=
  match analyzeBank env name device data acpChecksum osRelease buildPatchCandidate with
  | .error (.analysis error) => .ok (failedInspection name device data acpChecksum error)
  | .error other => .error other
  | .ok analysis => .ok (inspectionOf analysis (liveLoginMatch analysis liveLogin savedLiveLoginMatch))

/-- The one candidate, or of two candidates the one that holds the running LOGIN script. -/
def selectActive (primary secondary : BankInspection) : ActiveSelectionInfo :=
  let candidateBanks := [primary, secondary].filter (·.activeCandidate)
  let activeCandidates := candidateBanks.map (·.name)
  if activeCandidates.length = 1 then ⟨.selected, activeCandidates, some .automatic⟩
  else if activeCandidates = [] then ⟨.noCandidates, activeCandidates, none⟩
  else
    let liveLoginCandidates :=
      (candidateBanks.filter fun bank => bank.liveLoginMatch = some true).map (·.name)
    if liveLoginCandidates.length = 1 then ⟨.selected, liveLoginCandidates, some .liveLogin⟩
    else ⟨.multipleCandidates, activeCandidates, none⟩

def primaryDevice : String := "/dev/rflash0.raw"

def secondaryDevice : String := "/dev/rflash1.raw"

def inspectFlashBanks (env : FlashEnv) (primaryData secondaryData : Bytes)
    (cks1 cks2 : Option Nat) (osRelease : String) (buildPrimaryPatchCandidate : Bool)
    (liveLogin : Option Bytes) (savedLiveLoginMatches : Option (List (String × Option Bool))) :
    Except FlashError FlashInspection := do
  let savedMatch (name : String) : Option Bool :=
    savedLiveLoginMatches.bind fun saved => (saved.lookup name).join
  let primary ← inspectBank env "primary" primaryDevice primaryData cks1 osRelease
    buildPrimaryPatchCandidate liveLogin (savedMatch "primary")
  let secondary ← inspectBank env "secondary" secondaryDevice secondaryData cks2 osRelease false
    liveLogin (savedMatch "secondary")
  return ⟨primary, secondary, selectActive primary secondary⟩

/-! ## Errors -/

section Errors

variable {env : FlashEnv} {α β : Type}

/-- The only errors are those that inspecting a bank catches. -/
def AnalysisErrors (x : Except FlashError α) : Prop :=
  ∀ e, x = .error e → ∃ message, e = .analysis message

theorem AnalysisErrors.ok {a : α} : AnalysisErrors (.ok a) := by
  rintro _ ⟨⟩

theorem AnalysisErrors.error {message : String} :
    AnalysisErrors (.error (.analysis message) : Except FlashError α) :=
  fun _ h => ⟨message, (Except.error.inj h).symm⟩

theorem AnalysisErrors.bind {x : Except FlashError α} {f : α → Except FlashError β}
    (hx : AnalysisErrors x) (hf : ∀ a, AnalysisErrors (f a)) : AnalysisErrors (x >>= f) := by
  cases x with
  | error e =>
    intro e' h
    exact hx e' (congrArg Except.error (Except.error.inj h))
  | ok a => exact hf a

theorem analysisErrors_findFooter (data : Bytes) : AnalysisErrors (findFooter data) := by
  unfold findFooter
  split
  · exact .error
  · split
    · exact .ok
    · exact .error

theorem analysisErrors_findGzipMember (data : Bytes) (footer : FooterInfo) :
    AnalysisErrors (findGzipMember env data footer) := by
  unfold findGzipMember
  split
  · exact .ok
  · exact .error

theorem analysisErrors_compress (data : Bytes) (maxLength : Nat) :
    AnalysisErrors (compressPatchedImageWithZopfli env data maxLength) := by
  apply AnalysisErrors.bind
  · unfold compressWithZopfliGzip
    split
    · exact .ok
    · exact .error
  · intro compression
    split
    · exact .error
    · exact .ok

/-- A patchable script has a place, so the builder never fails an assertion. -/
theorem analysisErrors_buildPatch (data : Bytes) (footer : FooterInfo) (member : GzipMemberInfo)
    (login : LoginInfo) : AnalysisErrors (buildPatch env data footer member login) := by
  unfold buildPatch
  by_cases hpatchable : login.patchable = true
  · simp only [LoginInfo.patchable, Bool.and_eq_true] at hpatchable
    obtain ⟨⟨-, hoffset⟩, hlength⟩ := hpatchable
    obtain ⟨offset, hoffset⟩ := Option.isSome_iff_exists.mp hoffset
    obtain ⟨length, hlength⟩ := Option.isSome_iff_exists.mp hlength
    split
    · exact .ok
    rw [hoffset, hlength]
    dsimp only
    split
    · exact .error
    split
    · split
      · exact .error
      · apply (analysisErrors_compress _ _).bind
        intro compression
        split
        · exact .error
        · exact .ok
    · exact .error
  · rw [if_pos (by simpa using hpatchable)]
    exact .ok

end Errors

/-! ## The patch candidate -/

/-- The analysis apart from the patch candidate. -/
def BankAnalysis.withoutPatch (bank : BankAnalysis) : BankAnalysis :=
  { bank with patch := none, patchError := none }

def BankInspection.withoutPatch (bank : BankInspection) : BankInspection :=
  { bank with analysis := bank.analysis.map (·.withoutPatch) }

section Candidate

variable {env : FlashEnv} {name device osRelease : String} {data : Bytes}
  {acpChecksum : Option Nat} {bank : BankAnalysis}

/-- A candidate that cannot be built is a note in the analysis. -/
theorem withPatchCandidate_ok :
    ∃ bank', withPatchCandidate env bank = .ok bank' ∧ bank'.withoutPatch = bank.withoutPatch := by
  have herrors : AnalysisErrors (buildPatch env bank.data bank.footer bank.gzipMember bank.login) :=
    analysisErrors_buildPatch _ _ _ _
  unfold withPatchCandidate
  cases hpatch : buildPatch env bank.data bank.footer bank.gzipMember bank.login with
  | error e =>
    obtain ⟨message, rfl⟩ := herrors e hpatch
    exact ⟨_, rfl, rfl⟩
  | ok patch => exact ⟨_, rfl, rfl⟩

theorem analyzeBank_candidate :
    analyzeBank env name device data acpChecksum osRelease true =
      analyzeBank env name device data acpChecksum osRelease false >>= withPatchCandidate env := by
  unfold analyzeBank
  cases findFooter data with
  | error e => rfl
  | ok footer =>
    cases hmember : findGzipMember env data footer with
    | error e => simp only [bind, Except.bind, hmember]
    | ok member => simp only [bind, Except.bind, hmember, if_true, Bool.false_eq_true, if_false]

theorem analysisErrors_analyzeBank (candidate : Bool) :
    AnalysisErrors (analyzeBank env name device data acpChecksum osRelease candidate) := by
  have hplain : AnalysisErrors (analyzeBank env name device data acpChecksum osRelease false) := by
    apply (analysisErrors_findFooter data).bind
    intro footer
    apply (analysisErrors_findGzipMember data footer).bind
    intro member
    exact .ok
  cases candidate with
  | false => exact hplain
  | true =>
    rw [analyzeBank_candidate]
    apply hplain.bind
    intro bank
    obtain ⟨bank', hbank', -⟩ : ∃ bank', withPatchCandidate env bank = .ok bank' ∧ _ :=
      withPatchCandidate_ok
    rw [hbank']
    exact .ok

end Candidate

/-! ## Inspecting again -/

section Again

variable {env : FlashEnv} {name device osRelease : String} {data : Bytes}
  {acpChecksum : Option Nat} {candidate candidate' : Bool} {liveLogin : Option Bytes}
  {saved : Option Bool} {bank : BankAnalysis} {i j : BankInspection}

theorem analyzeBank_strip :
    analyzeBank env name device data acpChecksum (strip osRelease) candidate =
      analyzeBank env name device data acpChecksum osRelease candidate := by
  have hidentity : ∀ image, identityMatches env image (strip osRelease) =
      identityMatches env image osRelease := by
    intro image
    unfold identityMatches
    rw [strip_strip]
  unfold analyzeBank
  simp only [hidentity]

/-- The analysis with or without a candidate. -/
theorem analyzeBank_of_false (candidate : Bool)
    (h : analyzeBank env name device data acpChecksum osRelease false = .ok bank) :
    ∃ bank', analyzeBank env name device data acpChecksum osRelease candidate = .ok bank' ∧
      bank'.withoutPatch = bank.withoutPatch := by
  cases candidate with
  | false => exact ⟨bank, h, rfl⟩
  | true =>
    rw [analyzeBank_candidate, h]
    exact withPatchCandidate_ok

theorem inspectBank_ok : ∃ i, inspectBank env name device data acpChecksum osRelease candidate
    liveLogin saved = .ok i := by
  have herrors : AnalysisErrors (analyzeBank env name device data acpChecksum osRelease candidate) :=
    analysisErrors_analyzeBank candidate
  unfold inspectBank
  cases hbank : analyzeBank env name device data acpChecksum osRelease candidate with
  | error e =>
    obtain ⟨message, rfl⟩ := herrors e hbank
    exact ⟨_, rfl⟩
  | ok bank => exact ⟨_, rfl⟩

/-- With the verdict on the LOGIN script saved, the dumped bank is inspected the same way again,
whatever is asked about patching. -/
theorem inspectBank_again
    (h : inspectBank env name device data acpChecksum osRelease candidate liveLogin saved = .ok i)
    (h' : inspectBank env name device data acpChecksum (strip osRelease) candidate' none
      i.liveLoginMatch = .ok j) :
    j.withoutPatch = i.withoutPatch ∧ (candidate = candidate' → j = i) := by
  rw [inspectBank, analyzeBank_strip] at h'
  rw [inspectBank] at h
  cases hplain : analyzeBank env name device data acpChecksum osRelease false with
  | error e =>
    have herror : ∀ c, analyzeBank env name device data acpChecksum osRelease c = .error e := by
      intro c
      cases c with
      | false => exact hplain
      | true => rw [analyzeBank_candidate, hplain]; rfl
    obtain ⟨message, rfl⟩ := analysisErrors_analyzeBank false e hplain
    rw [herror] at h h'
    obtain rfl := Except.ok.inj h
    obtain rfl := Except.ok.inj h'
    exact ⟨rfl, fun _ => rfl⟩
  | ok bank =>
    obtain ⟨first, hfirst, heq⟩ := analyzeBank_of_false candidate hplain
    obtain ⟨second, hsecond, heq'⟩ := analyzeBank_of_false candidate' hplain
    rw [hfirst] at h
    rw [hsecond] at h'
    obtain rfl := Except.ok.inj h
    obtain rfl := Except.ok.inj h'
    constructor
    · show (inspectionOf second.withoutPatch _).withoutPatch =
        (inspectionOf first.withoutPatch _).withoutPatch
      rw [heq, heq']
      rfl
    · rintro rfl
      obtain rfl := Except.ok.inj (hfirst.symm.trans hsecond)
      rfl

end Again

section AgainBoth

variable {env : FlashEnv} {osRelease : String} {primary secondary : Bytes} {cks1 cks2 : Option Nat}
  {candidate : Bool} {liveLogin : Option Bytes} {p s p' s' : BankInspection}
  {i j : FlashInspection}

theorem selectActive_congr (hp : p'.withoutPatch = p.withoutPatch)
    (hs : s'.withoutPatch = s.withoutPatch) : selectActive p' s' = selectActive p s := by
  have hname : p'.name = p.name ∧ s'.name = s.name :=
    ⟨congrArg (·.name) hp, congrArg (·.name) hs⟩
  have hactive : p'.activeCandidate = p.activeCandidate ∧ s'.activeCandidate = s.activeCandidate :=
    ⟨congrArg (·.activeCandidate) hp, congrArg (·.activeCandidate) hs⟩
  have hmatch : p'.liveLoginMatch = p.liveLoginMatch ∧ s'.liveLoginMatch = s.liveLoginMatch :=
    ⟨congrArg (·.liveLoginMatch) hp, congrArg (·.liveLoginMatch) hs⟩
  unfold selectActive
  by_cases hpc : p.activeCandidate = true <;> by_cases hsc : s.activeCandidate = true <;>
    by_cases hpm : p.liveLoginMatch = some true <;> by_cases hsm : s.liveLoginMatch = some true <;>
    simp [hname, hactive, hmatch, hpc, hsc, hpm, hsm]

/-- The inspection of a saved pair of banks. -/
theorem inspectFlashBanks_again (candidate' : Bool)
    (h : inspectFlashBanks env primary secondary cks1 cks2 osRelease candidate liveLogin none =
      .ok i) :
    ∃ j, inspectFlashBanks env primary secondary cks1 cks2 (strip osRelease) candidate' none
        (some [("primary", i.primary.liveLoginMatch), ("secondary", i.secondary.liveLoginMatch)]) =
          .ok j ∧
      j.primary.withoutPatch = i.primary.withoutPatch ∧ j.secondary = i.secondary ∧
      j.activeSelection = i.activeSelection ∧ (candidate = candidate' → j = i) := by
  obtain ⟨p, hp, h⟩ := bind_eq_ok.mp h
  obtain ⟨s, hs, h⟩ := bind_eq_ok.mp h
  obtain rfl := Except.ok.inj h
  obtain ⟨p', hp'⟩ : ∃ p', inspectBank env "primary" primaryDevice primary cks1 (strip osRelease)
      candidate' none p.liveLoginMatch = .ok p' := inspectBank_ok
  obtain ⟨s', hs'⟩ : ∃ s', inspectBank env "secondary" secondaryDevice secondary cks2
      (strip osRelease) false none s.liveLoginMatch = .ok s' := inspectBank_ok
  obtain ⟨hpatch, hpsame⟩ := inspectBank_again hp hp'
  obtain ⟨-, hssame⟩ := inspectBank_again hs hs'
  obtain rfl := hssame rfl
  have hselect : selectActive p' s' = selectActive p s' := selectActive_congr hpatch rfl
  refine ⟨⟨p', s', selectActive p' s'⟩, ?_, hpatch, rfl, hselect, ?_⟩
  · exact bind_eq_ok.mpr ⟨p', hp', bind_eq_ok.mpr ⟨s', hs', rfl⟩⟩
  · intro hsame
    rw [hpsame hsame]

end AgainBoth

end TimeCapsule.Flash
