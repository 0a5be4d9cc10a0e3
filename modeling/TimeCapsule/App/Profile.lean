import TimeCapsule.App.Identity

/-!
# Saved devices

The profile that the app keeps for a device, and how a configuration makes or renews one.
-/

namespace TimeCapsule.App

/-- Seconds since some day. -/
abbrev Date := Int

abbrev ProfileID := String

inductive DevicePasswordState where
  | unknown
  | available
  | missing
  | invalid
  | keychainUnavailable
deriving DecidableEq, Repr

structure DeviceProfileSettings where
  nbnsEnabled : Bool
  rsyncEnabled : Bool
  internalShareUseDiskRoot : Bool
  smbBindLanOnly : Bool
  smbBrowseCompatibility : Bool
  mdnsAdvertiseAFP : Bool
  anyProtocol : Bool
  requireSMBEncryption : Bool
  forceDisableSMBSigningAndEncryption : Bool
  fruitMetadataNetatalk : Bool
  vfsAIOForkEnabled : Bool
  debugLogging : Bool
  mountWaitSeconds : Int
  ataIdleSeconds : Int
  ataStandby : Option Int
deriving DecidableEq, Repr

/-- `default` -/
def DeviceProfileSettings.standard : DeviceProfileSettings where
  nbnsEnabled := true
  rsyncEnabled := false
  internalShareUseDiskRoot := false
  smbBindLanOnly := false
  smbBrowseCompatibility := false
  mdnsAdvertiseAFP := false
  anyProtocol := false
  requireSMBEncryption := false
  forceDisableSMBSigningAndEncryption := false
  fruitMetadataNetatalk := true
  vfsAIOForkEnabled := false
  debugLogging := false
  mountWaitSeconds := 30
  ataIdleSeconds := 300
  ataStandby := none

inductive DoctorWorkflowState where
  | idle
  | running
  | passed
  | warning
  | failed
  | runFailed
deriving DecidableEq, Repr

structure DeviceCheckupSnapshot where
  checkedAt : Date
  state : DoctorWorkflowState
  passCount : Int
  warnCount : Int
  failCount : Int
  summary : String
deriving DecidableEq, Repr

structure DeviceRecoverySnapshot where
  title : String
  message : Option String
  actions : List String
  actionIDs : List String
  retryable : Bool
  suggestedOperation : Option String
  docsAnchor : Option String
  localizationKey : Option String
deriving DecidableEq, Repr

inductive DeviceDeployStateStatus where
  | deploying
  | awaitingConfirmation
  | succeeded
  | failed
  | interrupted
deriving DecidableEq, Repr

def DeviceDeployStateStatus.isInProgress : DeviceDeployStateStatus → Bool
  | .deploying => true
  | .awaitingConfirmation => true
  | _ => false

structure DeviceDeployStateSnapshot where
  operationID : Option String
  startedAt : Date
  updatedAt : Date
  finishedAt : Option Date
  status : DeviceDeployStateStatus
  stage : Option String
  payloadFamily : Option String
  rebootRequested : Option Bool
  verified : Option Bool
  summary : String
  errorCode : Option String
  errorMessage : Option String
  recovery : Option DeviceRecoverySnapshot
deriving DecidableEq, Repr

inductive DeviceRuntimeState where
  | unknown
  | notInstalled
  | installing
  | installedUnverified
  | installedVerified
  | installFailed
  | installInterrupted
  | activationNeeded
  | unhealthy
deriving DecidableEq, Repr

inductive DeviceRuntimeEvidenceSource where
  | deploy
  | doctor
  | appRecovery
deriving DecidableEq, Repr

structure DeviceRuntimeStateSnapshot where
  state : DeviceRuntimeState
  source : DeviceRuntimeEvidenceSource
  stage : Option String
  payloadFamily : Option String
  verified : Option Bool
  summary : String
  errorCode : Option String
  errorMessage : Option String
  recovery : Option DeviceRecoverySnapshot
deriving DecidableEq, Repr

structure DeviceProfile where
  id : ProfileID
  displayName : String
  network : DeviceNetworkIdentity
  syap : Option String
  model : Option String
  osName : Option String
  osRelease : Option String
  arch : Option String
  elfEndianness : Option String
  payloadFamily : Option String
  deviceGeneration : Option String
  configPath : String
  keychainAccount : String
  createdAt : Date
  updatedAt : Date
  lastCheckup : Option DeviceCheckupSnapshot
  lastDeployState : Option DeviceDeployStateSnapshot
  runtimeState : Option DeviceRuntimeStateSnapshot
  settings : DeviceProfileSettings
  passwordState : DevicePasswordState
deriving DecidableEq, Repr

structure DeviceCompatibilityPayload where
  osName : Option String
  osRelease : Option String
  arch : Option String
  elfEndianness : Option String
  payloadFamily : Option String
  deviceGeneration : Option String

/-- What a configuration has found out about a device. -/
structure ConfiguredDeviceState where
  host : String
  syap : Option String
  model : Option String
  compatibility : Option DeviceCompatibilityPayload

namespace DeviceProfile

variable (p : Platform)

def host (profile : DeviceProfile) : String := profile.network.configuredSSHTarget

def bonjourFullname (profile : DeviceProfile) : Option String := profile.network.bonjourFullname

def normalizedHost (profile : DeviceProfile) : String :=
  DeviceEndpointPolicy.normalizedHostKey p (some profile.host)

def «matches» (left right : DeviceProfile) : Bool := left.network.matches p right.network

/-- The directory of a profile below `Application Support`. -/
def configDirectory (applicationSupportURL : String) (id : ProfileID) : String :=
  applicationSupportURL ++ "/Devices/" ++ id

def configURL (applicationSupportURL : String) (id : ProfileID) : String :=
  configDirectory applicationSupportURL id ++ "/.env"

def make (id : ProfileID) (configuredDevice : ConfiguredDeviceState)
    (discoveredDevice : Option DiscoveredDevice) (applicationSupportURL : String)
    (existing : Option DeviceProfile) (date : Date) : DeviceProfile :=
  let resolvedID := (existing.map (·.id)).getD id
  let compatibility := configuredDevice.compatibility
  { id := resolvedID
    displayName := (existing.map (·.displayName)).getD
      ((discoveredDevice.map (·.name)).getD (configuredDevice.model.getD "Time Capsule"))
    network := DeviceNetworkIdentity.make p configuredDevice.host discoveredDevice
      (existing.map (·.network))
    syap := configuredDevice.syap.orElse fun _ => existing.bind (·.syap)
    model := configuredDevice.model.orElse fun _ => existing.bind (·.model)
    osName := (compatibility.bind (·.osName)).orElse fun _ => existing.bind (·.osName)
    osRelease := (compatibility.bind (·.osRelease)).orElse fun _ => existing.bind (·.osRelease)
    arch := (compatibility.bind (·.arch)).orElse fun _ => existing.bind (·.arch)
    elfEndianness :=
      (compatibility.bind (·.elfEndianness)).orElse fun _ => existing.bind (·.elfEndianness)
    payloadFamily :=
      (compatibility.bind (·.payloadFamily)).orElse fun _ => existing.bind (·.payloadFamily)
    deviceGeneration :=
      (compatibility.bind (·.deviceGeneration)).orElse fun _ => existing.bind (·.deviceGeneration)
    configPath := configURL applicationSupportURL resolvedID
    keychainAccount := resolvedID
    createdAt := (existing.map (·.createdAt)).getD date
    updatedAt := date
    lastCheckup := existing.bind (·.lastCheckup)
    lastDeployState := existing.bind (·.lastDeployState)
    runtimeState := existing.bind (·.runtimeState)
    settings := (existing.map (·.settings)).getD .standard
    passwordState := (existing.map (·.passwordState)).getD .unknown }

/-- `profileWithStorageFields` -/
def withStorageFields (applicationSupportURL : String) (profile : DeviceProfile) : DeviceProfile :=
  { profile with
    configPath := configURL applicationSupportURL profile.id
    keychainAccount := profile.id }

variable {applicationSupportURL : String} {profile : DeviceProfile}

@[simp] theorem withStorageFields_id :
    (profile.withStorageFields applicationSupportURL).id = profile.id := rfl

@[simp] theorem withStorageFields_network :
    (profile.withStorageFields applicationSupportURL).network = profile.network := rfl

@[simp] theorem withStorageFields_withStorageFields :
    (profile.withStorageFields applicationSupportURL).withStorageFields applicationSupportURL =
      profile.withStorageFields applicationSupportURL := rfl

theorem make_withStorageFields {id : ProfileID} {configured : ConfiguredDeviceState}
    {discovered : Option DiscoveredDevice} {existing : Option DeviceProfile} {date : Date} :
    (make p id configured discovered applicationSupportURL existing date).withStorageFields
      applicationSupportURL = make p id configured discovered applicationSupportURL existing date := rfl

end DeviceProfile

end TimeCapsule.App
