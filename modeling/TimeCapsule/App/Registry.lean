import Mathlib.Data.List.Pairwise
import Mathlib.Data.List.Perm.Basic
import Mathlib.Logic.Relation
import TimeCapsule.App.Profile

/-!
# The device registry

The repository of saved devices: its list, the file it is kept in, and the directories of the devices.
Every file operation may fail.
-/

namespace TimeCapsule.App

inductive DeviceRegistryError where
  | corruptRegistry (message : String)
  | profileNotFound (id : ProfileID)
  | duplicateProfile (field value : String) (conflictingProfileID : ProfileID)
  | io (message : String)
deriving DecidableEq, Repr

/-- The files of a directory. -/
abbrev Directory := List (String × String)

/-- How the file operations of one call end, and what the clock and the random numbers give. -/
structure Luck where
  now : Date
  uuid : String
  createDevices : Except String Unit
  createConfig : Except String Unit
  createStaging : Except String Unit
  stage : Except String Unit
  createSupport : Except String Unit
  encode : Except String Unit
  write : Except String Unit
  restore : Except String Unit
  remove : Except String Unit

/-- `DeviceRegistryRepository` with what is on the disk: the list last written to `devices.json`, or
loaded from it, and directories by their paths. -/
structure Registry where
  applicationSupportURL : String
  profiles : List DeviceProfile
  file : List DeviceProfile
  directories : String → Option Directory

namespace Registry

variable (p : Platform)

/-! ## Files -/

def devicesDirectoryURL (r : Registry) : String := r.applicationSupportURL ++ "/Devices"

/-- The directory that `configURL` is in. -/
def configDirectory (r : Registry) (id : ProfileID) : String :=
  DeviceProfile.configDirectory r.applicationSupportURL id

def createDirectory (path : String) (r : Registry) : Registry :=
  { r with directories := fun path' =>
      if path' = path ∧ (r.directories path).isNone then some [] else r.directories path' }

/-- A directory is at another place. -/
def moved (source target : String) (directory : Directory) (r : Registry) : Registry :=
  { r with directories := fun path =>
      if path = target then some directory
      else if path = source then none
      else r.directories path }

/-- `moveItem(at:to:)`, which never replaces anything. -/
def moveItem (source target : String) (outcome : Except String Unit) (r : Registry) :
    Registry × Except DeviceRegistryError Unit :=
  match outcome with
  | .error message => (r, .error (.io message))
  | .ok () =>
      match r.directories source with
      | none => (r, .error (.io "no such file"))
      | some directory =>
          if (r.directories target).isSome then (r, .error (.io "file exists"))
          else (r.moved source target directory, .ok ())

def removeItem (path : String) (r : Registry) : Registry :=
  { r with directories := fun path' => if path' = path then none else r.directories path' }

/-- The file is replaced as a whole, or it stays as it is. -/
def persist (profiles : List DeviceProfile) (luck : Luck) (r : Registry) :
    Registry × Except DeviceRegistryError Unit :=
  match luck.createSupport, luck.encode, luck.write with
  | .error message, _, _ => (r, .error (.io message))
  | _, .error message, _ => (r, .error (.io message))
  | _, _, .error message => (r, .error (.io message))
  | .ok (), .ok (), .ok () =>
      ({ r with file := profiles.map (·.withStorageFields r.applicationSupportURL) }, .ok ())

/-- The list is written, and if that has worked it is the list from now on. -/
def commit (profiles : List DeviceProfile) (luck : Luck) (r : Registry) :
    Registry × Except DeviceRegistryError Unit :=
  match r.persist profiles luck with
  | (r, .ok ()) => ({ r with profiles := profiles }, .ok ())
  | (r, .error e) => (r, .error e)

def createDirectories (id : ProfileID) (luck : Luck) (r : Registry) :
    Registry × Except DeviceRegistryError Unit :=
  match luck.createDevices with
  | .error message => (r, .error (.io message))
  | .ok () =>
      let r := r.createDirectory r.devicesDirectoryURL
      match luck.createConfig with
      | .error message => (r, .error (.io message))
      | .ok () => (r.createDirectory (r.configDirectory id), .ok ())

/-- `sorted`, the newest profile first. -/
def sorted (profiles : List DeviceProfile) : List DeviceProfile :=
  profiles.mergeSort fun left right => right.updatedAt ≤ left.updatedAt

/-! ## Loading -/

/-- A deploy that was under way when the app ended. -/
def interruptedDeployState (interruptedAt : Date) (deployState : DeviceDeployStateSnapshot) :
    DeviceDeployStateSnapshot :=
  { deployState with
    updatedAt := interruptedAt
    finishedAt := some interruptedAt
    status := .interrupted
    summary := ""
    errorCode := some "operation_interrupted"
    errorMessage := none }

/-- The runtime state after an interruption, with what was known of the installation. -/
def interruptedRuntimeState (stage payloadFamily : Option String) (verified : Option Bool)
    (recovery : Option DeviceRecoverySnapshot) : DeviceRuntimeStateSnapshot where
  state := .installInterrupted
  source := .appRecovery
  stage := stage
  payloadFamily := payloadFamily
  verified := verified
  summary := ""
  errorCode := some "operation_interrupted"
  errorMessage := none
  recovery := recovery

def profileWithInterruptedRuntimeState (now : Date) (profile : DeviceProfile) : DeviceProfile :=
  let deploying := profile.lastDeployState.filter fun deploy => deploy.status.isInProgress
  let installing := profile.runtimeState.filter fun runtime => runtime.state = .installing
  if deploying.isNone && installing.isNone then profile
  else
    { profile with
      lastDeployState := (deploying.map (interruptedDeployState now)).orElse fun _ =>
        profile.lastDeployState
      runtimeState :=
        match installing, deploying with
        | some runtime, _ => some (interruptedRuntimeState runtime.stage runtime.payloadFamily
            runtime.verified runtime.recovery)
        | none, some deploy => some (interruptedRuntimeState deploy.stage deploy.payloadFamily
            deploy.verified deploy.recovery)
        | none, none => profile.runtimeState
      updatedAt := now }

/-- `load`, from what the file decodes to, if it is there. -/
def load (decoded : Except DeviceRegistryError (Option (List DeviceProfile))) (luck : Luck)
    (r : Registry) : Registry × Except DeviceRegistryError Unit :=
  match luck.createDevices, decoded with
  | .error message, _ => ({ r with profiles := [] }, .error (.io message))
  | .ok (), .error e => ({ r.createDirectory r.devicesDirectoryURL with profiles := [] }, .error e)
  | .ok (), .ok none =>
      ({ r.createDirectory r.devicesDirectoryURL with profiles := [], file := [] }, .ok ())
  | .ok (), .ok (some decoded) =>
      let loadedProfiles := sorted (decoded.map (·.withStorageFields r.applicationSupportURL))
      let profiles := sorted (loadedProfiles.map (profileWithInterruptedRuntimeState luck.now))
      let r :=
        { r.createDirectory r.devicesDirectoryURL with profiles := profiles, file := loadedProfiles }
      if profiles = loadedProfiles then (r, .ok ())
      else
        match r.persist profiles luck with
        | (r, .ok ()) => (r, .ok ())
        | (r, .error e) => ({ r with profiles := [] }, .error e)

/-! ## Conflicts -/

def normalizedBonjourFullname (value : Option String) : Option String := do
  let normalized := p.lowercased (trimmingCharacters p.whitespacesAndNewlines (← value))
  if normalized.isEmpty then none else some normalized

/-- A profile other than the given one that has a value of a field. -/
def conflicting (profileID : ProfileID) (has : DeviceProfile → Bool) (r : Registry) :
    Option DeviceProfile :=
  r.profiles.find? fun profile => profile.id ≠ profileID && has profile

/-- Another profile has the value of a field already. -/
def fieldConflict (field value : String) (profileID : ProfileID) (has : DeviceProfile → Bool)
    (r : Registry) : Option DeviceRegistryError :=
  (r.conflicting profileID has).map fun existing => .duplicateProfile field value existing.id

def addressConflict (profile : DeviceProfile) (profileID : ProfileID) (r : Registry) :
    Option DeviceRegistryError :=
  let keys := profile.network.matchableAddressKeys p
  let overlap (existing : DeviceProfile) : Option String :=
    keys.find? fun key => (existing.network.matchableAddressKeys p).contains key
  (r.conflicting profileID fun existing => (overlap existing).isSome).map fun existing =>
    let key := (overlap existing).getD ""
    let address := profile.network.addresses.find? fun address => address.identityKey p = key
    .duplicateProfile "address" ((address.map (·.value)).getD key) existing.id

def duplicateConflict (profile : DeviceProfile) (profileID : ProfileID) (r : Registry) :
    Option DeviceRegistryError :=
  let fullname := (normalizedBonjourFullname p profile.bonjourFullname).bind fun normalizedFullname =>
    r.fieldConflict "Bonjour fullname" normalizedFullname profileID fun existing =>
      normalizedBonjourFullname p existing.bonjourFullname == some normalizedFullname
  let normalizedHost := profile.normalizedHost p
  let host :=
    if normalizedHost.isEmpty then none
    else r.fieldConflict "host"
      ((DeviceEndpointPolicy.hostComponent p (some profile.host)).getD normalizedHost) profileID
      fun existing => existing.normalizedHost p == normalizedHost
  let normalizedHostname := profile.network.normalizedHostname p
  let hostname :=
    if normalizedHostname.isEmpty then none
    else r.fieldConflict "hostname" normalizedHostname profileID
      fun existing => existing.network.normalizedHostname p == normalizedHostname
  fullname.or (host.or (hostname.or (r.addressConflict p profile profileID)))

/-! ## Operations -/

def saveProfileMergingDuplicates (profile : DeviceProfile) (luck : Luck) (r : Registry) :
    Registry × Except DeviceRegistryError DeviceProfile :=
  let storedProfile := profile.withStorageFields r.applicationSupportURL
  match r.createDirectories storedProfile.id luck with
  | (r, .error e) => (r, .error e)
  | (r, .ok ()) =>
      let updated := r.profiles.filter fun existing =>
        !existing.matches p storedProfile && existing.id ≠ storedProfile.id
      let (r, outcome) := r.commit (sorted (updated ++ [storedProfile])) luck
      (r, outcome.map fun _ => storedProfile)

def matchingProfile (configuredHost : String) (discoveredDevice : Option DiscoveredDevice)
    (r : Registry) : Option DeviceProfile :=
  let identity := DeviceNetworkIdentity.make p configuredHost discoveredDevice none
  r.profiles.find? fun profile => profile.network.matches p identity

def makeConfiguredDeviceProfile (configuredDevice : ConfiguredDeviceState)
    (discoveredDevice : Option DiscoveredDevice) (passwordState : DevicePasswordState)
    (preferredID : ProfileID) (existingProfileID : Option ProfileID) (luck : Luck) (r : Registry) :
    DeviceProfile :=
  let existing :=
    (existingProfileID.bind fun id => r.profiles.find? fun profile => profile.id = id).orElse fun _ =>
      r.matchingProfile p configuredDevice.host discoveredDevice
  { DeviceProfile.make p preferredID configuredDevice discoveredDevice r.applicationSupportURL existing
      luck.now with passwordState := passwordState }

def saveConfiguredDevice (configuredDevice : ConfiguredDeviceState)
    (discoveredDevice : Option DiscoveredDevice) (passwordState : DevicePasswordState)
    (preferredID : ProfileID) (luck : Luck) (r : Registry) :
    Registry × Except DeviceRegistryError DeviceProfile :=
  r.saveProfileMergingDuplicates p
    (r.makeConfiguredDeviceProfile p configuredDevice discoveredDevice passwordState preferredID none
      luck) luck

def updateProfile (profile : DeviceProfile) (luck : Luck) (r : Registry) :
    Registry × Except DeviceRegistryError DeviceProfile :=
  let storedProfile := profile.withStorageFields r.applicationSupportURL
  match r.profiles.findIdx? fun existing => existing.id = storedProfile.id with
  | none => (r, .error (.profileNotFound profile.id))
  | some index =>
      match r.duplicateConflict p storedProfile storedProfile.id with
      | some conflict => (r, .error conflict)
      | none =>
          let updated := { storedProfile with updatedAt := luck.now }
          match r.createDirectories updated.id luck with
          | (r, .error e) => (r, .error e)
          | (r, .ok ()) =>
              let (r, outcome) := r.commit (sorted (r.profiles.set index updated)) luck
              (r, outcome.map fun _ => updated)

/-- Where a directory is put until the list without its device has been written. -/
def stagedDirectory (id : ProfileID) (luck : Luck) (r : Registry) : String :=
  r.devicesDirectoryURL ++ "/.Staging/" ++ id ++ "-delete-" ++ luck.uuid

/-- The directory as it was put away, if there was one.  `inside` tells whether a path, once it is
standardized, is below the devices directory. -/
def stageConfigDirectoryDelete (inside : String → Bool) (id : ProfileID) (luck : Luck) (r : Registry) :
    Registry × Except DeviceRegistryError (Option String) :=
  if (r.directories (r.configDirectory id)).isNone then (r, .ok none)
  else if !inside (r.configDirectory id) then
    (r, .error (.io "Refusing to delete profile artifacts outside the devices directory."))
  else
    match luck.createStaging with
    | .error message => (r, .error (.io message))
    | .ok () =>
        let stagedDirectory := r.stagedDirectory id luck
        let r := r.createDirectory (r.devicesDirectoryURL ++ "/.Staging")
        match r.moveItem (r.configDirectory id) stagedDirectory luck.stage with
        | (r, .error e) => (r, .error e)
        | (r, .ok ()) => (r, .ok (some stagedDirectory))

def restoreStagedConfigDirectory (staged : Option String) (id : ProfileID) (luck : Luck)
    (r : Registry) : Registry :=
  match staged with
  | none => r
  | some staged =>
      if (r.directories staged).isNone then r
      else (r.moveItem staged (r.configDirectory id) luck.restore).1

def removeStagedConfigDirectory (staged : Option String) (luck : Luck) (r : Registry) : Registry :=
  match staged, luck.remove with
  | some staged, .ok () => r.removeItem staged
  | _, _ => r

def delete (inside : String → Bool) (profile : DeviceProfile) (luck : Luck) (r : Registry) :
    Registry × Except DeviceRegistryError Unit :=
  let storedProfile := profile.withStorageFields r.applicationSupportURL
  let updatedProfiles := r.profiles.filter fun existing => existing.id ≠ storedProfile.id
  match r.stageConfigDirectoryDelete inside storedProfile.id luck with
  | (r, .error e) => (r, .error e)
  | (r, .ok staged) =>
      match r.commit updatedProfiles luck with
      | (r, .error e) => (r.restoreStagedConfigDirectory staged storedProfile.id luck, .error e)
      | (r, .ok ()) => (r.removeStagedConfigDirectory staged luck, .ok ())

/-- The background updates: nothing is done for a profile that is not there, or that the update would
leave as it is. -/
def mutate (profileID : ProfileID) (skip : DeviceProfile → Bool)
    (change : DeviceProfile → DeviceProfile) (luck : Luck) (r : Registry) :
    Registry × Except DeviceRegistryError Bool :=
  match r.profiles.findIdx? fun profile => profile.id = profileID with
  | none => (r, .ok false)
  | some index =>
      if (r.profiles[index]?).any skip then (r, .ok false)
      else
        let updatedProfiles := r.profiles.modify index fun profile =>
          { change profile with updatedAt := luck.now }
        let (r, outcome) := r.commit updatedProfiles luck
        (r, outcome.map fun _ => true)

def updatePasswordState (state : DevicePasswordState) (profileID : ProfileID) :=
  mutate profileID (fun profile => profile.passwordState = state)
    fun profile => { profile with passwordState := state }

def updateCheckup (snapshot : DeviceCheckupSnapshot) (runtimeState : Option DeviceRuntimeStateSnapshot)
    (profileID : ProfileID) :=
  mutate profileID (fun _ => false) fun profile =>
    { profile with
      lastCheckup := some snapshot
      runtimeState := runtimeState.orElse fun _ => profile.runtimeState }

def clearCheckup (profileID : ProfileID) :=
  mutate profileID (fun profile => profile.lastCheckup.isNone)
    fun profile => { profile with lastCheckup := none }

def updateDeployState (snapshot : DeviceDeployStateSnapshot) (profileID : ProfileID) :=
  mutate profileID (fun _ => false) fun profile => { profile with lastDeployState := some snapshot }

def updateInstallOperationState (deployState : DeviceDeployStateSnapshot)
    (runtimeState : DeviceRuntimeStateSnapshot) (rsyncEnabled : Option Bool) (profileID : ProfileID) :=
  mutate profileID (fun _ => false) fun profile =>
    { profile with
      lastDeployState := some deployState
      runtimeState := some runtimeState
      settings := { profile.settings with
        rsyncEnabled := rsyncEnabled.getD profile.settings.rsyncEnabled } }

def updateRuntimeState (snapshot : DeviceRuntimeStateSnapshot) (profileID : ProfileID) :=
  mutate profileID (fun _ => false) fun profile => { profile with runtimeState := some snapshot }

def clearInstallState (profileID : ProfileID) :=
  mutate profileID
    (fun profile => profile.lastDeployState.isNone && profile.runtimeState.isNone &&
      profile.lastCheckup.isNone)
    fun profile => { profile with lastDeployState := none, runtimeState := none, lastCheckup := none }

inductive Operation where
  | saveProfileMergingDuplicates (profile : DeviceProfile)
  | saveConfiguredDevice (configuredDevice : ConfiguredDeviceState)
      (discoveredDevice : Option DiscoveredDevice) (passwordState : DevicePasswordState)
      (preferredID : ProfileID)
  | updateProfile (profile : DeviceProfile)
  | delete (profile : DeviceProfile)
  | updatePasswordState (state : DevicePasswordState) (profileID : ProfileID)
  | updateCheckup (snapshot : DeviceCheckupSnapshot) (runtimeState : Option DeviceRuntimeStateSnapshot)
      (profileID : ProfileID)
  | clearCheckup (profileID : ProfileID)
  | updateDeployState (snapshot : DeviceDeployStateSnapshot) (profileID : ProfileID)
  | updateInstallOperationState (deployState : DeviceDeployStateSnapshot)
      (runtimeState : DeviceRuntimeStateSnapshot) (rsyncEnabled : Option Bool) (profileID : ProfileID)
  | updateRuntimeState (snapshot : DeviceRuntimeStateSnapshot) (profileID : ProfileID)
  | clearInstallState (profileID : ProfileID)

/-- The registry after an operation, and whether it has thrown. -/
def perform (inside : String → Bool) (luck : Luck) (r : Registry) :
    Operation → Registry × Except DeviceRegistryError Unit
  | .saveProfileMergingDuplicates profile =>
      (r.saveProfileMergingDuplicates p profile luck).map id fun outcome => outcome.map fun _ => ()
  | .saveConfiguredDevice configuredDevice discoveredDevice passwordState preferredID =>
      (r.saveConfiguredDevice p configuredDevice discoveredDevice passwordState preferredID luck).map id
        fun outcome => outcome.map fun _ => ()
  | .updateProfile profile =>
      (r.updateProfile p profile luck).map id fun outcome => outcome.map fun _ => ()
  | .delete profile => r.delete inside profile luck
  | .updatePasswordState state profileID =>
      (updatePasswordState state profileID luck r).map id fun outcome => outcome.map fun _ => ()
  | .updateCheckup snapshot runtimeState profileID =>
      (updateCheckup snapshot runtimeState profileID luck r).map id fun outcome => outcome.map fun _ => ()
  | .clearCheckup profileID =>
      (clearCheckup profileID luck r).map id fun outcome => outcome.map fun _ => ()
  | .updateDeployState snapshot profileID =>
      (updateDeployState snapshot profileID luck r).map id fun outcome => outcome.map fun _ => ()
  | .updateInstallOperationState deployState runtimeState rsyncEnabled profileID =>
      (updateInstallOperationState deployState runtimeState rsyncEnabled profileID luck r).map id
        fun outcome => outcome.map fun _ => ()
  | .updateRuntimeState snapshot profileID =>
      (updateRuntimeState snapshot profileID luck r).map id fun outcome => outcome.map fun _ => ()
  | .clearInstallState profileID =>
      (clearInstallState profileID luck r).map id fun outcome => outcome.map fun _ => ()

def Step (inside : String → Bool) (r r' : Registry) : Prop :=
  ∃ luck operation, r' = (r.perform p inside luck operation).1

end Registry

end TimeCapsule.App
