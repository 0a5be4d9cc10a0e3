import Mathlib.Data.List.Nodup
import TimeCapsule.App.Distinct
import TimeCapsule.Lib.Fields

/-!
# Edits of saved devices

`DeviceProfilePersistenceService`: an edit makes a whole profile from what the registry had when it was
begun, and stores it later.  Background updates of the same profile come in between.
-/

namespace TimeCapsule.App

open Fields

structure DeviceProfileEditableFields where
  displayName : String
  settings : DeviceProfileSettings
deriving DecidableEq, Repr

structure ConfiguredDeviceProfileOverrides where
  displayName : Option String
  settings : Option DeviceProfileSettings
deriving DecidableEq, Repr

/-- The part of a draft that the profile is made of. -/
structure ConfigureProfileDraft where
  profileID : ProfileID
  existingProfileID : Option ProfileID
  discoveredDevice : Option DiscoveredDevice

/-- How the steps of an edit end, those of the registry included. -/
structure EditLuck extends Luck where
  /-- The keychain cannot be read, which is not the same as having no password. -/
  readPassword : Except String Unit
  savePassword : Except String Unit
  restorePassword : Except String Unit
  commitStagedConfig : Except String Unit

/-- The registry and the keychain. -/
structure SavedDevices where
  registry : Registry
  passwords : String → Option String

namespace SavedDevices

variable (p : Platform)

def setPassword (account : String) (password : Option String) (s : SavedDevices) : SavedDevices :=
  { s with passwords := fun account' => if account' = account then password else s.passwords account' }

/-- The password is read, so that it can be put back, and replaced. -/
def savePassword (password account : String) (luck : EditLuck) (s : SavedDevices) :
    Except DeviceRegistryError SavedDevices :=
  match luck.readPassword, luck.savePassword with
  | .error message, _ => .error (.io message)
  | .ok (), .error message => .error (.io message)
  | .ok (), .ok () => .ok (s.setPassword account (some password))

def rollbackPassword (before : Option String) (account : String) (luck : EditLuck)
    (s : SavedDevices) : SavedDevices :=
  match luck.restorePassword with
  | .error _ => s
  | .ok () => s.setPassword account before

/-- The staged configuration takes its place, and then the profile is stored; the password is put back
when one of them fails. -/
def commitProfile (account : String) (before : Option (Option String)) (staged : Bool)
    (store : Registry → Registry × Except DeviceRegistryError DeviceProfile) (luck : EditLuck)
    (s : SavedDevices) : SavedDevices × Except DeviceRegistryError DeviceProfile :=
  let rollback (s : SavedDevices) : SavedDevices :=
    match before with
    | none => s
    | some before => s.rollbackPassword before account luck
  match staged, luck.commitStagedConfig with
  | true, .error message => (rollback s, .error (.io message))
  | _, _ =>
      let (registry, outcome) := store s.registry
      let s := { s with registry := registry }
      match outcome with
      | .error e => (rollback s, .error e)
      | .ok saved => (s, .ok saved)

/-- The profile with the fields of the editor. -/
def editedProfile (profile : DeviceProfile) (fields : DeviceProfileEditableFields)
    (replacementPassword : Option String) : DeviceProfile :=
  { profile with
    displayName := fields.displayName
    settings := fields.settings
    passwordState := if replacementPassword.isSome then .available else profile.passwordState }

def saveProfileEdits (profile : DeviceProfile) (fields : DeviceProfileEditableFields)
    (replacementPassword : Option String) (staged : Bool) (luck : EditLuck) (s : SavedDevices) :
    SavedDevices × Except DeviceRegistryError DeviceProfile :=
  let updated := editedProfile profile fields replacementPassword
  let store := fun r : Registry => r.updateProfile p updated luck.toLuck
  match replacementPassword with
  | none => s.commitProfile profile.keychainAccount none staged store luck
  | some password =>
      match s.savePassword password profile.keychainAccount luck with
      | .error e => (s, .error e)
      | .ok s' =>
          s'.commitProfile profile.keychainAccount (some (s.passwords profile.keychainAccount)) staged
            store luck

def withOverrides (overrides : ConfiguredDeviceProfileOverrides) (profile : DeviceProfile) :
    DeviceProfile :=
  { profile with
    displayName := overrides.displayName.getD profile.displayName
    settings := overrides.settings.getD profile.settings }

/-- The first part of `commitConfiguredProfile`: the profile that a configuration makes. -/
def configuredProfile (configuredDevice : ConfiguredDeviceState) (draft : ConfigureProfileDraft)
    (overrides : ConfiguredDeviceProfileOverrides) (luck : EditLuck) (s : SavedDevices) :
    DeviceProfile :=
  withOverrides overrides (s.registry.makeConfiguredDeviceProfile p configuredDevice
    draft.discoveredDevice .available draft.profileID draft.existingProfileID luck.toLuck)

/-- The rest of `commitConfiguredProfile`. -/
def commitConfiguredProfile (profile : DeviceProfile) (password : String) (luck : EditLuck)
    (s : SavedDevices) : SavedDevices × Except DeviceRegistryError DeviceProfile :=
  match s.savePassword password profile.keychainAccount luck with
  | .error e => (s, .error e)
  | .ok s' =>
      s'.commitProfile profile.keychainAccount (some (s.passwords profile.keychainAccount)) true
        (fun r => r.saveProfileMergingDuplicates p profile luck.toLuck) luck

end SavedDevices

/-! ## Runs of an edit -/

/-- An edit: with the editor, or by a new configuration. -/
inductive Edit where
  | saveProfileEdits (id : ProfileID) (fields : DeviceProfileEditableFields)
      (replacementPassword : Option String) (staged : Bool)
  | commitConfiguredProfile (configuredDevice : ConfiguredDeviceState) (draft : ConfigureProfileDraft)
      (overrides : ConfiguredDeviceProfileOverrides) (password : String)

def Registry.profile (id : ProfileID) (r : Registry) : Option DeviceProfile :=
  r.profiles.find? fun profile => profile.id = id

namespace Edit

variable (p : Platform)

/-- The saved profile that the edit is made from. -/
def snapshot (r : Registry) : Edit → Option DeviceProfile
  | .saveProfileEdits id _ _ _ => r.profile id
  | .commitConfiguredProfile configuredDevice draft _ _ =>
      (draft.existingProfileID.bind r.profile).orElse fun _ =>
        r.matchingProfile p configuredDevice.host draft.discoveredDevice

/-- What the edit makes of the profile it is made from. -/
def apply (applicationSupportURL : String) (now : Date) (profile : DeviceProfile) :
    Edit → DeviceProfile
  | .saveProfileEdits _ fields replacementPassword _ =>
      SavedDevices.editedProfile profile fields replacementPassword
  | .commitConfiguredProfile configuredDevice draft overrides _ =>
      SavedDevices.withOverrides overrides
        { DeviceProfile.make p draft.profileID configuredDevice draft.discoveredDevice
            applicationSupportURL (some profile) now with passwordState := .available }

/-- The edit, whose first part has seen an earlier registry. -/
def commit (before : SavedDevices) (luck luck' : EditLuck) (s : SavedDevices) :
    Edit → SavedDevices × Except DeviceRegistryError DeviceProfile
  | .saveProfileEdits id fields replacementPassword staged =>
      match before.registry.profile id with
      | none => (s, .error (.profileNotFound id))
      | some profile => s.saveProfileEdits p profile fields replacementPassword staged luck'
  | .commitConfiguredProfile configuredDevice draft overrides password =>
      s.commitConfiguredProfile p (before.configuredProfile p configuredDevice draft overrides luck)
        password luck'

end Edit

/-! ## Fields -/

/-- The fields that background updates set. -/
inductive StateField where
  | lastCheckup
  | lastDeployState
  | runtimeState
  | passwordState
  | rsyncEnabled
deriving DecidableEq, Repr

namespace StateField

def Value : StateField → Type
  | lastCheckup => Option DeviceCheckupSnapshot
  | lastDeployState => Option DeviceDeployStateSnapshot
  | runtimeState => Option DeviceRuntimeStateSnapshot
  | passwordState => DevicePasswordState
  | rsyncEnabled => Bool

def value : (field : StateField) → DeviceProfile → field.Value
  | lastCheckup, profile => profile.lastCheckup
  | lastDeployState, profile => profile.lastDeployState
  | runtimeState, profile => profile.runtimeState
  | passwordState, profile => profile.passwordState
  | rsyncEnabled, profile => profile.settings.rsyncEnabled

end StateField

/-- All other fields of a profile, but for when it was last changed. -/
def DeviceProfile.rest (profile : DeviceProfile) : DeviceProfile :=
  { profile with
    lastCheckup := none
    lastDeployState := none
    runtimeState := none
    passwordState := .unknown
    settings := { profile.settings with rsyncEnabled := false }
    updatedAt := 0 }

/-- Two profiles that differ in the time of the last change only. -/
structure Agrees (x y : DeviceProfile) : Prop where
  rest : x.rest = y.rest
  value : ∀ field : StateField, field.value x = field.value y

theorem Agrees.refl (profile : DeviceProfile) : Agrees profile profile := ⟨rfl, fun _ => rfl⟩

theorem Agrees.trans {x y z : DeviceProfile} (h : Agrees x y) (h' : Agrees y z) : Agrees x z :=
  ⟨h.rest.trans h'.rest, fun field => (h.value field).trans (h'.value field)⟩

theorem agrees_updatedAt (profile : DeviceProfile) (now : Date) :
    Agrees { profile with updatedAt := now } profile :=
  ⟨rfl, fun field => by cases field <;> rfl⟩

namespace Registry.Operation

/-- The profile that a background update is for. -/
def updates : Operation → Option ProfileID
  | updatePasswordState _ id => some id
  | updateCheckup _ _ id => some id
  | clearCheckup id => some id
  | updateDeployState _ id => some id
  | updateInstallOperationState _ _ _ id => some id
  | updateRuntimeState _ id => some id
  | clearInstallState id => some id
  | _ => none

/-- What a background update makes of a profile. -/
def change : Operation → DeviceProfile → DeviceProfile
  | updatePasswordState state _, profile => { profile with passwordState := state }
  | updateCheckup snapshot runtimeState _, profile =>
      { profile with
        lastCheckup := some snapshot
        runtimeState := runtimeState.orElse fun _ => profile.runtimeState }
  | clearCheckup _, profile => { profile with lastCheckup := none }
  | updateDeployState snapshot _, profile => { profile with lastDeployState := some snapshot }
  | updateInstallOperationState deployState runtimeState rsyncEnabled _, profile =>
      { profile with
        lastDeployState := some deployState
        runtimeState := some runtimeState
        settings := { profile.settings with
          rsyncEnabled := rsyncEnabled.getD profile.settings.rsyncEnabled } }
  | updateRuntimeState snapshot _, profile => { profile with runtimeState := some snapshot }
  | clearInstallState _, profile =>
      { profile with lastDeployState := none, runtimeState := none, lastCheckup := none }
  | _, profile => profile

def sets : Operation → StateField → Bool
  | updatePasswordState _ _, .passwordState => true
  | updateCheckup _ _ _, .lastCheckup => true
  | updateCheckup _ runtimeState _, .runtimeState => runtimeState.isSome
  | clearCheckup _, .lastCheckup => true
  | updateDeployState _ _, .lastDeployState => true
  | updateInstallOperationState _ _ _ _, .lastDeployState => true
  | updateInstallOperationState _ _ _ _, .runtimeState => true
  | updateInstallOperationState _ _ rsyncEnabled _, .rsyncEnabled => rsyncEnabled.isSome
  | updateRuntimeState _ _, .runtimeState => true
  | clearInstallState _, .lastCheckup => true
  | clearInstallState _, .lastDeployState => true
  | clearInstallState _, .runtimeState => true
  | _, _ => false

theorem sets_change (operation : Operation) :
    Sets StateField.value operation.sets operation.change := by
  constructor
  · intro field profile hset
    cases operation with
    | updateCheckup _ runtimeState _ =>
      cases runtimeState <;> cases field <;> first | rfl | simp [sets] at hset
    | updateInstallOperationState _ _ rsyncEnabled _ =>
      cases rsyncEnabled <;> cases field <;> first | rfl | simp [sets] at hset
    | _ => cases field <;> first | rfl | simp [sets] at hset
  · intro field profile profile' hset
    cases operation with
    | updateCheckup _ runtimeState _ =>
      cases runtimeState <;> cases field <;> first | rfl | simp [sets] at hset
    | updateInstallOperationState _ _ rsyncEnabled _ =>
      cases rsyncEnabled <;> cases field <;> first | rfl | simp [sets] at hset
    | _ => cases field <;> first | rfl | simp [sets] at hset

@[simp] theorem rest_change (operation : Operation) (profile : DeviceProfile) :
    (operation.change profile).rest = profile.rest := by
  cases operation <;> rfl

@[simp] theorem id_change (operation : Operation) (profile : DeviceProfile) :
    (operation.change profile).id = profile.id := by
  cases operation <;> rfl

theorem agrees_change {x y : DeviceProfile} (h : Agrees x y) (operation : Operation) :
    Agrees (operation.change x) (operation.change y) where
  rest := by simp [h.rest]
  value field := operation.sets_change.congr (h.value field)

end Registry.Operation

/-! ## Background updates -/

/-- The list can be written. -/
def Luck.commits (luck : Luck) : Bool :=
  match luck.createSupport, luck.encode, luck.write with
  | .ok (), .ok (), .ok () => true
  | _, _, _ => false

namespace Registry

variable {p : Platform} {r r' : Registry} {profile stored : DeviceProfile} {luck : Luck}
  {id : ProfileID} {inside : String → Bool} {operation : Operation}

theorem commit_of_commits (h : luck.commits = true) (profiles : List DeviceProfile) :
    (r.commit profiles luck).1.profiles = profiles := by
  obtain ⟨e, hfailed⟩ | hdone := commit_cases (r := r) luck profiles
  · rw [commit, persist] at hfailed
    rw [Luck.commits] at h
    split at h
    next hsupport hencode hwrite => simp [hsupport, hencode, hwrite] at hfailed
    next => simp at h
  · rw [hdone]

theorem commit_of_not_commits (h : luck.commits = false) (profiles : List DeviceProfile) :
    (r.commit profiles luck).1 = r ∧ ∃ e, (r.commit profiles luck).2 = .error e := by
  obtain ⟨e, hfailed⟩ | hdone := commit_cases (r := r) luck profiles
  · rw [hfailed]
    exact ⟨rfl, e, rfl⟩
  · rw [commit, persist] at hdone
    rw [Luck.commits] at h
    cases hsupport : luck.createSupport <;> cases hencode : luck.encode <;>
      cases hwrite : luck.write <;> simp [hsupport, hencode, hwrite] at h hdone

/-- No two profiles have one name. -/
def Distinct (r : Registry) : Prop := (r.profiles.map (·.id)).Nodup

theorem profile_eq_some (h : r.Distinct) :
    r.profile id = some profile ↔ profile ∈ r.profiles ∧ profile.id = id := by
  rw [Registry.profile]
  constructor
  · intro hfind
    exact ⟨List.mem_of_find?_eq_some hfind, by simpa using List.find?_some hfind⟩
  · rintro ⟨hmem, hid⟩
    cases hfind : r.profiles.find? fun profile => profile.id = id with
    | none =>
      have := List.find?_eq_none.mp hfind profile hmem
      simp [hid] at this
    | some other =>
      have hother := List.mem_of_find?_eq_some hfind
      have hotherid : other.id = id := by simpa using List.find?_some hfind
      rw [List.inj_on_of_nodup_map h hother hmem (hotherid.trans hid.symm)]

theorem map_id_modify {profiles : List DeviceProfile} {change : DeviceProfile → DeviceProfile}
    (h : ∀ profile, (change profile).id = profile.id) (index : Nat) :
    (profiles.modify index change).map (·.id) = profiles.map (·.id) := by
  apply List.ext_getElem (by simp)
  intro i hi hi'
  grind

theorem mem_modify {profiles : List DeviceProfile} (change : DeviceProfile → DeviceProfile)
    {index : Nat} (hlt : index < profiles.length) :
    change profiles[index] ∈ profiles.modify index change := by
  have hlt' : index < (profiles.modify index change).length := by simpa using hlt
  have hget : (profiles.modify index change)[index] = change profiles[index] := by
    simp
  exact hget ▸ List.getElem_mem hlt'

theorem mem_modify_of_ne {profiles : List DeviceProfile} {change : DeviceProfile → DeviceProfile}
    {index : Nat} (hlt : index < profiles.length) (hmem : profile ∈ profiles)
    (hne : profiles[index] ≠ profile) : profile ∈ profiles.modify index change := by
  obtain ⟨i, hi, rfl⟩ := List.getElem_of_mem hmem
  have hi' : i < (profiles.modify index change).length := by simpa using hi
  have hget : (profiles.modify index change)[i] = profiles[i] := by
    rw [List.getElem_modify, if_neg (by rintro rfl; exact hne rfl)]
  exact hget ▸ List.getElem_mem hi'

/-- A background update reaches the profile that it is for, if it can be written. -/
theorem profile_mutate (luck : Luck) (skip : DeviceProfile → Bool)
    {change : DeviceProfile → DeviceProfile} (target : ProfileID) (hchange : ∀ profile, (change profile).id = profile.id)
    (h : r.Distinct) (hprofile : r.profile id = some profile) :
    (mutate target skip change luck r).1.Distinct ∧
    (mutate target skip change luck r).1.profile id =
      some (if luck.commits ∧ target = id ∧ skip profile = false then
        { change profile with updatedAt := luck.now } else profile) := by
  obtain ⟨hmem, hid⟩ := (profile_eq_some h).mp hprofile
  rw [mutate]
  cases hindex : r.profiles.findIdx? fun profile => profile.id = target with
  | none =>
    have htarget : target ≠ id := by
      rintro rfl
      simpa [hid] using List.findIdx?_eq_none_iff.mp hindex profile hmem
    rw [if_neg (by simp [htarget])]
    exact ⟨h, hprofile⟩
  | some index =>
    obtain ⟨hlt, hfound⟩ := findIdx_id hindex
    have hany : (r.profiles[index]?).any skip = skip r.profiles[index] := by simp [hlt]
    dsimp only
    rw [hany]
    by_cases hskip : skip r.profiles[index] = true
    · rw [if_pos hskip, if_neg]
      · exact ⟨h, hprofile⟩
      · rintro ⟨-, rfl, hprofileskip⟩
        rw [List.inj_on_of_nodup_map h (List.getElem_mem hlt) hmem (hfound.trans hid.symm)] at hskip
        simp [hskip] at hprofileskip
    · rw [if_neg hskip]
      cases hcommits : luck.commits with
      | false =>
        obtain ⟨hsame, -⟩ := commit_of_not_commits (r := r) hcommits
          (r.profiles.modify index fun profile => { change profile with updatedAt := luck.now })
        rw [if_neg (by simp)]
        dsimp only
        rw [hsame]
        exact ⟨h, hprofile⟩
      | true =>
        have hwritten := commit_of_commits (r := r) hcommits
          (r.profiles.modify index fun profile => { change profile with updatedAt := luck.now })
        have hdistinct : ((r.profiles.modify index fun profile =>
            { change profile with updatedAt := luck.now }).map (·.id)).Nodup := by
          rw [map_id_modify (by simpa using hchange)]
          exact h
        refine ⟨by rw [Distinct, hwritten]; exact hdistinct, ?_⟩
        rw [profile_eq_some (by rw [Distinct, hwritten]; exact hdistinct), hwritten]
        by_cases htarget : target = id
        · have heq := List.inj_on_of_nodup_map h (List.getElem_mem hlt) hmem
            (hfound.trans (htarget.trans hid.symm))
          rw [heq] at hskip
          rw [if_pos ⟨rfl, htarget, by simpa using hskip⟩]
          have hchanged := mem_modify
            (fun profile => { change profile with updatedAt := luck.now }) hlt
          rw [heq] at hchanged
          exact ⟨hchanged, by simp [hchange, hid]⟩
        · rw [if_neg (by simp [htarget])]
          refine ⟨mem_modify_of_ne hlt hmem ?_, hid⟩
          intro heq
          exact htarget (hfound.symm.trans (heq ▸ hid))

theorem agrees_mutate (operation : Operation) {skip : DeviceProfile → Bool} {target : ProfileID}
    (hskip : ∀ profile, skip profile = true → Agrees profile (operation.change profile))
    (h : r.Distinct) (hprofile : r.profile id = some profile) :
    (mutate target skip operation.change luck r).1.Distinct ∧
    ∃ profile', (mutate target skip operation.change luck r).1.profile id = some profile' ∧
      Agrees profile' (if luck.commits ∧ target = id then operation.change profile else profile) := by
  obtain ⟨hdistinct, hafter⟩ := profile_mutate luck skip target operation.id_change h hprofile
  refine ⟨hdistinct, _, hafter, ?_⟩
  by_cases hreaches : luck.commits ∧ target = id
  · rw [if_pos hreaches]
    cases hskipped : skip profile with
    | true =>
      rw [if_neg (by simp)]
      exact hskip profile hskipped
    | false =>
      rw [if_pos ⟨hreaches.1, hreaches.2, rfl⟩]
      exact agrees_updatedAt _ _
  · rw [if_neg hreaches, if_neg (by tauto)]
    exact Agrees.refl _

/-- A background update does to the profile what it should, or nothing. -/
theorem agrees_perform (inside : String → Bool) (luck : Luck) {target : ProfileID} (hupdates : operation.updates = some target)
    (h : r.Distinct) (hprofile : r.profile id = some profile) :
    (r.perform p inside luck operation).1.Distinct ∧
    ∃ profile', (r.perform p inside luck operation).1.profile id = some profile' ∧
      Agrees profile' (if luck.commits ∧ target = id then operation.change profile else profile) := by
  cases operation with
  | saveProfileMergingDuplicates => simp [Operation.updates] at hupdates
  | saveConfiguredDevice => simp [Operation.updates] at hupdates
  | updateProfile => simp [Operation.updates] at hupdates
  | delete => simp [Operation.updates] at hupdates
  | updatePasswordState state profileID =>
    obtain rfl := Option.some.inj hupdates
    refine agrees_mutate (.updatePasswordState state profileID) (fun profile hsame => ?_) h hprofile
    have hstate : profile.passwordState = state := by simpa using hsame
    exact hstate ▸ Agrees.refl profile
  | clearCheckup profileID =>
    obtain rfl := Option.some.inj hupdates
    refine agrees_mutate (.clearCheckup profileID) (fun profile hnone => ?_) h hprofile
    have hcheckup := (Option.isNone_iff_eq_none.mp hnone).symm
    rw [Operation.change, hcheckup]
    exact Agrees.refl profile
  | clearInstallState profileID =>
    obtain rfl := Option.some.inj hupdates
    refine agrees_mutate (.clearInstallState profileID) (fun profile hnone => ?_) h hprofile
    simp only [Bool.and_eq_true, Option.isNone_iff_eq_none] at hnone
    obtain ⟨⟨hdeploy, hruntime⟩, hcheckup⟩ := hnone
    refine ⟨rfl, fun field => ?_⟩
    cases field with
    | lastCheckup => exact hcheckup
    | lastDeployState => exact hdeploy
    | runtimeState => exact hruntime
    | passwordState => rfl
    | rsyncEnabled => rfl
  | updateCheckup snapshot runtimeState profileID =>
    obtain rfl := Option.some.inj hupdates
    exact agrees_mutate (.updateCheckup snapshot runtimeState profileID) (by simp) h hprofile
  | updateDeployState snapshot profileID =>
    obtain rfl := Option.some.inj hupdates
    exact agrees_mutate (.updateDeployState snapshot profileID) (by simp) h hprofile
  | updateInstallOperationState deployState runtimeState rsyncEnabled profileID =>
    obtain rfl := Option.some.inj hupdates
    exact agrees_mutate (.updateInstallOperationState deployState runtimeState rsyncEnabled profileID)
      (by simp) h hprofile
  | updateRuntimeState snapshot profileID =>
    obtain rfl := Option.some.inj hupdates
    exact agrees_mutate (.updateRuntimeState snapshot profileID) (by simp) h hprofile

/-- The updates of a list, one after the other. -/
def performAll (p : Platform) (inside : String → Bool) (updates : List (Luck × Operation))
    (r : Registry) : Registry :=
  updates.foldl (fun r update => (r.perform p inside update.1 update.2).1) r

/-- The updates of a profile that are written. -/
def effective (id : ProfileID) (updates : List (Luck × Operation)) : List Operation :=
  (updates.filter fun update => update.1.commits && update.2.updates == some id).map (·.2)

/-- What updates make of a profile. -/
def changeAll (operations : List Operation) (profile : DeviceProfile) : DeviceProfile :=
  operations.foldl (fun profile operation => operation.change profile) profile

theorem agrees_changeAll {x y : DeviceProfile} (h : Agrees x y) (operations : List Operation) :
    Agrees (changeAll operations x) (changeAll operations y) := by
  induction operations generalizing x y with
  | nil => exact h
  | cons operation operations ih => exact ih (Operation.agrees_change h operation)

@[simp] theorem rest_changeAll (operations : List Operation) :
    (changeAll operations profile).rest = profile.rest := by
  induction operations generalizing profile with
  | nil => rfl
  | cons operation operations ih => exact ih.trans (operation.rest_change profile)

theorem sets_changeAll (operations : List Operation) :
    Sets StateField.value (fun field => operations.any fun operation => operation.sets field)
      (changeAll operations) :=
  sets_foldl Operation.sets_change operations

/-- After a run of background updates the profile is as the updates that were written make it. -/
theorem agrees_performAll (inside : String → Bool) {updates : List (Luck × Operation)}
    (hupdates : ∀ update ∈ updates, update.2.updates.isSome)
    (h : r.Distinct) (hprofile : r.profile id = some profile) :
    (r.performAll p inside updates).Distinct ∧
    ∃ profile', (r.performAll p inside updates).profile id = some profile' ∧
      Agrees profile' (changeAll (effective id updates) profile) := by
  induction updates generalizing r profile with
  | nil => exact ⟨h, profile, hprofile, Agrees.refl profile⟩
  | cons update updates ih =>
    obtain ⟨target, htarget⟩ := Option.isSome_iff_exists.mp (hupdates update (by simp))
    obtain ⟨hdistinct, profile', hprofile', hagrees⟩ :=
      agrees_perform (p := p) inside update.1 htarget h hprofile
    obtain ⟨hdistinct', profile'', hprofile'', hagrees'⟩ :=
      ih (fun update hmem => hupdates update (by simp [hmem])) hdistinct hprofile'
    refine ⟨hdistinct', profile'', hprofile'', hagrees'.trans ?_⟩
    have heffective : changeAll (effective id (update :: updates)) profile =
        changeAll (effective id updates)
          (if update.1.commits ∧ target = id then update.2.change profile else profile) := by
      by_cases hreaches : update.1.commits ∧ target = id
      · simp [effective, changeAll, htarget, hreaches]
      · rw [if_neg hreaches, effective, List.filter_cons, if_neg (by simpa [htarget] using hreaches),
          effective]
    rw [heffective]
    exact agrees_changeAll hagrees _

theorem applicationSupportURL_mutate {skip : DeviceProfile → Bool}
    {change : DeviceProfile → DeviceProfile} {target : ProfileID} :
    (mutate target skip change luck r).1.applicationSupportURL = r.applicationSupportURL := by
  rw [mutate]
  cases r.profiles.findIdx? fun profile => profile.id = target with
  | none => rfl
  | some index =>
    dsimp only
    split
    · rfl
    · obtain ⟨e, hfailed⟩ | hdone := commit_cases (r := r) luck
        (r.profiles.modify index fun profile => { change profile with updatedAt := luck.now })
      · rw [hfailed]
      · rw [hdone]

theorem applicationSupportURL_performAll {updates : List (Luck × Operation)}
    (hupdates : ∀ update ∈ updates, update.2.updates.isSome) :
    (r.performAll p inside updates).applicationSupportURL = r.applicationSupportURL := by
  induction updates generalizing r with
  | nil => rfl
  | cons update updates ih =>
    have hfirst : (r.perform p inside update.1 update.2).1.applicationSupportURL =
        r.applicationSupportURL := by
      have hupdate := hupdates update (by simp)
      obtain ⟨luck, operation⟩ := update
      cases operation <;> first | exact applicationSupportURL_mutate | simp [Operation.updates] at hupdate
    exact (ih fun update hmem => hupdates update (by simp [hmem])).trans hfirst

/-! ## Storing -/

theorem Distinct.sorted {profiles : List DeviceProfile} (h : (profiles.map (·.id)).Nodup) :
    ((sorted profiles).map (·.id)).Nodup :=
  ((perm_sorted profiles).map _).nodup_iff.mpr h

/-- The list has been written, if the operation has worked. -/
theorem commit_ok {profiles : List DeviceProfile} {u : Unit}
    (h : (r.commit profiles luck).2 = .ok u) : (r.commit profiles luck).1.profiles = profiles := by
  obtain ⟨e, hfailed⟩ | hdone := commit_cases (r := r) luck profiles
  · simp [hfailed] at h
  · rw [hdone]

/-- What the registry has of a profile once it is stored. -/
structure Stores (profile : DeviceProfile) (url : String) (r : Registry) : Prop where
  distinct : r.Distinct
  stored : ∃ stored, r.profile profile.id = some stored ∧
    Agrees stored (profile.withStorageFields url)

theorem stores_of_mem {url : String} (stored : DeviceProfile) (hdistinct : r.Distinct)
    (hmem : stored ∈ r.profiles)
    (hagrees : Agrees stored (profile.withStorageFields url)) : Stores profile url r := by
  refine ⟨hdistinct, stored, ?_, hagrees⟩
  rw [profile_eq_some hdistinct]
  have hid : stored.rest.id = (profile.withStorageFields url).rest.id := by rw [hagrees.rest]
  exact ⟨hmem, hid⟩

/-- The operation has gone through to the list. -/
theorem map_ok {α β : Type} {x : Except DeviceRegistryError α} {f : α → β} {b : β}
    (h : x.map f = .ok b) : ∃ a, x = .ok a := by
  cases x with
  | error e => cases h
  | ok a => exact ⟨a, rfl⟩

theorem stores_updateProfile (h : r.Distinct)
    (hsaved : (r.updateProfile p profile luck).2 = .ok stored) :
    Stores profile r.applicationSupportURL (r.updateProfile p profile luck).1 := by
  have hid : (profile.withStorageFields r.applicationSupportURL).id = profile.id := rfl
  revert hsaved
  rw [updateProfile]
  have hagrees := agrees_updatedAt (profile.withStorageFields r.applicationSupportURL) luck.now
  generalize hstorage : profile.withStorageFields r.applicationSupportURL = storedProfile at hid hagrees
  dsimp only
  cases hindex : r.profiles.findIdx? fun existing => existing.id = storedProfile.id with
  | none =>
    intro hsaved
    simp at hsaved
  | some index =>
    dsimp only
    cases hconflict : r.duplicateConflict p storedProfile storedProfile.id with
    | some conflict =>
      intro hsaved
      simp at hsaved
    | none =>
      dsimp only
      have hsame := unchanged_createDirectories (r := r) luck storedProfile.id
      obtain ⟨hlt, hfound⟩ := findIdx_id hindex
      rcases hdirectories : r.createDirectories storedProfile.id luck with ⟨r', e | ⟨⟨⟩⟩⟩
      · intro hsaved
        simp at hsaved
      · intro hsaved
        rw [hdirectories] at hsame
        obtain ⟨_, hcommit⟩ := map_ok hsaved
        have hwritten := commit_ok hcommit
        have hprofiles : r'.profiles = r.profiles := hsame.profiles
        have hnodup : ((r'.profiles.set index { storedProfile with updatedAt := luck.now }).map
            (·.id)).Nodup := by
          have hlt' : index < (r.profiles.map (·.id)).length := by simpa using hlt
          have hsameid : storedProfile.id = (r.profiles.map (·.id))[index] := by simp [hfound]
          rw [hprofiles, List.map_set]
          dsimp only
          rw [hsameid, List.set_getElem_self]
          exact h
        refine stores_of_mem { storedProfile with updatedAt := luck.now } ?_ ?_ ?_
        · rw [Distinct, hwritten]
          exact Distinct.sorted hnodup
        · rw [hwritten, mem_sorted, List.mem_iff_getElem]
          exact ⟨index, by simpa [hprofiles] using hlt, by simp⟩
        · exact hstorage ▸ hagrees

theorem stores_saveProfileMergingDuplicates (h : r.Distinct)
    (hsaved : (r.saveProfileMergingDuplicates p profile luck).2 = .ok stored) :
    Stores profile r.applicationSupportURL (r.saveProfileMergingDuplicates p profile luck).1 := by
  have hid : (profile.withStorageFields r.applicationSupportURL).id = profile.id := rfl
  revert hsaved
  rw [saveProfileMergingDuplicates]
  have hagrees := Agrees.refl (profile.withStorageFields r.applicationSupportURL)
  generalize hstorage : profile.withStorageFields r.applicationSupportURL = storedProfile at hid hagrees
  dsimp only
  have hsame := unchanged_createDirectories (r := r) luck storedProfile.id
  rcases hdirectories : r.createDirectories storedProfile.id luck with ⟨r', e | ⟨⟨⟩⟩⟩
  · intro hsaved
    simp at hsaved
  · intro hsaved
    rw [hdirectories] at hsame
    obtain ⟨_, hcommit⟩ := map_ok hsaved
    have hwritten := commit_ok hcommit
    have hprofiles : r'.profiles = r.profiles := hsame.profiles
    refine stores_of_mem storedProfile ?_ ?_ (hstorage ▸ hagrees)
    · rw [Distinct, hwritten]
      apply Distinct.sorted
      rw [hprofiles, List.map_append, List.nodup_append]
      refine ⟨h.sublist (List.filter_sublist.map _), by simp, ?_⟩
      simp only [List.mem_map, List.mem_filter]
      rintro _ ⟨existing, ⟨-, hkept⟩, rfl⟩ _ ⟨_, hmem, rfl⟩
      rw [List.mem_singleton.mp hmem]
      simp only [Bool.and_eq_true, decide_eq_true_eq] at hkept
      exact hkept.2
    · rw [hwritten, mem_sorted]
      simp

end Registry

namespace SavedDevices

variable {p : Platform} {s : SavedDevices} {profile stored : DeviceProfile} {luck : EditLuck}

theorem registry_rollbackPassword (before : Option String) (account : String) :
    (s.rollbackPassword before account luck).registry = s.registry := by
  rw [rollbackPassword]
  split <;> rfl

/-- The profile has been stored, if the edit has worked. -/
theorem commitProfile_ok {account : String} {before : Option (Option String)} {staged : Bool}
    {store : Registry → Registry × Except DeviceRegistryError DeviceProfile}
    (h : (s.commitProfile account before staged store luck).2 = .ok stored) :
    (store s.registry).2 = .ok stored ∧
      (s.commitProfile account before staged store luck).1.registry = (store s.registry).1 := by
  revert h
  unfold commitProfile
  rcases hstore : store s.registry with ⟨registry, e | saved⟩ <;> cases staged <;>
    cases luck.commitStagedConfig <;> simp

theorem savePassword_ok {password account : String} {s' : SavedDevices}
    (h : s.savePassword password account luck = .ok s') : s'.registry = s.registry := by
  rw [savePassword] at h
  split at h
  next => cases h
  next => cases h
  next =>
    obtain rfl := Except.ok.inj h
    rfl

theorem stores_saveProfileEdits {fields : DeviceProfileEditableFields}
    {replacementPassword : Option String} {staged : Bool} (h : s.registry.Distinct)
    (hsaved : (s.saveProfileEdits p profile fields replacementPassword staged luck).2 = .ok stored) :
    Registry.Stores (editedProfile profile fields replacementPassword)
      s.registry.applicationSupportURL
      (s.saveProfileEdits p profile fields replacementPassword staged luck).1.registry := by
  revert hsaved
  unfold saveProfileEdits
  cases replacementPassword with
  | none =>
    intro hsaved
    obtain ⟨hupdated, hregistry⟩ := commitProfile_ok hsaved
    exact hregistry ▸ Registry.stores_updateProfile h hupdated
  | some password =>
    dsimp only
    cases hpassword : s.savePassword password profile.keychainAccount luck with
    | error e =>
      intro hsaved
      simp at hsaved
    | ok s' =>
      intro hsaved
      obtain ⟨hupdated, hregistry⟩ := commitProfile_ok hsaved
      rw [savePassword_ok hpassword] at hupdated hregistry
      exact hregistry ▸ Registry.stores_updateProfile h hupdated

theorem stores_commitConfiguredProfile {password : String} (h : s.registry.Distinct)
    (hsaved : (s.commitConfiguredProfile p profile password luck).2 = .ok stored) :
    Registry.Stores profile s.registry.applicationSupportURL
      (s.commitConfiguredProfile p profile password luck).1.registry := by
  revert hsaved
  unfold commitConfiguredProfile
  cases hpassword : s.savePassword password profile.keychainAccount luck with
  | error e =>
    intro hsaved
    simp at hsaved
  | ok s' =>
    intro hsaved
    obtain ⟨hupdated, hregistry⟩ := commitProfile_ok hsaved
    rw [savePassword_ok hpassword] at hupdated hregistry
    exact hregistry ▸ Registry.stores_saveProfileMergingDuplicates h hupdated

end SavedDevices

namespace Edit

variable {p : Platform} {edit : Edit} {s s' : SavedDevices} {snapshot stored : DeviceProfile}
  {luck luck' : EditLuck} {url : String} {now : Date}

/-- The fields that an edit sets itself. -/
def sets : Edit → StateField → Bool
  | .saveProfileEdits _ _ replacementPassword _, .passwordState => replacementPassword.isSome
  | .saveProfileEdits _ _ _ _, .rsyncEnabled => true
  | .commitConfiguredProfile _ _ _ _, .passwordState => true
  | .commitConfiguredProfile _ _ overrides _, .rsyncEnabled => overrides.settings.isSome
  | _, _ => false

theorem value_apply {field : StateField} (h : edit.sets field = false) (profile : DeviceProfile) :
    field.value (edit.apply p url now profile) = field.value profile := by
  cases edit with
  | saveProfileEdits id fields replacementPassword staged =>
    cases replacementPassword <;> cases field <;> first | rfl | simp [sets] at h
  | commitConfiguredProfile configuredDevice draft overrides password =>
    obtain ⟨displayName, _ | settings⟩ := overrides <;> cases field <;> first | rfl | simp [sets] at h

theorem id_apply : (edit.apply p url now snapshot).id = snapshot.id := by
  cases edit <;> rfl

/-- The snapshot is a profile of the registry. -/
theorem profile_snapshot (h : s.registry.Distinct)
    (hsnapshot : edit.snapshot p s.registry = some snapshot) :
    s.registry.profile snapshot.id = some snapshot := by
  rw [Registry.profile_eq_some h]
  refine ⟨?_, rfl⟩
  cases edit with
  | saveProfileEdits id fields replacementPassword staged => exact List.mem_of_find?_eq_some hsnapshot
  | commitConfiguredProfile configuredDevice draft overrides password =>
    rw [Edit.snapshot] at hsnapshot
    cases hexisting : draft.existingProfileID.bind s.registry.profile with
    | some existing =>
      rw [hexisting] at hsnapshot
      obtain rfl := Option.some.inj hsnapshot
      obtain ⟨id, -, hid⟩ := Option.bind_eq_some_iff.mp hexisting
      exact List.mem_of_find?_eq_some hid
    | none =>
      rw [hexisting] at hsnapshot
      exact List.mem_of_find?_eq_some hsnapshot

/-- What an edit makes of the registry is made of the snapshot. -/
theorem configuredProfile_eq {configuredDevice : ConfiguredDeviceState} {draft : ConfigureProfileDraft}
    {overrides : ConfiguredDeviceProfileOverrides} {password : String}
    (hsnapshot : (Edit.commitConfiguredProfile configuredDevice draft overrides password).snapshot p
      s.registry = some snapshot) :
    s.configuredProfile p configuredDevice draft overrides luck =
      (Edit.commitConfiguredProfile configuredDevice draft overrides password).apply p
        s.registry.applicationSupportURL luck.now snapshot :=
  congrArg (fun existing => SavedDevices.withOverrides overrides
    { DeviceProfile.make p draft.profileID configuredDevice draft.discoveredDevice
        s.registry.applicationSupportURL existing luck.now with passwordState := .available }) hsnapshot

/-- An edit that works stores what it makes of its snapshot. -/
theorem stores_commit (hsnapshot : edit.snapshot p s.registry = some snapshot)
    (h : s'.registry.Distinct) (hcommit : (edit.commit p s luck luck' s').2 = .ok stored) :
    Registry.Stores (edit.apply p s.registry.applicationSupportURL luck.now snapshot)
      s'.registry.applicationSupportURL (edit.commit p s luck luck' s').1.registry := by
  cases edit with
  | saveProfileEdits id fields replacementPassword staged =>
    have hprofile : s.registry.profile id = some snapshot := hsnapshot
    simp only [commit, hprofile] at hcommit ⊢
    exact SavedDevices.stores_saveProfileEdits h hcommit
  | commitConfiguredProfile configuredDevice draft overrides password =>
    simp only [commit, configuredProfile_eq hsnapshot] at hcommit ⊢
    exact SavedDevices.stores_commitConfiguredProfile h hcommit

/-! ## Interleavings -/

/-- Nothing is lost: the profile that is stored in the end has the fields of the edit, and in all fields
that the edit does not set what the updates have made of them. -/
structure Merged (p : Platform) (url : String) (now : Date) (edit : Edit) (snapshot : DeviceProfile)
    (before after : List Registry.Operation) (stored : DeviceProfile) : Prop where
  edited : stored.rest = ((edit.apply p url now snapshot).withStorageFields url).rest
  set : ∀ field, edit.sets field = true → (after.any fun operation => operation.sets field) = false →
    field.value stored = field.value (edit.apply p url now snapshot)
  kept : ∀ field, edit.sets field = false →
    field.value stored = field.value (Registry.changeAll (before ++ after) snapshot)

/-- Between the snapshot and the moment when the edit is stored, every field that the edit does not set
stays as it is, or it is set again later. -/
def Timely (edit : Edit) (snapshot : DeviceProfile) (before after : List Registry.Operation) : Prop :=
  ∀ field : StateField, edit.sets field = false →
    field.value (Registry.changeAll before snapshot) = field.value snapshot ∨
    (after.any fun operation => operation.sets field) = true

theorem changeAll_append (before after : List Registry.Operation) (profile : DeviceProfile) :
    Registry.changeAll (before ++ after) profile =
      Registry.changeAll after (Registry.changeAll before profile) :=
  List.foldl_append

/-- The profile in the end, when only the updates after the edit have been made to it. -/
theorem merged_iff_timely {before after : List Registry.Operation}
    (h : Agrees stored (Registry.changeAll after
      ((edit.apply p url now snapshot).withStorageFields url))) :
    Merged p url now edit snapshot before after stored ↔ Timely edit snapshot before after := by
  have hsets := Registry.sets_changeAll after
  have hstorage (field : StateField) : field.value ((edit.apply p url now snapshot).withStorageFields url) =
      field.value (edit.apply p url now snapshot) := by
    cases field <;> rfl
  have hkept (field : StateField) (hfield : edit.sets field = false) :
      field.value stored = field.value (Registry.changeAll (before ++ after) snapshot) ↔
      field.value (Registry.changeAll before snapshot) = field.value snapshot ∨
      (after.any fun operation => operation.sets field) = true := by
    rw [h.value, changeAll_append, hsets.eq_iff, hstorage, value_apply hfield, or_comm, eq_comm]
  constructor
  · intro hmerged field hfield
    exact (hkept field hfield).mp (hmerged.kept field hfield)
  · intro htimely
    refine ⟨?_, fun field _ hafter => ?_, fun field hfield => (hkept field hfield).mpr (htimely field hfield)⟩
    · rw [h.rest, Registry.rest_changeAll]
    · rw [h.value, hsets.kept field _ hafter, hstorage]

end Edit

/-- The registry goes through updates. -/
def SavedDevices.performAll (p : Platform) (inside : String → Bool)
    (updates : List (Luck × Registry.Operation)) (s : SavedDevices) : SavedDevices :=
  { s with registry := s.registry.performAll p inside updates }

/-- An edit among background updates loses none of them exactly when it is timely. -/
theorem edit_merged_iff {p : Platform} {inside : String → Bool} {edit : Edit} {s : SavedDevices}
    {snapshot saved : DeviceProfile} {luck luck' : EditLuck}
    {before after : List (Luck × Registry.Operation)} (hdistinct : s.registry.Distinct)
    (hsnapshot : edit.snapshot p s.registry = some snapshot)
    (hbefore : ∀ update ∈ before, update.2.updates.isSome)
    (hafter : ∀ update ∈ after, update.2.updates.isSome)
    (hcommit : (edit.commit p s luck luck' (s.performAll p inside before)).2 = .ok saved) :
    ∃ stored,
      ((edit.commit p s luck luck' (s.performAll p inside before)).1.performAll p inside
        after).registry.profile snapshot.id = some stored ∧
      (edit.Merged p s.registry.applicationSupportURL luck.now snapshot
        (Registry.effective snapshot.id before) (Registry.effective snapshot.id after) stored ↔
      edit.Timely snapshot (Registry.effective snapshot.id before)
        (Registry.effective snapshot.id after)) := by
  have hurl : (s.performAll p inside before).registry.applicationSupportURL =
    s.registry.applicationSupportURL := Registry.applicationSupportURL_performAll hbefore
  obtain ⟨hdistinct', -⟩ := Registry.agrees_performAll (p := p) inside hbefore hdistinct
    (Edit.profile_snapshot hdistinct hsnapshot)
  obtain ⟨hcommitted, committed, hprofile, hagrees⟩ := Edit.stores_commit hsnapshot hdistinct' hcommit
  rw [Edit.id_apply] at hprofile
  rw [hurl] at hagrees
  obtain ⟨-, stored, hstored, hagrees'⟩ :=
    Registry.agrees_performAll (p := p) inside hafter hcommitted hprofile
  exact ⟨stored, hstored, Edit.merged_iff_timely
    (hagrees'.trans (Registry.agrees_changeAll hagrees _))⟩

/-- Nothing goes wrong. -/
def luckyEdit : EditLuck where
  toLuck := Registry.lucky
  readPassword := .ok ()
  savePassword := .ok ()
  restorePassword := .ok ()
  commitStagedConfig := .ok ()

def oneDevice : SavedDevices where
  registry := { Registry.emptySupport with
    profiles := [Registry.plainProfile "1" "office.local"]
    file := [Registry.plainProfile "1" "office.local"] }
  passwords _ := none

def rename : Edit :=
  .saveProfileEdits "1" { displayName := "Office", settings := .standard } none false

def passed : Registry.Operation :=
  .updateCheckup
    { checkedAt := 1, state := .passed, passCount := 1, warnCount := 0, failCount := 0, summary := "" }
    none "1"

/-- The device is renamed, and updates come between the snapshot and the store. -/
def renamed (before : List Registry.Operation) : SavedDevices × Except DeviceRegistryError DeviceProfile :=
  rename.commit plainPlatform oneDevice luckyEdit luckyEdit
    (oneDevice.performAll plainPlatform (fun _ => true)
      (before.map fun operation => (Registry.lucky, operation)))

/-- A check-up that ends while the device is being renamed is forgotten. -/
theorem rename_forgets_passed :
    ∃ saved stored, (renamed [passed]).2 = .ok saved ∧
      (renamed [passed]).1.registry.profile "1" = some stored ∧
      ¬ rename.Merged plainPlatform "/Support" 2 (Registry.plainProfile "1" "office.local")
        (Registry.effective "1" [(Registry.lucky, passed)]) (Registry.effective "1" []) stored := by
  have hsaved : (renamed [passed]).2.toOption.isSome = true := by decide +kernel
  have hforgotten : ((renamed [passed]).1.registry.profile "1").map (·.lastCheckup) = some none := by
    decide +kernel
  obtain ⟨stored, hstored, hcheckup⟩ := Option.map_eq_some_iff.mp hforgotten
  cases hout : (renamed [passed]).2 with
  | error e => simp [hout, Except.toOption] at hsaved
  | ok saved =>
    refine ⟨saved, stored, rfl, hstored, fun hmerged => ?_⟩
    have hkept : stored.lastCheckup = some _ := hmerged.kept .lastCheckup rfl
    simp [hcheckup] at hkept

/-- When the check-up has ended before, it stays. -/
theorem rename_merged :
    ∃ stored, ((renamed []).1.performAll plainPlatform (fun _ => true)
        [(Registry.lucky, passed)]).registry.profile "1" = some stored ∧
      (rename.Merged plainPlatform "/Support" 2 (Registry.plainProfile "1" "office.local")
        (Registry.effective "1" []) (Registry.effective "1" [(Registry.lucky, passed)]) stored ↔
      rename.Timely (Registry.plainProfile "1" "office.local") (Registry.effective "1" [])
        (Registry.effective "1" [(Registry.lucky, passed)])) := by
  have hsaved : (renamed []).2.toOption.isSome = true := by decide +kernel
  cases hout : (renamed []).2 with
  | error e => simp [hout, Except.toOption] at hsaved
  | ok saved =>
    have hafter : ∀ update ∈ [(Registry.lucky, passed)], update.2.updates.isSome := by
      simp [passed, Registry.Operation.updates]
    have hdistinct : oneDevice.registry.Distinct := List.nodup_singleton "1"
    exact edit_merged_iff hdistinct rfl (by simp) hafter hout

end TimeCapsule.App
