import TimeCapsule.App.Edits

/-!
# Configuration files of saved devices

`DeviceProfileArtifacts`, and the two functions of `DeviceProfilePersistenceService` that change the
keychain, a configuration file and the registry together.  What each of them does when one of its steps
fails decides what is left behind.
-/

namespace TimeCapsule.App

/-- The files below `Application Support`, by their paths. -/
abbrev ConfigFiles := String → Option String

namespace ConfigFiles

def put (path : String) (content : Option String) (files : ConfigFiles) : ConfigFiles :=
  fun path' => if path' = path then content else files path'

/-- `moveItem(at:to:)`, which never replaces anything. -/
def moveItem (source target : String) (outcome : Except String Unit) (files : ConfigFiles) :
    ConfigFiles × Except DeviceRegistryError Unit :=
  match outcome with
  | .error message => (files, .error (.io message))
  | .ok () =>
      match files source with
      | none => (files, .error (.io "no such file"))
      | some content =>
          if (files target).isSome then (files, .error (.io "file exists"))
          else ((files.put source none).put target (some content), .ok ())

end ConfigFiles

/-- How the file operations of one commit end, and the random part of the backup's name.  Putting
things back works. -/
structure ArtifactLuck where
  uuid : String
  createFinalDirectory : Except String Unit
  createBackupDirectory : Except String Unit
  moveToBackup : Except String Unit
  moveStaged : Except String Unit
  discardBackup : Except String Unit

/-! ## Paths -/

def deletingLastPathComponent (path : String) : String :=
  String.ofList ((path.toList.reverse.dropWhile (· ≠ '/')).drop 1).reverse

def lastPathComponent (path : String) : String :=
  String.ofList (path.toList.reverse.takeWhile (· ≠ '/')).reverse

def stagingDirectory (applicationSupportURL : String) : String :=
  applicationSupportURL ++ "/Devices/.Staging/"

/-- The path that `stageConfig` gives out. -/
def stagedConfigURL (applicationSupportURL : String) (id : ProfileID) (uuid : String) : String :=
  stagingDirectory applicationSupportURL ++ (id ++ "-" ++ uuid ++ ".env")

def backupConfigURL (applicationSupportURL finalURL uuid : String) : String :=
  stagingDirectory applicationSupportURL ++
    (lastPathComponent (deletingLastPathComponent finalURL) ++ "-rollback-" ++ uuid ++ ".env")

/-- The test of `discardStagedConfig`. -/
def InStaging (url : String) : Prop := "/.Staging/".toList <:+: url.toList

instance (url : String) : Decidable (InStaging url) :=
  inferInstanceAs (Decidable ("/.Staging/".toList <:+: url.toList))

namespace DeviceProfileArtifacts

structure CommitRollback where
  finalURL : String
  backupURL : Option String
deriving DecidableEq, Repr

def CommitRollback.rollback (r : CommitRollback) (files : ConfigFiles) : ConfigFiles :=
  let removed := files.put r.finalURL none
  match r.backupURL with
  | none => removed
  | some backupURL => (removed.moveItem backupURL r.finalURL (.ok ())).1

def CommitRollback.discardBackup (r : CommitRollback) (luck : ArtifactLuck) (files : ConfigFiles) :
    ConfigFiles :=
  match r.backupURL, luck.discardBackup with
  | some backupURL, .ok () => files.put backupURL none
  | _, _ => files

/-- The last step of `commitStagedConfig`, which puts the backup back when it fails. -/
def moveStaged (stagedURL finalURL : String) (backupURL : Option String) (luck : ArtifactLuck)
    (files : ConfigFiles) : ConfigFiles × Except DeviceRegistryError CommitRollback :=
  match files.moveItem stagedURL finalURL luck.moveStaged with
  | (files, .ok ()) => (files, .ok ⟨finalURL, backupURL⟩)
  | (files, .error e) =>
      match backupURL with
      | none => (files, .error e)
      | some backupURL => ((files.moveItem backupURL finalURL (.ok ())).1, .error e)

def commitStagedConfig (applicationSupportURL stagedURL finalURL : String) (luck : ArtifactLuck)
    (files : ConfigFiles) : ConfigFiles × Except DeviceRegistryError CommitRollback :=
  if (files stagedURL).isNone then
    (files, .error (.io "Configured device artifact was not written."))
  else
    match luck.createFinalDirectory with
    | .error message => (files, .error (.io message))
    | .ok () =>
        if (files finalURL).isNone then moveStaged stagedURL finalURL none luck files
        else
          match luck.createBackupDirectory with
          | .error message => (files, .error (.io message))
          | .ok () =>
              let candidate := backupConfigURL applicationSupportURL finalURL luck.uuid
              match files.moveItem finalURL candidate luck.moveToBackup with
              | (files, .error e) => (files, .error e)
              | (files, .ok ()) => moveStaged stagedURL finalURL (some candidate) luck files

def discardStagedConfig (stagedURL : String) (files : ConfigFiles) : ConfigFiles :=
  if InStaging stagedURL then files.put stagedURL none else files

end DeviceProfileArtifacts

open DeviceProfileArtifacts

/-! ## The two functions -/

/-- The registry, the keychain and the configuration files. -/
structure ProfileStores where
  saved : SavedDevices
  files : ConfigFiles

namespace ProfileStores

variable (p : Platform)

def setPassword (account password : String) (s : ProfileStores) : ProfileStores :=
  { s with saved := s.saved.setPassword account (some password) }

def discardStaged (stagedURL : Option String) (s : ProfileStores) : ProfileStores :=
  match stagedURL with
  | none => s
  | some url => { s with files := discardStagedConfig url s.files }

/-- The password is put back, where it was replaced. -/
def restorePassword (before : Option (Option String)) (account : String) (luck : EditLuck)
    (s : ProfileStores) : ProfileStores :=
  match before with
  | none => s
  | some before => { s with saved := s.saved.rollbackPassword before account luck }

/-- The staged configuration takes its place, where there is one. -/
def commitArtifacts (finalURL : String) (stagedURL : Option String) (luck : ArtifactLuck)
    (s : ProfileStores) : ConfigFiles × Except DeviceRegistryError (Option CommitRollback) :=
  match stagedURL with
  | none => (s.files, .ok none)
  | some url =>
      let (files, outcome) :=
        commitStagedConfig s.saved.registry.applicationSupportURL url finalURL luck s.files
      (files, outcome.map some)

/-- What both functions do once the password is saved: the staged configuration takes its place, and
then the profile is stored; what has been done is undone when one of them fails. -/
def commitProfile (account finalURL : String) (before : Option (Option String))
    (stagedURL : Option String)
    (store : Registry → Registry × Except DeviceRegistryError DeviceProfile) (luck : EditLuck)
    (artifacts : ArtifactLuck) (s : ProfileStores) :
    ProfileStores × Except DeviceRegistryError DeviceProfile :=
  match s.commitArtifacts finalURL stagedURL artifacts with
  | (files, .error e) =>
      let s : ProfileStores := { s with files := files }
      ((s.restorePassword before account luck).discardStaged stagedURL, .error e)
  | (files, .ok rollback) =>
      match store s.saved.registry with
      | (registry, .error e) =>
          let s : ProfileStores := { s with
            saved := { s.saved with registry := registry }
            files := rollback.elim files fun rollback => rollback.rollback files }
          (s.restorePassword before account luck, .error e)
      | (registry, .ok saved) =>
          let s : ProfileStores := { s with
            saved := { s.saved with registry := registry }
            files := rollback.elim files fun rollback => rollback.discardBackup artifacts files }
          (s, .ok saved)

/-- `commitConfiguredProfile`.  A keychain that cannot be read ends it before its first `do`, and
nothing discards the staged configuration there. -/
def commitConfiguredProfile (profile : DeviceProfile) (stagedURL password : String) (luck : EditLuck)
    (artifacts : ArtifactLuck) (s : ProfileStores) :
    ProfileStores × Except DeviceRegistryError DeviceProfile :=
  match luck.readPassword with
  | .error message => (s, .error (.io message))
  | .ok () =>
      match luck.savePassword with
      | .error message => (s.discardStaged (some stagedURL), .error (.io message))
      | .ok () =>
          (s.setPassword profile.keychainAccount password).commitProfile profile.keychainAccount
            profile.configPath (some (s.saved.passwords profile.keychainAccount)) (some stagedURL)
            (fun r => r.saveProfileMergingDuplicates p profile luck.toLuck) luck artifacts

def saveProfileEdits (profile : DeviceProfile) (fields : DeviceProfileEditableFields)
    (replacementPassword stagedURL : Option String) (luck : EditLuck) (artifacts : ArtifactLuck)
    (s : ProfileStores) : ProfileStores × Except DeviceRegistryError DeviceProfile :=
  let updated := SavedDevices.editedProfile profile fields replacementPassword
  let store := fun r : Registry => r.updateProfile p updated luck.toLuck
  match replacementPassword with
  | none =>
      s.commitProfile profile.keychainAccount profile.configPath none stagedURL store luck artifacts
  | some password =>
      match luck.readPassword with
      | .error message => (s.discardStaged stagedURL, .error (.io message))
      | .ok () =>
          match luck.savePassword with
          | .error message => (s.discardStaged stagedURL, .error (.io message))
          | .ok () =>
              (s.setPassword profile.keychainAccount password).commitProfile profile.keychainAccount
                profile.configPath (some (s.saved.passwords profile.keychainAccount)) stagedURL store
                luck artifacts

end ProfileStores

/-! ## The files of one commit -/

namespace ConfigFiles

variable {files : ConfigFiles} {path source target : String} {content : Option String}

@[simp] theorem put_same : files.put path content path = content := if_pos rfl

theorem put_ne {path' : String} (h : path' ≠ path) : files.put path content path' = files path' :=
  if_neg h

theorem moveItem_cases (source target : String) (outcome : Except String Unit) (files : ConfigFiles) :
    (∃ message, files.moveItem source target outcome = (files, .error (.io message))) ∨
    ∃ text, files source = some text ∧ files target = none ∧
      files.moveItem source target outcome =
        ((files.put source none).put target (some text), .ok ()) := by
  unfold moveItem
  cases outcome with
  | error message => exact .inl ⟨_, rfl⟩
  | ok _ =>
    cases hsource : files source with
    | none => exact .inl ⟨_, rfl⟩
    | some text =>
      cases htarget : files target with
      | none => exact .inr ⟨text, rfl, rfl, rfl⟩
      | some old => exact .inl ⟨_, rfl⟩

/-- A move that is allowed works. -/
theorem moveItem_ok (text : String) (hsource : files source = some text)
    (htarget : files target = none) :
    files.moveItem source target (.ok ()) =
      ((files.put source none).put target (some text), .ok ()) := by
  simp [moveItem, hsource, htarget]

end ConfigFiles

namespace DeviceProfileArtifacts

variable {files files' : ConfigFiles} {support stagedURL finalURL : String} {luck : ArtifactLuck}

/-- The staged configuration is at the final path, and can still be taken away again. -/
structure Taken (stagedURL finalURL : String) (files files' : ConfigFiles)
    (rollback : CommitRollback) : Prop where
  present : (files stagedURL).isSome
  undone : rollback.rollback files' = files.put stagedURL none
  config : ∀ luck, rollback.discardBackup luck files' finalURL = files stagedURL
  gone : ∀ luck, rollback.discardBackup luck files' stagedURL = none
  others : ∀ luck, luck.discardBackup = .ok () → ∀ path, path ≠ stagedURL → path ≠ finalURL →
    rollback.discardBackup luck files' path = files path

/-- Without a configuration at the final path there is nothing to keep. -/
theorem taken_fresh {text : String} (hne : stagedURL ≠ finalURL) (hstaged : files stagedURL = some text)
    (hfinal : files finalURL = none) :
    Taken stagedURL finalURL files ((files.put stagedURL none).put finalURL (some text))
      ⟨finalURL, none⟩ where
  present := by rw [hstaged]; rfl
  undone := by
    funext path
    show ConfigFiles.put _ _ _ path = _
    by_cases hpath : path = finalURL
    · rw [hpath, ConfigFiles.put_same, ConfigFiles.put_ne hne.symm, hfinal]
    · rw [ConfigFiles.put_ne hpath, ConfigFiles.put_ne hpath]
  config _ := by
    rw [hstaged]
    exact ConfigFiles.put_same
  gone _ := by
    show ConfigFiles.put _ _ _ stagedURL = none
    rw [ConfigFiles.put_ne hne, ConfigFiles.put_same]
  others _ _ path hpath hpath' := by
    show ConfigFiles.put _ _ _ path = _
    rw [ConfigFiles.put_ne hpath', ConfigFiles.put_ne hpath]

/-- The configuration that was there is kept as a backup. -/
theorem taken_backup {text old candidate : String} (hne : stagedURL ≠ finalURL)
    (hstaged : files stagedURL = some text) (hfinal : files finalURL = some old)
    (hcandidate : files candidate = none) :
    Taken stagedURL finalURL files
      ((((files.put finalURL none).put candidate (some old)).put stagedURL none).put finalURL
        (some text))
      ⟨finalURL, some candidate⟩ := by
  have hcs : candidate ≠ stagedURL := by
    rintro rfl
    rw [hcandidate] at hstaged
    cases hstaged
  have hcf : candidate ≠ finalURL := by
    rintro rfl
    rw [hcandidate] at hfinal
    cases hfinal
  refine ⟨by rw [hstaged]; rfl, ?_, ?_, ?_, ?_⟩
  · -- The new configuration is removed, and the backup is moved to its place.
    unfold CommitRollback.rollback
    dsimp only
    rw [ConfigFiles.moveItem_ok old]
    · funext path
      unfold ConfigFiles.put
      grind
    · unfold ConfigFiles.put
      grind
    · exact ConfigFiles.put_same
  · intro luck
    rw [hstaged]
    unfold CommitRollback.discardBackup ConfigFiles.put
    cases luck.discardBackup <;> grind
  · intro luck
    unfold CommitRollback.discardBackup ConfigFiles.put
    cases luck.discardBackup <;> grind
  · intro luck hluck path hpath hpath'
    unfold CommitRollback.discardBackup ConfigFiles.put
    rw [hluck]
    grind

/-- A commit takes the staged configuration, or it changes nothing. -/
theorem commitStagedConfig_cases (support : String) (hne : stagedURL ≠ finalURL) (luck : ArtifactLuck)
    (files : ConfigFiles) :
    (∃ message, commitStagedConfig support stagedURL finalURL luck files =
      (files, .error (.io message))) ∨
    ∃ files' rollback, commitStagedConfig support stagedURL finalURL luck files =
      (files', .ok rollback) ∧ Taken stagedURL finalURL files files' rollback := by
  unfold commitStagedConfig
  cases hstaged : files stagedURL with
  | none => exact .inl ⟨_, rfl⟩
  | some text =>
    rw [if_neg (by simp)]
    cases luck.createFinalDirectory with
    | error message => exact .inl ⟨_, rfl⟩
    | ok _ =>
      dsimp only
      cases hfinal : files finalURL with
      | none =>
        rw [if_pos (by simp), moveStaged]
        obtain ⟨e, hmove⟩ | ⟨text', hsource, -, hmove⟩ :=
          ConfigFiles.moveItem_cases stagedURL finalURL luck.moveStaged files
        · rw [hmove]
          exact .inl ⟨e, rfl⟩
        · rw [hmove]
          exact .inr ⟨_, _, rfl, taken_fresh hne hsource hfinal⟩
      | some old =>
        rw [if_neg (by simp)]
        cases luck.createBackupDirectory with
        | error message => exact .inl ⟨_, rfl⟩
        | ok _ =>
          dsimp only
          generalize backupConfigURL support finalURL luck.uuid = candidate
          obtain ⟨e, hmove⟩ | ⟨text', hsource, hcandidate, hmove⟩ :=
            ConfigFiles.moveItem_cases finalURL candidate luck.moveToBackup files
          · rw [hmove]
            exact .inl ⟨e, rfl⟩
          · obtain rfl : text' = old := by
              rw [hfinal] at hsource
              exact (Option.some.inj hsource).symm
            have hcf : candidate ≠ finalURL := by
              rintro rfl
              rw [hcandidate] at hfinal
              cases hfinal
            rw [hmove]
            dsimp only
            rw [moveStaged]
            obtain ⟨e, hmove'⟩ | ⟨text'', hsource', -, hmove'⟩ :=
              ConfigFiles.moveItem_cases stagedURL finalURL luck.moveStaged
                ((files.put finalURL none).put candidate (some text'))
            · -- The backup goes back to where it was.
              refine .inl ⟨e, ?_⟩
              rw [hmove']
              dsimp only
              rw [ConfigFiles.moveItem_ok text' ConfigFiles.put_same]
              · congr 1
                funext path
                unfold ConfigFiles.put
                grind
              · rw [ConfigFiles.put_ne hcf.symm, ConfigFiles.put_same]
            · rw [hmove']
              obtain rfl : text'' = text := by
                have hcs : candidate ≠ stagedURL := by
                  rintro rfl
                  rw [hcandidate] at hstaged
                  cases hstaged
                rw [ConfigFiles.put_ne hcs.symm, ConfigFiles.put_ne hne, hstaged] at hsource'
                exact (Option.some.inj hsource').symm
              exact .inr ⟨_, _, rfl, taken_backup hne hstaged hfinal hcandidate⟩

end DeviceProfileArtifacts

/-! ## What the registry stores -/

namespace Registry

variable {p : Platform} {r : Registry} {profile stored : DeviceProfile} {luck : Luck}

/-- The profile is in the list and in the file, and is the one that was to be stored but for the date
of the change. -/
structure Stored (wanted : DeviceProfile) (url : String) (stored : DeviceProfile) (r : Registry) :
    Prop where
  listed : stored ∈ r.profiles
  written : stored ∈ r.file
  wanted : { stored with updatedAt := wanted.updatedAt } = wanted.withStorageFields url

theorem stored_commit {profiles : List DeviceProfile} {wanted : DeviceProfile} {url : String}
    {u : Unit} (h : (r.commit profiles luck).2 = .ok u) (hurl : r.applicationSupportURL = url)
    (hmem : stored ∈ profiles) (hfields : stored.withStorageFields url = stored)
    (hwanted : { stored with updatedAt := wanted.updatedAt } = wanted.withStorageFields url) :
    Stored wanted url stored (r.commit profiles luck).1 := by
  obtain ⟨e, hfailed⟩ | hdone := commit_cases (r := r) luck profiles
  · rw [hfailed] at h
    cases h
  · rw [hdone, hurl]
    exact ⟨hmem, List.mem_map.mpr ⟨stored, hmem, hfields⟩, hwanted⟩

theorem map_const_ok {α β : Type} {x : Except DeviceRegistryError α} {value b : β}
    (h : x.map (fun _ => value) = .ok b) : (∃ a, x = .ok a) ∧ b = value := by
  cases x with
  | error e => cases h
  | ok a => exact ⟨⟨a, rfl⟩, (Except.ok.inj h).symm⟩

theorem stored_saveProfileMergingDuplicates
    (h : (r.saveProfileMergingDuplicates p profile luck).2 = .ok stored) :
    Stored profile r.applicationSupportURL stored
      (r.saveProfileMergingDuplicates p profile luck).1 := by
  revert h
  rw [saveProfileMergingDuplicates]
  dsimp only
  have hsame := unchanged_createDirectories (r := r) luck
    (profile.withStorageFields r.applicationSupportURL).id
  rcases hdirectories : r.createDirectories (profile.withStorageFields r.applicationSupportURL).id luck
    with ⟨r', e | ⟨⟨⟩⟩⟩
  · intro h
    cases h
  · intro h
    rw [hdirectories] at hsame
    obtain ⟨⟨_, hcommit⟩, rfl⟩ := map_const_ok h
    refine stored_commit hcommit hsame.applicationSupportURL ?_ rfl rfl
    rw [mem_sorted]
    exact List.mem_append_right _ List.mem_cons_self

theorem stored_updateProfile (h : (r.updateProfile p profile luck).2 = .ok stored) :
    Stored profile r.applicationSupportURL stored (r.updateProfile p profile luck).1 := by
  revert h
  rw [updateProfile]
  dsimp only
  cases hindex : r.profiles.findIdx? fun existing =>
      existing.id = (profile.withStorageFields r.applicationSupportURL).id with
  | none =>
    intro h
    cases h
  | some index =>
    dsimp only
    cases r.duplicateConflict p (profile.withStorageFields r.applicationSupportURL)
        (profile.withStorageFields r.applicationSupportURL).id with
    | some conflict =>
      intro h
      cases h
    | none =>
      dsimp only
      have hsame := unchanged_createDirectories (r := r) luck
        (profile.withStorageFields r.applicationSupportURL).id
      obtain ⟨hlt, -⟩ := findIdx_id hindex
      rcases hdirectories : r.createDirectories (profile.withStorageFields r.applicationSupportURL).id
        luck with ⟨r', e | ⟨⟨⟩⟩⟩
      · intro h
        cases h
      · intro h
        rw [hdirectories] at hsame
        have hprofiles : r'.profiles = r.profiles := hsame.profiles
        obtain ⟨⟨_, hcommit⟩, rfl⟩ := map_const_ok h
        refine stored_commit hcommit hsame.applicationSupportURL ?_ rfl rfl
        rw [mem_sorted, List.mem_iff_getElem]
        exact ⟨index, by simpa [hprofiles] using hlt, by simp⟩

end Registry

/-! ## All or nothing -/

namespace ProfileStores

variable {p : Platform}

/-- An edit of one device: where its password is, its new password if there is one, where its staged
configuration is and where it belongs, and the profile that is to be stored. -/
structure Change where
  account : String
  replacement : Option String
  staged : Option String
  finalURL : String
  wanted : DeviceProfile

/-- The edit has worked; only the backup of the configuration may be left when it could not be
removed. -/
structure Committed (change : Change) (discarded : Except String Unit) (before after : ProfileStores)
    (stored : DeviceProfile) : Prop where
  passwords : after.saved.passwords = change.replacement.elim before.saved.passwords
    fun password => (before.saved.setPassword change.account (some password)).passwords
  config : ∀ url ∈ change.staged, (before.files url).isSome ∧
    after.files change.finalURL = before.files url ∧ after.files url = none
  others : discarded = .ok () → ∀ path, path ∉ change.staged → path ≠ change.finalURL →
    after.files path = before.files path
  untouched : change.staged = none → after.files = before.files
  profile : after.saved.registry.Stored change.wanted before.saved.registry.applicationSupportURL
    stored

/-- Nothing of the edit is left, and nothing else has changed. -/
structure Restored (change : Change) (before after : ProfileStores) : Prop where
  registry : Registry.Unchanged before.saved.registry after.saved.registry
  passwords : after.saved.passwords = before.saved.passwords
  files : after.files = change.staged.elim before.files fun url => before.files.put url none

/-- The edit works as a whole, or it throws and is as if it had never been begun. -/
structure AllOrNothing (change : Change) (discarded : Except String Unit) (before : ProfileStores)
    (outcome : ProfileStores × Except DeviceRegistryError DeviceProfile) : Prop where
  committed : ∀ stored, outcome.2 = .ok stored →
    Committed change discarded before outcome.1 stored
  restored : ∀ e, outcome.2 = .error e → Restored change before outcome.1

variable {change : Change} {discarded : Except String Unit} {before after : ProfileStores}

theorem allOrNothing_ok {stored : DeviceProfile} (h : Committed change discarded before after stored) :
    AllOrNothing change discarded before (after, .ok stored) where
  committed _ hok := Except.ok.inj hok ▸ h
  restored _ herror := by cases herror

theorem allOrNothing_error {e : DeviceRegistryError} (h : Restored change before after) :
    AllOrNothing change discarded before (after, .error e) where
  committed _ hok := by cases hok
  restored _ _ := h

/-- A staged configuration is where `stageConfig` puts it, which is not where any device has its own. -/
structure Staged (finalURL url : String) : Prop where
  inside : InStaging url
  apart : url ≠ finalURL

theorem files_discardStaged {s : ProfileStores} {staged : Option String}
    (h : ∀ url ∈ staged, InStaging url) :
    (s.discardStaged staged).files = staged.elim s.files fun url => s.files.put url none := by
  cases staged with
  | none => rfl
  | some url => exact if_pos (h url rfl)

theorem saved_discardStaged {s : ProfileStores} (staged : Option String) :
    (s.discardStaged staged).saved = s.saved := by
  cases staged <;> rfl

/-- What is discarded before anything was done. -/
theorem restored_discardStaged (change : Change) (h : ∀ url ∈ change.staged, InStaging url) (s : ProfileStores) :
    Restored change s (s.discardStaged change.staged) where
  registry := by
    rw [saved_discardStaged]
    exact .refl _
  passwords := by rw [saved_discardStaged]
  files := files_discardStaged h

/-- The stores once the new password is saved, if there is one. -/
def Change.begun (change : Change) (s : ProfileStores) : ProfileStores :=
  change.replacement.elim s (s.setPassword change.account)

/-- What the password was, if it was replaced. -/
def Change.password (change : Change) (s : ProfileStores) : Option (Option String) :=
  change.replacement.map fun _ => s.saved.passwords change.account

theorem begun_registry (change : Change) (s : ProfileStores) :
    (change.begun s).saved.registry = s.saved.registry := by
  unfold Change.begun
  cases change.replacement <;> rfl

theorem begun_files (change : Change) (s : ProfileStores) : (change.begun s).files = s.files := by
  unfold Change.begun
  cases change.replacement <;> rfl

theorem begun_passwords (change : Change) (s : ProfileStores) :
    (change.begun s).saved.passwords = change.replacement.elim s.saved.passwords
      fun password => (s.saved.setPassword change.account (some password)).passwords := by
  unfold Change.begun
  cases change.replacement <;> rfl

section Restoring

variable {s s' : ProfileStores} {luck : EditLuck}

theorem restorePassword_files (before : Option (Option String)) (account : String) :
    (s.restorePassword before account luck).files = s.files := by
  cases before <;> rfl

theorem restorePassword_registry (before : Option (Option String)) (account : String) :
    (s.restorePassword before account luck).saved.registry = s.saved.registry := by
  cases before with
  | none => rfl
  | some before => exact SavedDevices.registry_rollbackPassword before account

/-- The password is what it was. -/
theorem restorePassword_passwords (hrollback : luck.restorePassword = .ok ())
    (h : s'.saved.passwords = (change.begun s).saved.passwords) :
    (s'.restorePassword (change.password s) change.account luck).saved.passwords =
      s.saved.passwords := by
  rw [begun_passwords] at h
  unfold Change.password
  cases hreplacement : change.replacement with
  | none =>
    rw [hreplacement] at h
    exact h
  | some password =>
    rw [hreplacement] at h
    unfold restorePassword SavedDevices.rollbackPassword
    rw [hrollback]
    funext account
    show (if account = change.account then _ else s'.saved.passwords account) = _
    rw [h]
    show (if account = change.account then s.saved.passwords change.account
      else if account = change.account then _ else s.saved.passwords account) = _
    split
    · next heq => rw [heq]
    · rfl

end Restoring

/-- The commit itself, when the registry loses nothing by throwing. -/
theorem allOrNothing_commitProfile (change : Change) {s : ProfileStores} {luck : EditLuck} {artifacts : ArtifactLuck}
    {store : Registry → Registry × Except DeviceRegistryError DeviceProfile}
    (hrollback : luck.restorePassword = .ok ())
    (hstaged : ∀ url ∈ change.staged, Staged change.finalURL url)
    (hthrown : ∀ e, (store s.saved.registry).2 = .error e →
      Registry.Unchanged s.saved.registry (store s.saved.registry).1)
    (hstored : ∀ stored, (store s.saved.registry).2 = .ok stored →
      (store s.saved.registry).1.Stored change.wanted s.saved.registry.applicationSupportURL stored) :
    AllOrNothing change artifacts.discardBackup s
      ((change.begun s).commitProfile change.account change.finalURL (change.password s)
        change.staged store luck artifacts) := by
  have hinside : ∀ url ∈ change.staged, InStaging url := fun url hurl => (hstaged url hurl).inside
  -- What the staged configuration does to the files, and what takes it back.
  have hartifacts : (∃ e, (change.begun s).commitArtifacts change.finalURL change.staged artifacts =
        (s.files, .error e)) ∨
      ∃ files rollback, (change.begun s).commitArtifacts change.finalURL change.staged artifacts =
          (files, .ok rollback) ∧
        ((change.staged = none ∧ files = s.files ∧ rollback = none) ∨
          ∃ url taken, change.staged = some url ∧ rollback = some taken ∧
            Taken url change.finalURL s.files files taken) := by
    unfold commitArtifacts
    rw [begun_files, begun_registry]
    cases hurl : change.staged with
    | none => exact .inr ⟨_, _, rfl, .inl ⟨rfl, rfl, rfl⟩⟩
    | some url =>
      obtain ⟨e, hfailed⟩ | ⟨files, rollback, hdone, htaken⟩ :=
        commitStagedConfig_cases s.saved.registry.applicationSupportURL (hstaged url hurl).apart
          artifacts s.files
      · dsimp only
        rw [hfailed]
        exact .inl ⟨_, rfl⟩
      · dsimp only
        rw [hdone]
        exact .inr ⟨files, some rollback, rfl, .inr ⟨url, rollback, rfl, rfl, htaken⟩⟩
  unfold commitProfile
  obtain ⟨e, hfailed⟩ | ⟨files, rollback, hdone, htaken⟩ := hartifacts
  · rw [hfailed]
    apply allOrNothing_error
    refine ⟨?_, ?_, ?_⟩
    · rw [saved_discardStaged, restorePassword_registry]
      exact begun_registry change s ▸ .refl _
    · rw [saved_discardStaged]
      exact restorePassword_passwords hrollback rfl
    · rw [files_discardStaged hinside, restorePassword_files]
  · rw [hdone, begun_registry]
    dsimp only
    rcases hstore : store s.saved.registry with ⟨registry, e | stored⟩
    · rw [hstore] at hthrown
      apply allOrNothing_error
      refine ⟨?_, ?_, ?_⟩
      · rw [restorePassword_registry]
        exact hthrown e rfl
      · exact restorePassword_passwords hrollback rfl
      · rw [restorePassword_files]
        obtain ⟨hnone, hfiles, hrollback⟩ | ⟨url, taken, hsome, hrollback, htaken⟩ := htaken
        · rw [hnone, hrollback]
          exact hfiles
        · rw [hsome, hrollback]
          exact htaken.undone
    · rw [hstore] at hstored
      apply allOrNothing_ok
      have hpasswords := begun_passwords change s
      obtain ⟨hnone, hfiles, hrollback⟩ | ⟨url, taken, hsome, hrollback, htaken⟩ := htaken
      · rw [hrollback, hfiles]
        refine ⟨hpasswords, ?_, fun _ _ _ _ => rfl, fun _ => rfl, hstored stored rfl⟩
        intro url hurl
        rw [hnone] at hurl
        cases hurl
      · rw [hrollback]
        refine ⟨hpasswords, ?_, ?_, ?_, hstored stored rfl⟩
        · intro url' hurl'
          rw [hsome] at hurl'
          obtain rfl := Option.some.inj hurl'
          exact ⟨htaken.present, htaken.config artifacts, htaken.gone artifacts⟩
        · intro hdiscarded path hpath hfinal
          apply htaken.others artifacts hdiscarded path
          · rintro rfl
            exact hpath hsome
          · exact hfinal
        · intro hnone
          rw [hnone] at hsome
          cases hsome

/-! ### The two functions -/

/-- What `stageConfig` gives out is staged, whatever the device. -/
theorem staged_stagedConfigURL (support : String) (id id' : ProfileID) {uuid : String}
    (huuid : uuid.toList.getLast? ≠ some '/') :
    Staged (DeviceProfile.configURL support id') (stagedConfigURL support id uuid) where
  inside := by
    refine ⟨support.toList ++ "/Devices".toList, (id ++ "-" ++ uuid ++ ".env").toList, ?_⟩
    have hstaging : "/Devices/.Staging/".toList = "/Devices".toList ++ "/.Staging/".toList := rfl
    rw [stagedConfigURL, stagingDirectory]
    simp only [String.toList_append, hstaging, List.append_assoc]
  apart heq := by
    have hends : (support ++ "/Devices/.Staging/" ++ id ++ "-").toList ++ uuid.toList ++ ".env".toList =
        (DeviceProfile.configDirectory support id').toList ++ ['/'] ++ ".env".toList := by
      have hslash : "/.env".toList = ['/'] ++ ".env".toList := rfl
      rw [stagedConfigURL, stagingDirectory, DeviceProfile.configURL] at heq
      have hlist := congrArg String.toList heq
      simp only [String.toList_append, hslash, List.append_assoc] at hlist ⊢
      exact hlist
    have hlast := congrArg List.getLast? (List.append_cancel_right hends)
    rw [List.getLast?_concat] at hlast
    cases hempty : uuid.toList with
    | nil =>
      have hdash : "-".toList = ['-'] := rfl
      rw [hempty, List.append_nil, String.toList_append, hdash, List.getLast?_concat] at hlast
      exact absurd hlast (by decide)
    | cons ch rest =>
      rw [List.getLast?_append, Option.or_of_isSome (by rw [hempty]; simp)] at hlast
      exact huuid hlast

def configuredChange (profile : DeviceProfile) (stagedURL password : String) : Change where
  account := profile.keychainAccount
  replacement := some password
  staged := some stagedURL
  finalURL := profile.configPath
  wanted := profile

def editedChange (profile : DeviceProfile) (fields : DeviceProfileEditableFields)
    (replacementPassword stagedURL : Option String) : Change where
  account := profile.keychainAccount
  replacement := replacementPassword
  staged := stagedURL
  finalURL := profile.configPath
  wanted := SavedDevices.editedProfile profile fields replacementPassword

section Functions

variable {s : ProfileStores} {luck : EditLuck} {artifacts : ArtifactLuck} {profile : DeviceProfile}

/-- The configured profile is committed as a whole or not at all, unless the keychain cannot be read and
there is a staged configuration to be discarded. -/
theorem commitConfiguredProfile_allOrNothing_iff {stagedURL : String} (password : String)
    (hrollback : luck.restorePassword = .ok ()) (hstaged : Staged profile.configPath stagedURL) :
    AllOrNothing (configuredChange profile stagedURL password) artifacts.discardBackup s
        (s.commitConfiguredProfile p profile stagedURL password luck artifacts) ↔
      (luck.readPassword = .ok () ∨ s.files stagedURL = none) := by
  have hinside : ∀ url ∈ (configuredChange profile stagedURL password).staged, InStaging url :=
    fun url hurl => Option.some.inj hurl ▸ hstaged.inside
  unfold commitConfiguredProfile
  cases hread : luck.readPassword with
  | error message =>
    constructor
    · intro h
      have hfiles : s.files = s.files.put stagedURL none := (h.restored _ rfl).files
      rw [hfiles]
      exact Or.inr ConfigFiles.put_same
    · rintro (h | h)
      · cases h
      · apply allOrNothing_error
        refine ⟨.refl _, rfl, ?_⟩
        funext path
        show s.files path = if path = stagedURL then none else s.files path
        split
        · next heq => rw [heq, h]
        · rfl
  | ok _ =>
    refine iff_of_true ?_ (Or.inl rfl)
    dsimp only
    cases luck.savePassword with
    | error message =>
      exact allOrNothing_error (restored_discardStaged _ hinside s)
    | ok _ =>
      exact allOrNothing_commitProfile (configuredChange profile stagedURL password) hrollback
        (fun url hurl => Option.some.inj hurl ▸ hstaged)
        (Registry.keeps_saveProfileMergingDuplicates profile).thrown
        fun _ hstored => Registry.stored_saveProfileMergingDuplicates hstored

theorem allOrNothing_saveProfileEdits {fields : DeviceProfileEditableFields}
    {replacementPassword stagedURL : Option String} (hrollback : luck.restorePassword = .ok ())
    (hstaged : ∀ url ∈ stagedURL, Staged profile.configPath url) :
    AllOrNothing (editedChange profile fields replacementPassword stagedURL) artifacts.discardBackup s
      (s.saveProfileEdits p profile fields replacementPassword stagedURL luck artifacts) := by
  have hinside : ∀ url ∈ (editedChange profile fields replacementPassword stagedURL).staged,
      InStaging url := fun url hurl => (hstaged url hurl).inside
  have hdiscard := restored_discardStaged _ hinside s
  have hkeeps : Registry.Keeps p s.saved.registry (s.saved.registry.updateProfile p
      (SavedDevices.editedProfile profile fields replacementPassword) luck.toLuck) :=
    Registry.keeps_updateProfile _
  have hcommit : AllOrNothing _ artifacts.discardBackup s _ :=
    allOrNothing_commitProfile (editedChange profile fields replacementPassword stagedURL) hrollback
      hstaged hkeeps.thrown fun _ hstored => Registry.stored_updateProfile hstored
  unfold saveProfileEdits
  cases replacementPassword with
  | none => exact hcommit
  | some password =>
    cases luck.readPassword with
    | error message => exact allOrNothing_error hdiscard
    | ok _ =>
      dsimp only
      cases luck.savePassword with
      | error message => exact allOrNothing_error hdiscard
      | ok _ => exact hcommit

end Functions

/-! ### The registry and the keychain alone -/

section Saved

variable {s : ProfileStores} {luck : EditLuck} {artifacts : ArtifactLuck} {profile : DeviceProfile}

/-- What is left of an outcome without the files. -/
def savedOutcome (outcome : ProfileStores × Except DeviceRegistryError DeviceProfile) :
    SavedDevices × Except DeviceRegistryError DeviceProfile :=
  (outcome.1.saved, outcome.2)

/-- Without the files, a commit is the one of the edits that background updates come between. -/
theorem savedOutcome_commitProfile {account finalURL : String} {before : Option (Option String)}
    {stagedURL : Option String}
    {store : Registry → Registry × Except DeviceRegistryError DeviceProfile}
    (hne : ∀ url ∈ stagedURL, url ≠ finalURL) :
    ∃ staged, savedOutcome (s.commitProfile account finalURL before stagedURL store luck artifacts) =
      s.saved.commitProfile account before stagedURL.isSome store
        { luck with commitStagedConfig := staged } := by
  unfold commitProfile commitArtifacts
  cases stagedURL with
  | none =>
    refine ⟨.ok (), ?_⟩
    rcases hstore : store s.saved.registry with ⟨registry, e | stored⟩
    · cases before with
      | none => simp [savedOutcome, SavedDevices.commitProfile, hstore, restorePassword]
      | some before =>
        simp only [savedOutcome, SavedDevices.commitProfile, hstore, restorePassword]
        rfl
    · simp [savedOutcome, SavedDevices.commitProfile, hstore]
  | some url =>
    dsimp only
    obtain ⟨message, hfailed⟩ | ⟨files, rollback, hdone, -⟩ :=
      commitStagedConfig_cases s.saved.registry.applicationSupportURL (hne url rfl) artifacts s.files
    · refine ⟨.error message, ?_⟩
      rw [hfailed]
      cases before with
      | none => simp [savedOutcome, SavedDevices.commitProfile, restorePassword, discardStaged, Except.map]
      | some before =>
        simp only [savedOutcome, SavedDevices.commitProfile, restorePassword, discardStaged, Except.map]
        rfl
    · refine ⟨.ok (), ?_⟩
      rw [hdone]
      rcases hstore : store s.saved.registry with ⟨registry, e | stored⟩
      · cases before with
        | none => simp [savedOutcome, SavedDevices.commitProfile, hstore, restorePassword, Except.map]
        | some before =>
          simp only [savedOutcome, SavedDevices.commitProfile, hstore, restorePassword, Except.map]
          rfl
      · simp [savedOutcome, SavedDevices.commitProfile, hstore, Except.map]

theorem savedOutcome_commitConfiguredProfile {p : Platform} {stagedURL : String} (password : String)
    (hne : stagedURL ≠ profile.configPath) :
    ∃ staged, savedOutcome (s.commitConfiguredProfile p profile stagedURL password luck artifacts) =
      s.saved.commitConfiguredProfile p profile password
        { luck with commitStagedConfig := staged } := by
  have hstaged : ∀ url ∈ some stagedURL, url ≠ profile.configPath :=
    fun url hurl => Option.some.inj hurl ▸ hne
  unfold commitConfiguredProfile SavedDevices.commitConfiguredProfile SavedDevices.savePassword
  cases hread : luck.readPassword with
  | error message => exact ⟨.ok (), rfl⟩
  | ok _ =>
    dsimp only
    cases hsave : luck.savePassword with
    | error message => exact ⟨.ok (), rfl⟩
    | ok _ => exact savedOutcome_commitProfile hstaged

theorem savedOutcome_saveProfileEdits {p : Platform} {fields : DeviceProfileEditableFields}
    {replacementPassword stagedURL : Option String} (hne : ∀ url ∈ stagedURL, url ≠ profile.configPath) :
    ∃ staged, savedOutcome
        (s.saveProfileEdits p profile fields replacementPassword stagedURL luck artifacts) =
      s.saved.saveProfileEdits p profile fields replacementPassword stagedURL.isSome
        { luck with commitStagedConfig := staged } := by
  have hdiscarded : ∀ e : DeviceRegistryError,
      savedOutcome (s.discardStaged stagedURL, .error e) = (s.saved, .error e) := by
    intro e
    rw [savedOutcome, saved_discardStaged]
  unfold saveProfileEdits SavedDevices.saveProfileEdits SavedDevices.savePassword
  cases replacementPassword with
  | none => exact savedOutcome_commitProfile hne
  | some password =>
    dsimp only
    cases luck.readPassword with
    | error message => exact ⟨.ok (), hdiscarded _⟩
    | ok _ =>
      dsimp only
      cases luck.savePassword with
      | error message => exact ⟨.ok (), hdiscarded _⟩
      | ok _ => exact savedOutcome_commitProfile hne

end Saved

/-- Both functions work as a whole or leave nothing behind, but for a keychain that cannot be read when
a profile is configured: then the staged configuration stays. -/
theorem commits_all_or_nothing_iff {p : Platform} {luck : EditLuck}
    (hrollback : luck.restorePassword = .ok ()) (s : ProfileStores) (artifacts : ArtifactLuck) :
    (∀ configuredDevice draft overrides password uuid, uuid.toList.getLast? ≠ some '/' →
      let profile := s.saved.configuredProfile p configuredDevice draft overrides luck
      let stagedURL := stagedConfigURL s.saved.registry.applicationSupportURL draft.profileID uuid
      (AllOrNothing (configuredChange profile stagedURL password) artifacts.discardBackup s
          (s.commitConfiguredProfile p profile stagedURL password luck artifacts) ↔
        (luck.readPassword = .ok () ∨ s.files stagedURL = none))) ∧
    ∀ profile fields replacementPassword stagedURL,
      profile.withStorageFields s.saved.registry.applicationSupportURL = profile →
      (∀ url ∈ stagedURL, ∃ uuid, uuid.toList.getLast? ≠ some '/' ∧
        url = stagedConfigURL s.saved.registry.applicationSupportURL profile.id uuid) →
      AllOrNothing (editedChange profile fields replacementPassword stagedURL)
        artifacts.discardBackup s
        (s.saveProfileEdits p profile fields replacementPassword stagedURL luck artifacts) := by
  constructor
  · intro configuredDevice draft overrides password uuid huuid profile stagedURL
    apply commitConfiguredProfile_allOrNothing_iff password hrollback
    have hpath : profile.configPath =
        DeviceProfile.configURL s.saved.registry.applicationSupportURL profile.id := rfl
    rw [hpath]
    exact staged_stagedConfigURL _ _ _ huuid
  · intro profile fields replacementPassword stagedURL hprofile hstaged
    apply allOrNothing_saveProfileEdits hrollback
    intro url hurl
    obtain ⟨uuid, huuid, rfl⟩ := hstaged url hurl
    have hpath := congrArg DeviceProfile.configPath hprofile
    rw [← hpath]
    exact staged_stagedConfigURL _ _ _ huuid

/-- The keychain is locked, and everything else works. -/
def lockedKeychain : EditLuck := { luckyEdit with readPassword := .error "locked" }

def luckyArtifacts : ArtifactLuck where
  uuid := "b"
  createFinalDirectory := .ok ()
  createBackupDirectory := .ok ()
  moveToBackup := .ok ()
  moveStaged := .ok ()
  discardBackup := .ok ()

/-- One saved device, and a configuration that was staged for it. -/
def oneStaged : ProfileStores where
  saved := oneDevice
  files path := if path = stagedConfigURL "/Support" "1" "a" then some "TC_HOST=root@office.local" else none

/-- With a locked keychain the device is not renamed, and no file is left. -/
theorem edit_with_locked_keychain :
    AllOrNothing (editedChange (Registry.plainProfile "1" "office.local")
        { displayName := "Office", settings := .standard } (some "new")
        (some (stagedConfigURL "/Support" "1" "a")))
      luckyArtifacts.discardBackup oneStaged
      (oneStaged.saveProfileEdits plainPlatform (Registry.plainProfile "1" "office.local")
        { displayName := "Office", settings := .standard } (some "new")
        (some (stagedConfigURL "/Support" "1" "a")) lockedKeychain luckyArtifacts) := by
  apply (@commits_all_or_nothing_iff plainPlatform lockedKeychain rfl oneStaged luckyArtifacts).2
  · rfl
  · intro url hurl
    exact ⟨"a", by decide, (Option.some.inj hurl).symm⟩

/-- With a locked keychain the device is not configured, and the staged configuration stays. -/
theorem configure_with_locked_keychain :
    ∃ (s : ProfileStores) (luck : EditLuck) (artifacts : ArtifactLuck)
      (configuredDevice : ConfiguredDeviceState) (draft : ConfigureProfileDraft),
      luck.restorePassword = .ok () ∧
      ¬AllOrNothing
        (configuredChange (s.saved.configuredProfile plainPlatform configuredDevice draft ⟨none, none⟩
          luck) (stagedConfigURL "/Support" draft.profileID "a") "new") artifacts.discardBackup s
        (s.commitConfiguredProfile plainPlatform
          (s.saved.configuredProfile plainPlatform configuredDevice draft ⟨none, none⟩ luck)
          (stagedConfigURL "/Support" draft.profileID "a") "new" luck artifacts) := by
  refine ⟨oneStaged, lockedKeychain, luckyArtifacts, ⟨"office.local", none, none, none⟩,
    ⟨"1", some "1", none⟩, rfl, ?_⟩
  rw [commitConfiguredProfile_allOrNothing_iff "new" rfl]
  · rintro (h | h)
    · cases h
    · have hstaged : oneStaged.files (stagedConfigURL "/Support" "1" "a") =
          some "TC_HOST=root@office.local" := by
        simp only [oneStaged, if_pos]
      exact absurd (hstaged.symm.trans h) (Option.some_ne_none _)
  · exact staged_stagedConfigURL "/Support" "1" _ (by decide)

end ProfileStores

end TimeCapsule.App
