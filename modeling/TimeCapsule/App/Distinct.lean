import TimeCapsule.App.Registry

/-!
# No two profiles for one device

What holds of the registry after every sequence of operations, whichever of their file operations fail.
-/

namespace TimeCapsule.App

/-! ## Matching -/

namespace DeviceNetworkIdentity

variable (p : Platform) (left right : DeviceNetworkIdentity)

theorem any_contains_comm {keys keys' : List String} :
    (keys.any fun key => keys'.contains key) = keys'.any fun key => keys.contains key := by
  rw [Bool.eq_iff_iff]
  simp only [List.any_eq_true, List.contains_iff_mem]
  grind

theorem matches_comm : left.matches p right = right.matches p left := by
  rw [«matches», «matches», any_contains_comm]
  congr 1
  rw [Bool.eq_iff_iff]
  simp only [Bool.or_eq_true, Bool.and_eq_true, beq_iff_eq, decide_eq_true_eq]
  grind

end DeviceNetworkIdentity

namespace Registry

variable {p : Platform} {r r' : Registry} {profile existing : DeviceProfile} {luck : Luck}

/-- The Bonjour name is compared in the same way when profiles are merged and when they are updated. -/
theorem normalizedBonjourFullname_eq (value : Option String) :
    normalizedBonjourFullname p value =
      (DeviceNetworkIdentity.normalizedOptional p value).map p.lowercased := by
  cases value with
  | none => rfl
  | some value =>
    have hempty := p.lowercased_eq_empty (trimmingCharacters p.whitespacesAndNewlines value)
    simp only [normalizedBonjourFullname, DeviceNetworkIdentity.normalizedOptional, Option.bind_eq_bind,
      Option.bind_some, String.isEmpty_iff, hempty]
    split <;> rfl

theorem conflicting_eq_none {id : ProfileID} {has : DeviceProfile → Bool} :
    r.conflicting id has = none ↔ ∀ existing ∈ r.profiles, existing.id ≠ id → has existing = false := by
  simp [conflicting]

theorem fieldConflict_eq_none {field value : String} {id : ProfileID} {has : DeviceProfile → Bool} :
    r.fieldConflict field value id has = none ↔
      ∀ existing ∈ r.profiles, existing.id ≠ id → has existing = false := by
  rw [fieldConflict, Option.map_eq_none_iff, conflicting_eq_none]

theorem addressConflict_eq_none {id : ProfileID} : r.addressConflict p profile id = none ↔
    ∀ existing ∈ r.profiles, existing.id ≠ id →
      ((profile.network.matchableAddressKeys p).any fun key =>
        (existing.network.matchableAddressKeys p).contains key) = false := by
  simp only [addressConflict, Option.map_eq_none_iff, conflicting_eq_none]
  simp

theorem fullnameConflict_eq_none {id : ProfileID} :
    ((normalizedBonjourFullname p profile.bonjourFullname).bind fun normalizedFullname =>
      r.fieldConflict "Bonjour fullname" normalizedFullname id fun existing =>
        normalizedBonjourFullname p existing.bonjourFullname == some normalizedFullname) = none ↔
    ∀ existing ∈ r.profiles, existing.id ≠ id →
      ((profile.network.normalizedFullname p).isSome &&
        profile.network.normalizedFullname p == existing.network.normalizedFullname p) = false := by
  simp only [normalizedBonjourFullname_eq]
  change (profile.network.normalizedFullname p).bind _ = none ↔ _
  cases profile.network.normalizedFullname p with
  | none => simp
  | some name =>
    rw [Option.bind_some, fieldConflict_eq_none]
    apply forall₃_congr
    intro existing _ _
    change (existing.network.normalizedFullname p == some name) = false ↔ _
    rw [Option.isSome_some, Bool.true_and, BEq.comm]

/-- The host and the hostname are compared unless they are empty. -/
theorem valueConflict_eq_none (profile : DeviceProfile) (id : ProfileID) (field text : String)
    (value : DeviceProfile → String) :
    (if (value profile).isEmpty then none
      else r.fieldConflict field text id fun existing => value existing == value profile) = none ↔
    ∀ existing ∈ r.profiles, existing.id ≠ id →
      (decide (value profile ≠ "") && value profile == value existing) = false := by
  by_cases hempty : value profile = ""
  · simp [hempty]
  · rw [if_neg (by simpa using hempty), fieldConflict_eq_none]
    apply forall₃_congr
    intro existing _ _
    rw [decide_eq_true hempty, Bool.true_and, BEq.comm]

/-- An update is refused exactly when it would make the profile match another one. -/
theorem duplicateConflict_eq_none {id : ProfileID} : r.duplicateConflict p profile id = none ↔
    ∀ existing ∈ r.profiles, existing.id ≠ id → profile.matches p existing = false := by
  have hhost := valueConflict_eq_none (r := r) profile id "host"
    ((DeviceEndpointPolicy.hostComponent p (some profile.host)).getD (profile.normalizedHost p))
    fun profile => profile.normalizedHost p
  have hhostname := valueConflict_eq_none (r := r) profile id "hostname"
    (profile.network.normalizedHostname p) fun profile => profile.network.normalizedHostname p
  simp only [duplicateConflict, Option.or_eq_none_iff, fullnameConflict_eq_none, hhost, hhostname,
    addressConflict_eq_none]
  simp only [DeviceProfile.matches, DeviceNetworkIdentity.matches, Bool.or_eq_false_iff]
  constructor
  · rintro ⟨hfullname, hhost, hhostname, haddress⟩ existing hmem hne
    exact ⟨⟨⟨hfullname existing hmem hne, hhost existing hmem hne⟩, hhostname existing hmem hne⟩,
      haddress existing hmem hne⟩
  · intro h
    exact ⟨fun existing hmem hne => (h existing hmem hne).1.1.1,
      fun existing hmem hne => (h existing hmem hne).1.1.2,
      fun existing hmem hne => (h existing hmem hne).1.2,
      fun existing hmem hne => (h existing hmem hne).2⟩

/-! ## The invariant -/

/-- Two profiles that are told apart. -/
def Apart (p : Platform) (left right : DeviceProfile) : Prop :=
  left.id ≠ right.id ∧ left.matches p right = false

theorem Apart.symm {left right : DeviceProfile} (h : Apart p left right) : Apart p right left :=
  ⟨h.1.symm, (DeviceNetworkIdentity.matches_comm p _ _).trans h.2⟩

structure Sound (p : Platform) (r : Registry) : Prop where
  apart : r.profiles.Pairwise (Apart p)
  stored : ∀ profile ∈ r.profiles, profile.withStorageFields r.applicationSupportURL = profile
  written : r.file = r.profiles

/-- Nothing has been lost: the list, the file, and all directories that there were. -/
structure Unchanged (r r' : Registry) : Prop where
  profiles : r'.profiles = r.profiles
  file : r'.file = r.file
  applicationSupportURL : r'.applicationSupportURL = r.applicationSupportURL
  kept : ∀ path directory, r.directories path = some directory → r'.directories path = some directory

theorem Unchanged.refl (r : Registry) : Unchanged r r := ⟨rfl, rfl, rfl, fun _ _ h => h⟩

theorem Unchanged.trans {r'' : Registry} (h : Unchanged r r') (h' : Unchanged r' r'') :
    Unchanged r r'' where
  profiles := h'.profiles.trans h.profiles
  file := h'.file.trans h.file
  applicationSupportURL := h'.applicationSupportURL.trans h.applicationSupportURL
  kept path directory hpath := h'.kept path directory (h.kept path directory hpath)

theorem Sound.of_unchanged (h : r.Sound p) (hsame : Unchanged r r') : r'.Sound p where
  apart := hsame.profiles ▸ h.apart
  stored := by
    rw [hsame.profiles, hsame.applicationSupportURL]
    exact h.stored
  written := hsame.file.trans (h.written.trans hsame.profiles.symm)

theorem unchanged_createDirectory (path : String) : Unchanged r (r.createDirectory path) where
  profiles := rfl
  file := rfl
  applicationSupportURL := rfl
  kept path' directory h := by
    rw [createDirectory]
    exact (if_neg (by rintro ⟨rfl, hnone⟩; simp [h] at hnone)).trans h

/-- The directories are made, as far as that works. -/
theorem unchanged_createDirectories (luck : Luck) (id : ProfileID) :
    Unchanged r (r.createDirectories id luck).1 := by
  rw [createDirectories]
  cases luck.createDevices with
  | error message => exact .refl r
  | ok _ =>
    have hdevices := unchanged_createDirectory (r := r) r.devicesDirectoryURL
    cases luck.createConfig with
    | error message => exact hdevices
    | ok _ => exact hdevices.trans (unchanged_createDirectory _)

theorem persist_cases (luck : Luck) (profiles : List DeviceProfile) :
    (∃ e, r.persist profiles luck = (r, .error e)) ∨
    r.persist profiles luck =
      ({ r with file := profiles.map (·.withStorageFields r.applicationSupportURL) }, .ok ()) := by
  rw [persist]
  cases luck.createSupport with
  | error message => exact .inl ⟨_, rfl⟩
  | ok _ =>
    cases luck.encode with
    | error message => exact .inl ⟨_, rfl⟩
    | ok _ =>
      cases luck.write with
      | error message => exact .inl ⟨_, rfl⟩
      | ok _ => exact .inr rfl

theorem commit_cases (luck : Luck) (profiles : List DeviceProfile) :
    (∃ e, r.commit profiles luck = (r, .error e)) ∨
    r.commit profiles luck = ({ r with
      file := profiles.map (·.withStorageFields r.applicationSupportURL), profiles := profiles }, .ok ()) := by
  rw [commit]
  obtain ⟨e, hfailed⟩ | hdone := persist_cases (r := r) luck profiles
  · exact .inl ⟨e, by rw [hfailed]⟩
  · exact .inr (by rw [hdone])

theorem map_withStorageFields {profiles : List DeviceProfile} {url : String}
    (h : ∀ profile ∈ profiles, profile.withStorageFields url = profile) :
    profiles.map (·.withStorageFields url) = profiles :=
  (List.map_congr_left h).trans (List.map_id _)

/-- The list that is written is the list in memory. -/
theorem sound_commit (luck : Luck) {profiles : List DeviceProfile} (h : r.Sound p)
    (hapart : profiles.Pairwise (Apart p))
    (hstored : ∀ profile ∈ profiles, profile.withStorageFields r.applicationSupportURL = profile) :
    (r.commit profiles luck).1.Sound p := by
  obtain ⟨e, hfailed⟩ | hdone := commit_cases (r := r) luck profiles
  · rw [hfailed]
    exact h
  · rw [hdone]
    exact ⟨hapart, hstored, map_withStorageFields hstored⟩

theorem unchanged_commit {profiles : List DeviceProfile} {e : DeviceRegistryError}
    (h : (r.commit profiles luck).2 = .error e) : Unchanged r (r.commit profiles luck).1 := by
  obtain ⟨e', hfailed⟩ | hdone := commit_cases (r := r) luck profiles
  · rw [hfailed]
    exact .refl r
  · rw [hdone] at h
    exact absurd h (by simp)

theorem perm_sorted (profiles : List DeviceProfile) : (sorted profiles).Perm profiles :=
  List.mergeSort_perm _ _

theorem pairwise_sorted {profiles : List DeviceProfile} (h : profiles.Pairwise (Apart p)) :
    (sorted profiles).Pairwise (Apart p) :=
  ((perm_sorted profiles).pairwise_iff Apart.symm).mpr h

theorem mem_sorted {profiles : List DeviceProfile} : profile ∈ sorted profiles ↔ profile ∈ profiles :=
  (perm_sorted profiles).mem_iff

/-! ## Operations -/

/-- An operation that throws loses nothing, and every operation keeps the profiles apart. -/
structure Keeps (p : Platform) {α : Type} (r : Registry) (outcome : Registry × Except DeviceRegistryError α) :
    Prop where
  thrown : ∀ e, outcome.2 = .error e → Unchanged r outcome.1
  sound : r.Sound p → outcome.1.Sound p

theorem Keeps.after {α : Type} {outcome : Registry × Except DeviceRegistryError α}
    (hsame : Unchanged r r') (h : Keeps p r' outcome) : Keeps p r outcome where
  thrown e he := hsame.trans (h.thrown e he)
  sound hsound := h.sound (hsound.of_unchanged hsame)

theorem keeps_throw {α : Type} {e : DeviceRegistryError} (h : Unchanged r r') :
    Keeps p r (r', (.error e : Except DeviceRegistryError α)) where
  thrown _ _ := h
  sound hsound := hsound.of_unchanged h

theorem keeps_commit {α : Type} {profiles : List DeviceProfile} {value : α}
    (hlist : r.Sound p → profiles.Pairwise (Apart p) ∧
      ∀ profile ∈ profiles, profile.withStorageFields r.applicationSupportURL = profile) :
    Keeps p r ((r.commit profiles luck).1, (r.commit profiles luck).2.map fun _ => value) where
  thrown e he := by
    apply unchanged_commit (e := e)
    cases hout : (r.commit profiles luck).2 with
    | error e' =>
      simp only [hout, Except.map] at he
      simpa using he
    | ok _ => simp [hout, Except.map] at he
  sound hsound := sound_commit luck hsound (hlist hsound).1 (hlist hsound).2

/-- A profile that is saved takes the place of all that match it. -/
theorem keeps_saveProfileMergingDuplicates (profile : DeviceProfile) :
    Keeps p r (r.saveProfileMergingDuplicates p profile luck) := by
  rw [saveProfileMergingDuplicates]
  have hstorage : (profile.withStorageFields r.applicationSupportURL).withStorageFields
    r.applicationSupportURL = profile.withStorageFields r.applicationSupportURL := rfl
  generalize profile.withStorageFields r.applicationSupportURL = storedProfile at hstorage
  have hsame := unchanged_createDirectories (r := r) luck storedProfile.id
  dsimp only
  rcases hdirectories : r.createDirectories storedProfile.id luck with ⟨r', outcome⟩
  rw [hdirectories] at hsame
  cases outcome with
  | error e => exact keeps_throw hsame
  | ok _ =>
    apply Keeps.after hsame
    apply keeps_commit
    intro hsound
    constructor
    · apply pairwise_sorted
      rw [List.pairwise_append]
      refine ⟨hsound.apart.sublist List.filter_sublist, List.pairwise_singleton _ _, ?_⟩
      intro existing hexisting stored hstored
      have hfilter := (List.mem_filter.mp hexisting).2
      simp only [Bool.and_eq_true, Bool.not_eq_true', decide_eq_true_eq] at hfilter
      rw [List.mem_singleton.mp hstored]
      exact ⟨hfilter.2, hfilter.1⟩
    · intro existing hexisting
      rcases List.mem_append.mp (mem_sorted.mp hexisting) with hold | hnew
      · exact hsound.stored existing (List.mem_filter.mp hold).1
      · rw [List.mem_singleton.mp hnew, hsame.applicationSupportURL]
        exact hstorage

theorem findIdx_id {id : ProfileID} {index : Nat}
    (h : r.profiles.findIdx? (fun existing => existing.id = id) = some index) :
    ∃ hlt : index < r.profiles.length, r.profiles[index].id = id := by
  obtain ⟨hlt, hid, -⟩ := List.findIdx?_eq_some_iff_getElem.mp h
  exact ⟨hlt, by simpa using hid⟩

/-- A profile may be replaced by one of the same name that matches no other. -/
theorem Sound.set_profile (h : r.Sound p) {index : Nat} (hlt : index < r.profiles.length)
    (hid : r.profiles[index].id = profile.id)
    (hnone : ∀ existing ∈ r.profiles, existing.id ≠ profile.id → profile.matches p existing = false) :
    (r.profiles.set index profile).Pairwise (Apart p) := by
  have hapart := List.pairwise_iff_getElem.mp h.apart
  have hother : ∀ i (hi : i < r.profiles.length), i ≠ index → Apart p profile r.profiles[i] := by
    intro i hi hne
    have hids : r.profiles[i].id ≠ profile.id := by
      rw [← hid]
      rcases Nat.lt_or_gt_of_ne hne with hlt' | hlt'
      · exact (hapart i index hi hlt hlt').1
      · exact (hapart index i hlt hi hlt').1.symm
    exact ⟨hids.symm, hnone _ (List.getElem_mem hi) hids⟩
  rw [List.pairwise_iff_getElem]
  intro i j hi hj hij
  rw [List.length_set] at hi hj
  rw [List.getElem_set, List.getElem_set]
  split
  · rw [if_neg (by omega)]
    exact hother j hj (by omega)
  · split
    · exact (hother i hi (by omega)).symm
    · exact hapart i j hi hj hij

theorem keeps_updateProfile (profile : DeviceProfile) :
    Keeps p r (r.updateProfile p profile luck) := by
  rw [updateProfile]
  have hstorage : (profile.withStorageFields r.applicationSupportURL).withStorageFields
    r.applicationSupportURL = profile.withStorageFields r.applicationSupportURL := rfl
  generalize profile.withStorageFields r.applicationSupportURL = storedProfile at hstorage
  dsimp only
  cases hindex : r.profiles.findIdx? fun existing => existing.id = storedProfile.id with
  | none => exact keeps_throw (.refl r)
  | some index =>
    dsimp only
    cases hconflict : r.duplicateConflict p storedProfile storedProfile.id with
    | some conflict => exact keeps_throw (.refl r)
    | none =>
      dsimp only
      have hsame := unchanged_createDirectories (r := r) luck storedProfile.id
      obtain ⟨hlt, hid⟩ := findIdx_id hindex
      rcases hdirectories : r.createDirectories storedProfile.id luck with ⟨r', outcome⟩
      rw [hdirectories] at hsame
      cases outcome with
      | error e => exact keeps_throw hsame
      | ok _ =>
        apply Keeps.after hsame
        apply keeps_commit
        intro hsound
        have hprofiles : r'.profiles = r.profiles := hsame.profiles
        constructor
        · apply pairwise_sorted
          apply hsound.set_profile
          · simp only [hprofiles]
            exact hid
          · simp only [hprofiles]
            exact duplicateConflict_eq_none.mp hconflict
          · simp only [hprofiles]
            exact hlt
        · intro existing hexisting
          rcases List.mem_or_eq_of_mem_set (mem_sorted.mp hexisting) with hold | hnew
          · exact hsound.stored existing hold
          · rw [hnew, hsame.applicationSupportURL]
            simp only [DeviceProfile.withStorageFields, DeviceProfile.mk.injEq] at hstorage ⊢
            grind

/-- A background update changes neither the name of a profile nor its network. -/
theorem keeps_mutate {id : ProfileID} {skip : DeviceProfile → Bool}
    {change : DeviceProfile → DeviceProfile}
    (hchange : ∀ profile, (change profile).id = profile.id ∧ (change profile).network = profile.network ∧
      (change profile).configPath = profile.configPath ∧
      (change profile).keychainAccount = profile.keychainAccount) :
    Keeps p r (mutate id skip change luck r) := by
  rw [mutate]
  cases hindex : r.profiles.findIdx? fun profile => profile.id = id with
  | none => exact ⟨by simp, fun h => h⟩
  | some index =>
    dsimp only
    split
    · exact ⟨by simp, fun h => h⟩
    · apply keeps_commit
      intro hsound
      obtain ⟨hlt, -⟩ := findIdx_id hindex
      have happ : ∀ left right left' right' : DeviceProfile, left'.id = left.id → right'.id = right.id →
          left'.network = left.network → right'.network = right.network → Apart p left right →
          Apart p left' right' := by
        intro left right left' right' hl hr hln hrn hapart
        rw [Apart, DeviceProfile.matches, hl, hr, hln, hrn]
        exact hapart
      constructor
      · have hapart := List.pairwise_iff_getElem.mp hsound.apart
        rw [List.pairwise_iff_getElem]
        intro i j hi hj hij
        rw [List.length_modify] at hi hj
        have hij' := hapart i j hi hj hij
        rw [List.getElem_modify, List.getElem_modify]
        split <;> split <;> exact happ _ _ _ _ (by simp [hchange]) (by simp [hchange])
          (by simp [hchange]) (by simp [hchange]) hij'
      · intro existing hexisting
        obtain ⟨i, hi, rfl⟩ := List.getElem_of_mem hexisting
        rw [List.length_modify] at hi
        have hstored := hsound.stored _ (List.getElem_mem hi)
        rw [List.getElem_modify]
        split
        · obtain ⟨hid, -, hpath, haccount⟩ := hchange r.profiles[i]
          simp only [DeviceProfile.withStorageFields, DeviceProfile.mk.injEq] at hstored ⊢
          grind
        · exact hstored

/-! ## Deletion -/

theorem moveItem_cases (source target : String) (outcome : Except String Unit) :
    (∃ e, r.moveItem source target outcome = (r, .error e)) ∨
    ∃ directory, r.directories source = some directory ∧ r.directories target = none ∧
      r.moveItem source target outcome = (r.moved source target directory, .ok ()) := by
  cases outcome with
  | error message => exact .inl ⟨_, rfl⟩
  | ok _ =>
    rw [moveItem]
    cases hsource : r.directories source with
    | none => exact .inl ⟨_, rfl⟩
    | some directory =>
      cases htarget : r.directories target with
      | none => exact .inr ⟨directory, rfl, rfl, rfl⟩
      | some _ => exact .inl ⟨_, rfl⟩

/-- The directory of the device has been put away, or nothing has happened to it. -/
theorem stage_cases (luck : Luck) (inside : String → Bool) (id : ProfileID) :
    (∃ r', Unchanged r r' ∧ ((∃ e, r.stageConfigDirectoryDelete inside id luck = (r', .error e)) ∨
      r.stageConfigDirectoryDelete inside id luck = (r', .ok none))) ∨
    ∃ r' directory, Unchanged r r' ∧ r'.directories (r.configDirectory id) = some directory ∧
      r'.directories (r.stagedDirectory id luck) = none ∧
      r.stageConfigDirectoryDelete inside id luck =
        (r'.moved (r.configDirectory id) (r.stagedDirectory id luck) directory,
          .ok (some (r.stagedDirectory id luck))) := by
  rw [stageConfigDirectoryDelete]
  split
  · exact .inl ⟨r, .refl r, .inr rfl⟩
  · split
    · exact .inl ⟨r, .refl r, .inl ⟨_, rfl⟩⟩
    · cases luck.createStaging with
      | error message => exact .inl ⟨r, .refl r, .inl ⟨_, rfl⟩⟩
      | ok _ =>
        have hsame := unchanged_createDirectory (r := r) (r.devicesDirectoryURL ++ "/.Staging")
        rcases moveItem_cases (r := r.createDirectory (r.devicesDirectoryURL ++ "/.Staging"))
          (r.configDirectory id) (r.stagedDirectory id luck) luck.stage with
          ⟨e, hfailed⟩ | ⟨directory, hsource, htarget, hmoved⟩
        · refine .inl ⟨_, hsame, .inl ⟨e, ?_⟩⟩
          dsimp only
          rw [show configDirectory (createDirectory _ r) id = r.configDirectory id from rfl, hfailed]
        · refine .inr ⟨_, directory, hsame, hsource, htarget, ?_⟩
          dsimp only
          rw [show configDirectory (createDirectory _ r) id = r.configDirectory id from rfl, hmoved]

/-- What was put away is put back, and nothing is missing. -/
theorem unchanged_restore {r' : Registry} {id : ProfileID} {directory : Directory} {staged : String}
    (hsame : Unchanged r r') (hsource : r'.directories (r'.configDirectory id) = some directory)
    (htarget : r'.directories staged = none) (hrestore : luck.restore = .ok ()) :
    Unchanged r ((r'.moved (r'.configDirectory id) staged directory).restoreStagedConfigDirectory
      (some staged) id luck) := by
  have hne : r'.configDirectory id ≠ staged := by
    intro heq
    rw [heq, htarget] at hsource
    exact absurd hsource (by simp)
  have hback : (r'.moved (r'.configDirectory id) staged directory).restoreStagedConfigDirectory
      (some staged) id luck =
      (r'.moved (r'.configDirectory id) staged directory).moved staged (r'.configDirectory id)
        directory := by
    have hfrom : (r'.moved (r'.configDirectory id) staged directory).directories staged =
      some directory := if_pos rfl
    have hto : (r'.moved (r'.configDirectory id) staged directory).directories
        (r'.configDirectory id) = none := (if_neg hne).trans (if_pos rfl)
    rw [restoreStagedConfigDirectory, hfrom, if_neg (by simp), hrestore,
      show configDirectory (moved _ _ _ r') id = r'.configDirectory id from rfl, moveItem, hfrom]
    dsimp only
    rw [hto]
    rfl
  rw [hback]
  refine ⟨hsame.profiles, hsame.file, hsame.applicationSupportURL, fun path directory' hpath => ?_⟩
  have hkept := hsame.kept path directory' hpath
  simp only [moved]
  by_cases hconfig : path = r'.configDirectory id
  · subst hconfig
    rw [if_pos rfl, ← hsource, hkept]
  · have hstaged : path ≠ staged := by
      rintro rfl
      rw [htarget] at hkept
      exact absurd hkept (by simp)
    rw [if_neg hconfig, if_neg hstaged, if_neg hstaged, if_neg hconfig]
    exact hkept

theorem sound_delete_list (h : r.Sound p) (has : DeviceProfile → Bool) :
    (r.profiles.filter has).Pairwise (Apart p) ∧ ∀ profile ∈ r.profiles.filter has,
      profile.withStorageFields r.applicationSupportURL = profile :=
  ⟨h.apart.sublist List.filter_sublist,
    fun profile hmem => h.stored profile (List.mem_filter.mp hmem).1⟩

/-- Where directories are does not matter to the list. -/
theorem Sound.of_lists (h : r.Sound p) (hprofiles : r'.profiles = r.profiles)
    (hfile : r'.file = r.file) (hurl : r'.applicationSupportURL = r.applicationSupportURL) :
    r'.Sound p where
  apart := hprofiles ▸ h.apart
  stored := by
    rw [hprofiles, hurl]
    exact h.stored
  written := hfile.trans (h.written.trans hprofiles.symm)

theorem lists_removeStaged (luck : Luck) (staged : Option String) :
    (r.removeStagedConfigDirectory staged luck).profiles = r.profiles ∧
      (r.removeStagedConfigDirectory staged luck).file = r.file ∧
      (r.removeStagedConfigDirectory staged luck).applicationSupportURL = r.applicationSupportURL := by
  cases staged with
  | none => exact ⟨rfl, rfl, rfl⟩
  | some staged =>
    cases hremove : luck.remove with
    | error message => simp [removeStagedConfigDirectory, hremove]
    | ok _ => simp [removeStagedConfigDirectory, removeItem, hremove]

theorem lists_restore (luck : Luck) (staged : Option String) (id : ProfileID) :
    (r.restoreStagedConfigDirectory staged id luck).profiles = r.profiles ∧
      (r.restoreStagedConfigDirectory staged id luck).file = r.file ∧
      (r.restoreStagedConfigDirectory staged id luck).applicationSupportURL =
        r.applicationSupportURL := by
  cases staged with
  | none => exact ⟨rfl, rfl, rfl⟩
  | some staged =>
    rw [restoreStagedConfigDirectory]
    split
    · exact ⟨rfl, rfl, rfl⟩
    · rcases moveItem_cases (r := r) staged (r.configDirectory id) luck.restore with
        ⟨e, hfailed⟩ | ⟨directory, -, -, hmoved⟩
      · rw [hfailed]
        exact ⟨rfl, rfl, rfl⟩
      · rw [hmoved]
        exact ⟨rfl, rfl, rfl⟩

/-- What follows when the directory has been put away as given. -/
def afterStage (staged : Option String) (id : ProfileID) (profiles : List DeviceProfile) (luck : Luck)
    (r : Registry) : Registry × Except DeviceRegistryError Unit :=
  match r.commit profiles luck with
  | (r, .error e) => (r.restoreStagedConfigDirectory staged id luck, .error e)
  | (r, .ok ()) => (r.removeStagedConfigDirectory staged luck, .ok ())

theorem sound_afterStage (staged : Option String) (id : ProfileID) (has : DeviceProfile → Bool)
    (h : r.Sound p) : (r.afterStage staged id (r.profiles.filter has) luck).1.Sound p := by
  obtain ⟨hapart, hstored⟩ := sound_delete_list h has
  have hsound := sound_commit luck h hapart hstored
  rw [afterStage]
  rcases hcommit : r.commit (r.profiles.filter has) luck with ⟨r', outcome⟩
  rw [hcommit] at hsound
  cases outcome with
  | error e =>
    obtain ⟨hprofiles, hfile, hurl⟩ := lists_restore (r := r') luck staged id
    exact hsound.of_lists hprofiles hfile hurl
  | ok _ =>
    obtain ⟨hprofiles, hfile, hurl⟩ := lists_removeStaged (r := r') luck staged
    exact hsound.of_lists hprofiles hfile hurl

/-- When the list cannot be written, the directory is put back. -/
theorem afterStage_error {staged : Option String} {id : ProfileID} {profiles : List DeviceProfile}
    {e : DeviceRegistryError} (h : (r.afterStage staged id profiles luck).2 = .error e) :
    (r.afterStage staged id profiles luck).1 = r.restoreStagedConfigDirectory staged id luck := by
  rw [afterStage] at h ⊢
  obtain ⟨e', hfailed⟩ | hdone := commit_cases (r := r) luck profiles
  · rw [hfailed]
  · rw [hdone] at h
    exact absurd h (by simp)

theorem sound_delete (inside : String → Bool) (profile : DeviceProfile) (h : r.Sound p) :
    (r.delete inside profile luck).1.Sound p := by
  rw [delete]
  generalize profile.withStorageFields r.applicationSupportURL = storedProfile
  rcases stage_cases (r := r) luck inside storedProfile.id with
    ⟨r', hsame, ⟨e, hstage⟩ | hstage⟩ | ⟨r', directory, hsame, -, -, hstage⟩
  · rw [hstage]
    exact h.of_unchanged hsame
  · rw [hstage, ← hsame.profiles]
    exact sound_afterStage none storedProfile.id _ (h.of_unchanged hsame)
  · rw [hstage, ← hsame.profiles]
    exact sound_afterStage (r := r'.moved _ _ directory) (some _) storedProfile.id _
      ((h.of_unchanged hsame).of_lists rfl rfl rfl)

theorem lists_delete {inside : String → Bool} {e : DeviceRegistryError}
    (h : (r.delete inside profile luck).2 = .error e) :
    (r.delete inside profile luck).1.profiles = r.profiles ∧
      (r.delete inside profile luck).1.file = r.file := by
  rw [delete] at h ⊢
  revert h
  generalize profile.withStorageFields r.applicationSupportURL = storedProfile
  rcases stage_cases (r := r) luck inside storedProfile.id with
    ⟨r', hsame, ⟨e', hstage⟩ | hstage⟩ | ⟨r', directory, hsame, -, -, hstage⟩
  · rw [hstage]
    exact fun _ => ⟨hsame.profiles, hsame.file⟩
  · rw [hstage]
    intro h
    exact afterStage_error h ▸ ⟨hsame.profiles, hsame.file⟩
  · rw [hstage]
    intro h
    obtain ⟨hprofiles, hfile, -⟩ := lists_restore
      (r := r'.moved (r.configDirectory storedProfile.id) (r.stagedDirectory storedProfile.id luck)
        directory) luck (some (r.stagedDirectory storedProfile.id luck)) storedProfile.id
    exact afterStage_error h ▸ ⟨hprofiles.trans hsame.profiles, hfile.trans hsame.file⟩

/-- A profile is deleted with its directory, or both stay. -/
theorem unchanged_delete {inside : String → Bool} {e : DeviceRegistryError}
    (hrestore : luck.restore = .ok ()) (h : (r.delete inside profile luck).2 = .error e) :
    Unchanged r (r.delete inside profile luck).1 := by
  rw [delete] at h ⊢
  revert h
  generalize profile.withStorageFields r.applicationSupportURL = storedProfile
  rcases stage_cases (r := r) luck inside storedProfile.id with
    ⟨r', hsame, ⟨e', hstage⟩ | hstage⟩ | ⟨r', directory, hsame, hsource, htarget, hstage⟩
  · rw [hstage]
    exact fun _ => hsame
  · rw [hstage]
    intro h
    exact hsame.trans (afterStage_error h ▸ .refl r')
  · rw [hstage]
    intro h
    have hconfig : r'.configDirectory storedProfile.id = r.configDirectory storedProfile.id := by
      rw [configDirectory, hsame.applicationSupportURL, configDirectory]
    rw [← hconfig] at hsource h ⊢
    exact afterStage_error h ▸ unchanged_restore hsame hsource htarget hrestore

/-! ## Runs -/

theorem Keeps.void {α : Type} {outcome : Registry × Except DeviceRegistryError α}
    (h : Keeps p r outcome) :
    Keeps p r (outcome.map id fun outcome => outcome.map fun _ => ()) where
  thrown e he := by
    obtain ⟨r', _ | _⟩ := outcome
    · exact h.thrown _ rfl
    · exact absurd he (by simp [Except.map])
  sound := h.sound

/-- What an operation that throws leaves behind. -/
structure Refused (luck : Luck) (r r' : Registry) : Prop where
  profiles : r'.profiles = r.profiles
  file : r'.file = r.file
  kept : luck.restore = .ok () → ∀ path directory, r.directories path = some directory →
    r'.directories path = some directory

theorem Unchanged.refused (luck : Luck) (h : Unchanged r r') : Refused luck r r' :=
  ⟨h.profiles, h.file, fun _ => h.kept⟩

/-- One operation. -/
theorem keeps_perform (inside : String → Bool) (luck : Luck) (operation : Operation) :
    (r.Sound p → (r.perform p inside luck operation).1.Sound p) ∧
    ∀ e, (r.perform p inside luck operation).2 = .error e →
      Refused luck r (r.perform p inside luck operation).1 := by
  have hkeeps {α : Type} {outcome : Registry × Except DeviceRegistryError α} (h : Keeps p r outcome) :=
    And.intro h.void.sound fun e he => (h.void.thrown e he).refused luck
  cases operation with
  | saveProfileMergingDuplicates profile => exact hkeeps (keeps_saveProfileMergingDuplicates profile)
  | saveConfiguredDevice configuredDevice discoveredDevice passwordState preferredID =>
    exact hkeeps (keeps_saveProfileMergingDuplicates _)
  | updateProfile profile => exact hkeeps (keeps_updateProfile profile)
  | delete profile =>
    refine ⟨sound_delete inside profile, fun e he => ?_⟩
    obtain ⟨hprofiles, hfile⟩ := lists_delete he
    exact ⟨hprofiles, hfile, fun hrestore => (unchanged_delete hrestore he).kept⟩
  | updatePasswordState state profileID =>
    exact hkeeps (keeps_mutate fun _ => ⟨rfl, rfl, rfl, rfl⟩)
  | updateCheckup snapshot runtimeState profileID =>
    exact hkeeps (keeps_mutate fun _ => ⟨rfl, rfl, rfl, rfl⟩)
  | clearCheckup profileID => exact hkeeps (keeps_mutate fun _ => ⟨rfl, rfl, rfl, rfl⟩)
  | updateDeployState snapshot profileID =>
    exact hkeeps (keeps_mutate fun _ => ⟨rfl, rfl, rfl, rfl⟩)
  | updateInstallOperationState deployState runtimeState rsyncEnabled profileID =>
    exact hkeeps (keeps_mutate fun _ => ⟨rfl, rfl, rfl, rfl⟩)
  | updateRuntimeState snapshot profileID =>
    exact hkeeps (keeps_mutate fun _ => ⟨rfl, rfl, rfl, rfl⟩)
  | clearInstallState profileID => exact hkeeps (keeps_mutate fun _ => ⟨rfl, rfl, rfl, rfl⟩)

theorem sound_run {inside : String → Bool} (h : r.Sound p)
    (hrun : Relation.ReflTransGen (Step p inside) r r') : r'.Sound p := by
  induction hrun with
  | refl => exact h
  | tail _ hstep ih =>
    obtain ⟨luck, operation, rfl⟩ := hstep
    exact (keeps_perform inside luck operation).1 ih

theorem withStorageFields_interrupted {now : Date} {url : String}
    (h : profile.withStorageFields url = profile) :
    (profileWithInterruptedRuntimeState now profile).withStorageFields url =
      profileWithInterruptedRuntimeState now profile := by
  simp only [DeviceProfile.withStorageFields, profileWithInterruptedRuntimeState] at h ⊢
  grind

/-- What is in memory after loading is in the file, with the storage fields that the registry gives. -/
theorem sound_load {decoded : Except DeviceRegistryError (Option (List DeviceProfile))}
    (h : (r.load decoded luck).2 = .ok ())
    (hapart : (r.load decoded luck).1.profiles.Pairwise (Apart p)) :
    (r.load decoded luck).1.Sound p := by
  rcases hdevices : luck.createDevices with message | ⟨⟩
  · simp only [load, hdevices, reduceCtorEq] at h
  rcases decoded with e | _ | decoded
  · simp only [load, hdevices, reduceCtorEq] at h
  · simp only [load, hdevices]
    exact ⟨.nil, by simp, rfl⟩
  simp only [load, hdevices] at h hapart ⊢
  have hloaded : ∀ profile ∈ sorted (decoded.map (·.withStorageFields r.applicationSupportURL)),
      profile.withStorageFields r.applicationSupportURL = profile := by
    simp only [mem_sorted, List.mem_map]
    rintro _ ⟨profile, -, rfl⟩
    rfl
  generalize sorted (decoded.map (·.withStorageFields r.applicationSupportURL)) = loadedProfiles
    at h hapart hloaded ⊢
  have hstored : ∀ profile ∈ sorted (loadedProfiles.map (profileWithInterruptedRuntimeState luck.now)),
      profile.withStorageFields r.applicationSupportURL = profile := by
    simp only [mem_sorted, List.mem_map]
    rintro _ ⟨profile, hmem, rfl⟩
    exact withStorageFields_interrupted (hloaded profile hmem)
  generalize sorted (loadedProfiles.map (profileWithInterruptedRuntimeState luck.now)) = profiles
    at h hapart hstored ⊢
  by_cases heq : profiles = loadedProfiles
  · simp only [if_pos heq] at hapart ⊢
    exact ⟨hapart, hstored, heq.symm⟩
  · simp only [if_neg heq] at h hapart ⊢
    rcases persist_cases (r := { r.createDirectory r.devicesDirectoryURL with
      profiles := profiles, file := loadedProfiles }) luck profiles with ⟨e, hfailed⟩ | hdone
    · simp only [hfailed, reduceCtorEq] at h
    · simp only [hdone] at hapart ⊢
      exact ⟨hapart, hstored, map_withStorageFields hstored⟩

/-- From a registry that was loaded with profiles that are told apart, they are told apart after every
run, the file has the list in memory, and an operation that throws loses nothing. -/
theorem profiles_stay_apart {inside : String → Bool} {luck : Luck}
    {decoded : Except DeviceRegistryError (Option (List DeviceProfile))}
    (hload : (r.load decoded luck).2 = .ok ())
    (hapart : (r.load decoded luck).1.profiles.Pairwise (Apart p))
    (hrun : Relation.ReflTransGen (Step p inside) (r.load decoded luck).1 r') :
    r'.profiles.Pairwise (Apart p) ∧ r'.file = r'.profiles ∧
      ∀ luck operation e, (r'.perform p inside luck operation).2 = .error e →
        Refused luck r' (r'.perform p inside luck operation).1 := by
  have hsound := sound_run (sound_load hload hapart) hrun
  exact ⟨hsound.apart, hsound.written, fun luck operation => (keeps_perform inside luck operation).2⟩

/-- A saved device of which nothing is known but where it is. -/
def plainProfile (id host : String) : DeviceProfile :=
  DeviceProfile.make plainPlatform id ⟨host, none, none, none⟩ none "/Support" none 1

def lucky : Luck where
  now := 2
  uuid := "0"
  createDevices := .ok ()
  createConfig := .ok ()
  createStaging := .ok ()
  stage := .ok ()
  createSupport := .ok ()
  encode := .ok ()
  write := .ok ()
  restore := .ok ()
  remove := .ok ()

def emptySupport : Registry where
  applicationSupportURL := "/Support"
  profiles := []
  file := []
  directories _ := none

/-- One device is loaded, and another is deleted, which is not there. -/
theorem loaded_profile_stays_apart :
    let r := (emptySupport.load (.ok (some [plainProfile "1" "office.local"])) lucky).1
    let r' := (r.perform plainPlatform (fun _ => true) lucky
      (.delete (plainProfile "2" "home.local"))).1
    r'.profiles.Pairwise (Apart plainPlatform) ∧ r'.file = r'.profiles ∧
      ∀ luck operation e, (r'.perform plainPlatform (fun _ => true) luck operation).2 = .error e →
        Refused luck r' (r'.perform plainPlatform (fun _ => true) luck operation).1 := by
  intro r r'
  have hsorted : sorted [plainProfile "1" "office.local"] = [plainProfile "1" "office.local"] :=
    List.mergeSort_singleton _
  have hload : emptySupport.load (.ok (some [plainProfile "1" "office.local"])) lucky =
      ({ emptySupport.createDirectory emptySupport.devicesDirectoryURL with
        profiles := [plainProfile "1" "office.local"], file := [plainProfile "1" "office.local"] },
        .ok ()) := by
    have hsame : sorted ((sorted [plainProfile "1" "office.local"]).map
        (profileWithInterruptedRuntimeState 2)) = [plainProfile "1" "office.local"] := by
      rw [hsorted]
      exact hsorted
    simp only [load, lucky, emptySupport, List.map_cons, List.map_nil] at hsorted hsame ⊢
    rw [show (plainProfile "1" "office.local").withStorageFields "/Support" =
      plainProfile "1" "office.local" from rfl, if_pos (hsame.trans hsorted.symm), hsame, hsorted]
  refine profiles_stay_apart (r := emptySupport) ?_ ?_ (.single ⟨lucky, _, rfl⟩)
  · rw [hload]
  · rw [hload]
    exact List.pairwise_singleton _ _

end Registry

end TimeCapsule.App
