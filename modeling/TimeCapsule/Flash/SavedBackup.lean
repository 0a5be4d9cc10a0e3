import TimeCapsule.Flash.Freshness

/-!
# Inspecting a saved backup

The live LOGIN script is not kept in a backup, only what it said about each bank.  The manifest
describes the inspection it was made from, plans keep the description, and inspecting the directory
again gives the same inspection.
-/

namespace TimeCapsule.Flash

open Lib

/-! ## What the manifest says -/

/-- The entry of a bank keeps its hash, its checksum and the verdict on the live LOGIN script. -/
structure EntryOf (entry : JsonObject) (name : String) (data : Bytes) (cks : Option Nat)
    (liveLogin : Option Bool) : Prop where
  name : entry.lookup "name" = some (.str name)
  sha256 : entry.lookup "sha256" = some (.str (sha256Hex data))
  acpChecksum : entry.lookup "acp_checksum" = some (jsonHex cks)
  liveLoginMatch : entry.lookup "live_login_match" = some (jsonBool liveLogin)

/-- The manifest of an unused backup with this inspection. -/
structure Describes (dir : String) (inputs : FlashInputs) (osRelease : String)
    (inspection : FlashInspection) (manifest : JsonObject) : Prop where
  unused : manifest.lookup "write_outcome" = none
  osRelease : manifest.lookup "os_release" = some (.str osRelease)
  properties : manifest.lookup "acp_properties" =
    some (.obj [("cks1", jsonNat inputs.cks1), ("cks2", jsonNat inputs.cks2)])
  files : ∃ files, manifest.lookup "files" = some (.obj files) ∧
    files.lookup "primary" = some (.str (rawBank dir "primary").text) ∧
    files.lookup "secondary" = some (.str (rawBank dir "secondary").text)
  banks : ∃ primary secondary, manifest.lookup "banks" = some (.list [.obj primary, .obj secondary]) ∧
    EntryOf primary "primary" inputs.primary inputs.cks1 inspection.primary.liveLoginMatch ∧
    EntryOf secondary "secondary" inputs.secondary inputs.cks2 inspection.secondary.liveLoginMatch

/-! ## Entries -/

section Entries

variable {env : FlashEnv} {name device osRelease decision : String} {data : Bytes}
  {cks : Option Nat} {candidate : Bool} {liveLogin : Option Bytes} {saved : Option Bool}
  {bank : BankAnalysis} {i : BankInspection} {entry : JsonObject}

theorem EntryOf.dictSet {verdict : Option Bool} (h : EntryOf entry name data cks verdict) {key : String}
    {value : Json} (hkey : key ∉ ["name", "sha256", "acp_checksum", "live_login_match"]) :
    EntryOf (dictSet entry key value) name data cks verdict := by
  have hne : ∀ known ∈ ["name", "sha256", "acp_checksum", "live_login_match"], known ≠ key :=
    fun _ hmem heq => hkey (heq ▸ hmem)
  exact
    { name := (lookup_dictSet_of_ne (hne _ (by decide))).trans h.name
      sha256 := (lookup_dictSet_of_ne (hne _ (by decide))).trans h.sha256
      acpChecksum := (lookup_dictSet_of_ne (hne _ (by decide))).trans h.acpChecksum
      liveLoginMatch := (lookup_dictSet_of_ne (hne _ (by decide))).trans h.liveLoginMatch }

theorem analyzeBank_sha256 (h : analyzeBank env name device data cks osRelease candidate = .ok bank) :
    bank.sha256 = sha256Hex data := by
  cases hplain : analyzeBank env name device data cks osRelease false with
  | error e =>
    cases candidate with
    | false => exact absurd (hplain.symm.trans h) (by simp)
    | true =>
      rw [analyzeBank_candidate, hplain] at h
      exact absurd h (by simp [bind, Except.bind])
  | ok plain =>
    have hsame : bank.sha256 = plain.sha256 := by
      obtain ⟨bank', hbank', heq⟩ := analyzeBank_of_false candidate hplain
      obtain rfl := Except.ok.inj (h.symm.trans hbank')
      exact congrArg (·.sha256) heq
    rw [hsame]
    obtain ⟨footer, -, hplain⟩ := bind_eq_ok.mp hplain
    obtain ⟨member, -, hplain⟩ := bind_eq_ok.mp hplain
    obtain rfl := Except.ok.inj hplain
    rfl

/-- The entry written for a bank keeps what a second inspection needs. -/
theorem inspectBank_entry
    (h : inspectBank env name device data cks osRelease candidate liveLogin saved = .ok i) :
    EntryOf (bankInspectionToJsonable i decision) name data cks i.liveLoginMatch := by
  unfold inspectBank at h
  split at h
  · obtain rfl := Except.ok.inj h
    exact ⟨rfl, rfl, rfl, rfl⟩
  · exact absurd h (by simp)
  · rename_i bank hbank
    obtain rfl := Except.ok.inj h
    have hbank' := analyzeBank_ok hbank
    constructor
    · refine (lookup_dictUpdate_of_notMem (by simp [inspectionMembers])).trans ?_
      exact congrArg (some <| Json.str ·) hbank'.name_eq
    · refine (lookup_dictUpdate_of_notMem (by simp [inspectionMembers])).trans ?_
      exact congrArg (some <| Json.str ·) (analyzeBank_sha256 hbank)
    · refine (lookup_dictUpdate_of_notMem (by simp [inspectionMembers])).trans ?_
      exact congrArg (some <| jsonHex ·) hbank'.acpChecksum_eq
    · exact lookup_dictUpdate_append [_, _, _, _] (by simp)

end Entries

/-! ## Writing the description -/

section Describing

variable {env : FlashEnv} {dir osRelease : String} {inputs : FlashInputs} {i j : FlashInspection}
  {manifest p s : JsonObject} {f : JsonObject → JsonObject} {operation : FlashOperation}
  {candidate : Bool} {liveLogin : Option Bytes} {saved : Option (List (String × Option Bool))}

theorem lookup_mapBanks (h : manifest.lookup "banks" = some (.list [.obj p, .obj s])) :
    (mapBanks f manifest).lookup "banks" = some (.list [.obj (f p), .obj (f s)]) := by
  rw [mapBanks, h]
  exact lookup_dictSet_self

theorem lookup_mapBanks_of_ne {key : String} (h : key ≠ "banks") :
    (mapBanks f manifest).lookup key = manifest.lookup key := by
  unfold mapBanks
  split
  · exact lookup_dictSet_of_ne h
  · rfl

/-- The entries that are saved with an inspection. -/
theorem lookup_inspectionPayload (operation : FlashOperation)
    (h : inspectFlashBanks env inputs.primary inputs.secondary inputs.cks1 inputs.cks2 osRelease
      candidate liveLogin saved = .ok i) :
    ∃ p s, (inspectionPayload operation i).lookup "banks" = some (.list [.obj p, .obj s]) ∧
      EntryOf p "primary" inputs.primary inputs.cks1 i.primary.liveLoginMatch ∧
      EntryOf s "secondary" inputs.secondary inputs.cks2 i.secondary.liveLoginMatch := by
  obtain ⟨primary, hprimary, h⟩ := bind_eq_ok.mp h
  obtain ⟨secondary, hsecondary, h⟩ := bind_eq_ok.mp h
  obtain rfl := Except.ok.inj h
  unfold inspectionPayload
  dsimp only
  split
  · refine ⟨_, _, lookup_mapBanks rfl, ?_, ?_⟩
    · exact ((inspectBank_entry hprimary).dictSet (by decide)).dictSet (by decide)
    · exact ((inspectBank_entry hsecondary).dictSet (by decide)).dictSet (by decide)
  · exact ⟨_, _, rfl, inspectBank_entry hprimary, inspectBank_entry hsecondary⟩

theorem lookup_inspectionPayload_of_ne {key : String}
    (h : key ∉ ["active_bank", "write_policy", "active_selection", "banks"]) :
    (inspectionPayload operation i).lookup key = none := by
  have hplain : (inspectionToJsonable i (writePolicyForOperation operation)).lookup key = none := by
    rw [List.lookup_eq_none_iff]
    intro entry hentry
    have hmem : entry.1 ∈ (inspectionToJsonable i (writePolicyForOperation operation)).map Prod.fst :=
      List.mem_map_of_mem hentry
    have hne : key ≠ entry.1 := fun heq => h (by rw [heq]; exact hmem)
    exact bne_iff_ne.mpr hne
  unfold inspectionPayload
  dsimp only
  split
  · exact (lookup_mapBanks_of_ne fun heq => h (by rw [heq]; decide)).trans hplain
  · exact hplain

/-- A new manifest describes the inspection it was made from. -/
theorem describes_manifestFromInspection {target : FlashTarget}
    (h : inspectFlashBanks env inputs.primary inputs.secondary inputs.cks1 inputs.cks2
      target.osRelease candidate liveLogin saved = .ok i) :
    Describes dir inputs target.osRelease i
      (manifestFromInspection operation i target inputs dir) where
  unused := (lookup_dictUpdate_of_notMem (by simp)).trans (lookup_inspectionPayload_of_ne (by decide))
  osRelease := lookup_dictUpdate_append [_, _, _, _] (by simp)
  properties := lookup_dictUpdate_append [_, _, _, _, _, _, _] (by simp)
  files := ⟨_, lookup_dictUpdate_append [_, _, _, _, _, _] (by simp), rfl, rfl⟩
  banks := by
    obtain ⟨p, s, hbanks, hentries⟩ := lookup_inspectionPayload operation h
    exact ⟨p, s, (lookup_dictUpdate_of_notMem (by simp)).trans hbanks, hentries⟩

theorem Describes.dictSet (h : Describes dir inputs osRelease i manifest) {key : String}
    {value : Json}
    (hkey : key ∉ ["write_outcome", "os_release", "acp_properties", "files", "banks"]) :
    Describes dir inputs osRelease i (dictSet manifest key value) := by
  have hkept : ∀ known ∈ ["write_outcome", "os_release", "acp_properties", "files", "banks"],
      (Lib.dictSet manifest key value).lookup known = manifest.lookup known :=
    fun _ hmem => lookup_dictSet_of_ne fun heq => hkey (heq ▸ hmem)
  obtain ⟨files, hfiles, hpaths⟩ := h.files
  obtain ⟨p, s, hbanks, hentries⟩ := h.banks
  exact
    { unused := (hkept _ (by decide)).trans h.unused
      osRelease := (hkept _ (by decide)).trans h.osRelease
      properties := (hkept _ (by decide)).trans h.properties
      files := ⟨files, (hkept _ (by decide)).trans hfiles, hpaths⟩
      banks := ⟨p, s, (hkept _ (by decide)).trans hbanks, hentries⟩ }

/-- Listing another file. -/
theorem Describes.setManifestFile (h : Describes dir inputs osRelease i manifest) {key : String}
    {path : Path} (hprimary : "primary" ≠ key) (hsecondary : "secondary" ≠ key) :
    Describes dir inputs osRelease i (setManifestFile manifest key path) := by
  obtain ⟨files, hfiles, hp, hs⟩ := h.files
  obtain ⟨p, s, hbanks, hentries⟩ := h.banks
  have hkept : ∀ known, known ≠ "files" →
      (Flash.setManifestFile manifest key path).lookup known = manifest.lookup known := by
    intro known hknown
    rw [Flash.setManifestFile, hfiles]
    exact lookup_dictSet_of_ne hknown
  refine
    { unused := (hkept _ (by decide)).trans h.unused
      osRelease := (hkept _ (by decide)).trans h.osRelease
      properties := (hkept _ (by decide)).trans h.properties
      files := ⟨Lib.dictSet files key (.str path.text), ?_, ?_, ?_⟩
      banks := ⟨p, s, (hkept _ (by decide)).trans hbanks, hentries⟩ }
  · rw [Flash.setManifestFile, hfiles]
    exact lookup_dictSet_self
  · exact (lookup_dictSet_of_ne hprimary).trans hp
  · exact (lookup_dictSet_of_ne hsecondary).trans hs

/-- Changing the entries without touching what is read back. -/
theorem Describes.mapBanks (h : Describes dir inputs osRelease i manifest)
    (hf : ∀ {entry name data cks verdict}, EntryOf entry name data cks verdict →
      EntryOf (f entry) name data cks verdict) :
    Describes dir inputs osRelease i (mapBanks f manifest) := by
  obtain ⟨files, hfiles, hpaths⟩ := h.files
  obtain ⟨p, s, hbanks, hp, hs⟩ := h.banks
  exact
    { unused := (lookup_mapBanks_of_ne (by decide)).trans h.unused
      osRelease := (lookup_mapBanks_of_ne (by decide)).trans h.osRelease
      properties := (lookup_mapBanks_of_ne (by decide)).trans h.properties
      files := ⟨files, (lookup_mapBanks_of_ne (by decide)).trans hfiles, hpaths⟩
      banks := ⟨f p, f s, lookup_mapBanks hbanks, hf hp, hf hs⟩ }

theorem Describes.applyFlashPlan {env : ActionEnv} {plan : FlashPlan}
    (h : Describes dir inputs osRelease i manifest) :
    Describes dir inputs osRelease i (applyFlashPlanToManifest env manifest plan) := by
  apply h.mapBanks
  intro entry name data cks verdict hentry
  have hwould : ∀ value, EntryOf (Lib.dictSet entry "would_write" value) name data cks verdict :=
    fun _ => hentry.dictSet (by decide)
  dsimp only
  split
  · split
    · exact (hwould _).dictSet (by decide)
    · split
      · exact (hwould _).dictSet (by decide)
      · exact hwould _
  · cases targetWriteDecision plan ((plan.targetBank.map (·.name)).getD "None") with
    | none => exact hwould _
    | some text => exact (hwould _).dictSet (by decide)

/-- Saving an inspection with the same verdicts over the old one. -/
theorem Describes.refresh {release : String} (h : Describes dir inputs osRelease i manifest)
    (hj : inspectFlashBanks env inputs.primary inputs.secondary inputs.cks1 inputs.cks2 release
      candidate liveLogin saved = .ok j)
    (hp : j.primary.liveLoginMatch = i.primary.liveLoginMatch)
    (hs : j.secondary.liveLoginMatch = i.secondary.liveLoginMatch) :
    Describes dir inputs osRelease i (refreshManifestInspection manifest j operation) := by
  obtain ⟨files, hfiles, hpaths⟩ := h.files
  obtain ⟨p, s, hbanks, hprimary, hsecondary⟩ := lookup_inspectionPayload operation hj
  have hkept : ∀ known, known ∉ ["active_bank", "write_policy", "active_selection", "banks"] →
      (refreshManifestInspection manifest j operation).lookup known = manifest.lookup known := by
    intro known hknown
    simp only [List.mem_cons, List.not_mem_nil, or_false, not_or] at hknown
    obtain ⟨h1, h2, h3, h4⟩ := hknown
    simp only [refreshManifestInspection, List.foldl_cons, List.foldl_nil]
    rw [lookup_dictSet_of_ne h4, lookup_dictSet_of_ne h3, lookup_dictSet_of_ne h2,
      lookup_dictSet_of_ne h1]
  refine
    { unused := (hkept _ (by decide)).trans h.unused
      osRelease := (hkept _ (by decide)).trans h.osRelease
      properties := (hkept _ (by decide)).trans h.properties
      files := ⟨files, (hkept _ (by decide)).trans hfiles, hpaths⟩
      banks := ⟨p, s, ?_, hp ▸ hprimary, hs ▸ hsecondary⟩ }
  simp only [refreshManifestInspection, List.foldl_cons, List.foldl_nil]
  rw [lookup_dictSet_self, hbanks]
  rfl

end Describing

/-! ## Reading the description -/

/-- The raw files of the backup directory are no symbolic links. -/
structure ResolvedDir (env : ActionEnv) (dir : String) : Prop where
  primary_eq : env.resolvePath (rawBank dir "primary").text = rawBank dir "primary"
  secondary_eq : env.resolvePath (rawBank dir "secondary").text = rawBank dir "secondary"

section Reading

variable {env : ActionEnv} {dir osRelease : String} {inputs : FlashInputs} {i : FlashInspection}
  {manifest : JsonObject}

theorem parseOptionalInt_jsonNat (n : Option Nat) :
    parseOptionalInt env (some (jsonNat n)) = .ok (n.map fun n => (n : Int)) := by
  cases n <;> rfl

/-- Both entries are found under their names. -/
theorem Describes.find_entries (h : Describes dir inputs osRelease i manifest) : ∃ p s,
    (manifestBanks manifest).find? (bankNameIs · (some "primary")) = some p ∧
    (manifestBanks manifest).find? (bankNameIs · (some "secondary")) = some s ∧
    EntryOf p "primary" inputs.primary inputs.cks1 i.primary.liveLoginMatch ∧
    EntryOf s "secondary" inputs.secondary inputs.cks2 i.secondary.liveLoginMatch := by
  obtain ⟨p, s, hbanks, hp, hs⟩ := h.banks
  have hlist : manifestBanks manifest = [p, s] := by
    rw [manifestBanks, hbanks]
    rfl
  have hpname : ∀ name, bankNameIs p (some name) = decide ("primary" = name) := by
    intro name
    unfold bankNameIs
    rw [hp.name]
  have hsname : ∀ name, bankNameIs s (some name) = decide ("secondary" = name) := by
    intro name
    unfold bankNameIs
    rw [hs.name]
  refine ⟨p, s, ?_, ?_, hp, hs⟩
  · rw [hlist, List.find?_cons, hpname]
    rfl
  · rw [hlist, List.find?_cons, hpname, List.find?_cons, hsname]
    rfl

theorem Describes.manifestAcpChecksum (h : Describes dir inputs osRelease i manifest) :
    manifestAcpChecksum env manifest "primary" = .ok inputs.cks1 ∧
      manifestAcpChecksum env manifest "secondary" = .ok inputs.cks2 := by
  obtain ⟨p, s, hpfind, hsfind, hp, hs⟩ := h.find_entries
  have hnone : parseOptionalInt env (some (jsonHex none)) = .ok none := rfl
  constructor
  · rw [Flash.manifestAcpChecksum, h.properties, if_pos rfl]
    show (parseOptionalInt env (some (jsonNat inputs.cks1)) >>= _) = _
    rw [parseOptionalInt_jsonNat]
    cases hcks : inputs.cks1 with
    | some n => rfl
    | none =>
      rw [hcks] at hp
      simp only [bind, Except.bind, Option.map_none, hpfind, hp.acpChecksum, hnone]
      rfl
  · rw [Flash.manifestAcpChecksum, h.properties, if_neg (by decide)]
    show (parseOptionalInt env (some (jsonNat inputs.cks2)) >>= _) = _
    rw [parseOptionalInt_jsonNat]
    cases hcks : inputs.cks2 with
    | some n => rfl
    | none =>
      rw [hcks] at hs
      simp only [bind, Except.bind, Option.map_none, hsfind, hs.acpChecksum, hnone]
      rfl

theorem toBool_jsonBool (b : Option Bool) : (jsonBool b).toBool? = b := by
  cases b <;> rfl

theorem EntryOf.manifestLiveLoginMatch {entry : JsonObject} {name : String} {data : Bytes}
    {cks : Option Nat} {verdict : Option Bool} (h : EntryOf entry name data cks verdict)
    (hfind : (manifestBanks manifest).find? (bankNameIs · (some name)) = some entry) :
    manifestLiveLoginMatch manifest name data = verdict := by
  rw [Flash.manifestLiveLoginMatch, hfind]
  dsimp only
  rw [h.sha256, h.liveLoginMatch]
  exact (if_neg (not_not.mpr rfl)).trans (toBool_jsonBool _)

theorem Describes.manifestLiveLoginMatch (h : Describes dir inputs osRelease i manifest) :
    manifestLiveLoginMatch manifest "primary" inputs.primary = i.primary.liveLoginMatch ∧
      manifestLiveLoginMatch manifest "secondary" inputs.secondary =
        i.secondary.liveLoginMatch := by
  obtain ⟨p, s, hpfind, hsfind, hp, hs⟩ := h.find_entries
  exact ⟨hp.manifestLiveLoginMatch hpfind, hs.manifestLiveLoginMatch hsfind⟩

theorem Describes.manifestFilePath (h : Describes dir inputs osRelease i manifest)
    (hdir : ResolvedDir env dir) :
    manifestFilePath env manifest dir "primary" = rawBank dir "primary" ∧
      manifestFilePath env manifest dir "secondary" = rawBank dir "secondary" := by
  obtain ⟨files, hfiles, hp, hs⟩ := h.files
  have hread : ∀ name text, files.lookup name = some (.str text) →
      Flash.manifestFilePath env manifest dir name = env.resolvePath text := by
    intro name text hname
    have hfile : ((manifest.lookup "files").bind (·.toObj?)).bind
        (fun files => (files.lookup name).bind (·.toStr?)) = some text := by
      rw [hfiles]
      show (files.lookup name).bind (·.toStr?) = some text
      rw [hname]
      rfl
    rw [Flash.manifestFilePath, hfile]
  exact ⟨(hread _ _ hp).trans hdir.primary_eq, (hread _ _ hs).trans hdir.secondary_eq⟩

theorem Describes.backupOsRelease (h : Describes dir inputs osRelease i manifest)
    (hrelease : strip osRelease ≠ "") :
    backupOsRelease env manifest = .ok (strip osRelease) := by
  have hne : osRelease ≠ "" := fun heq => hrelease (by rw [heq]; rfl)
  have htext : manifestText env manifest "os_release" = strip osRelease := by
    rw [manifestText, h.osRelease]
    exact if_pos (decide_eq_true hne)
  rw [Flash.backupOsRelease, htext]
  exact if_neg hrelease

theorem Describes.fresh (h : Describes dir inputs osRelease i manifest) :
    requireBackupFreshForPlan manifest = .ok () := by
  rw [requireBackupFreshForPlan, backupWasUsedForWrite, h.unused]
  rfl

end Reading

/-! ## Inspecting again -/

/-- The same inspection, apart from a patch candidate that only one of them was asked for. -/
structure SameInspection (operation operation' : FlashOperation) (i j : FlashInspection) : Prop where
  primary : j.primary.withoutPatch = i.primary.withoutPatch
  secondary : j.secondary = i.secondary
  activeSelection : j.activeSelection = i.activeSelection
  eq_of_patch : (operation = .patch ↔ operation' = .patch) → j = i

/-- The directory holds the backup: the raw banks and a manifest that describes the inspection. -/
structure SavedIn (dir : String) (inputs : FlashInputs) (osRelease : String)
    (inspection : FlashInspection) (w : FlashWorld) : Prop where
  manifest : ∃ manifest, w.files (manifestPath dir) = some (.json (.obj manifest)) ∧
    Describes dir inputs osRelease inspection manifest
  primary : w.files (rawBank dir "primary") = some (.bytes inputs.primary)
  secondary : w.files (rawBank dir "secondary") = some (.bytes inputs.secondary)

/-- The inspection a backup makes of what it has read. -/
def InspectedAs (env : ActionEnv) (operation : FlashOperation) (inputs : FlashInputs)
    (osRelease : String) (inspection : FlashInspection) : Prop :=
  inspectFlashBanks env.toFlashEnv inputs.primary inputs.secondary inputs.cks1 inputs.cks2
    osRelease (operation = .patch) (some inputs.liveLogin) none = .ok inspection

section Inspecting

variable {env : ActionEnv} {dir backupDir osRelease : String} {inputs : FlashInputs}
  {i : FlashInspection} {operation₀ operation : FlashOperation} {params : PlanParams}
  {w : FlashWorld} {path : Path} {content : FileContent}

theorem SavedIn.write_of_ne (h : SavedIn dir inputs osRelease i w)
    (hname : path.name ∉ ["manifest.json", "primary.raw", "secondary.raw"]) :
    SavedIn dir inputs osRelease i (w.write path content) := by
  obtain ⟨manifest, hfile, hdescribes⟩ := h.manifest
  have hne : ∀ name ∈ ["manifest.json", "primary.raw", "secondary.raw"], (⟨dir, name⟩ : Path) ≠ path :=
    fun _ hmem heq => hname (heq ▸ hmem)
  exact
    { manifest := ⟨manifest, (FlashWorld.files_write_of_ne (hne _ (by decide))).trans hfile,
        hdescribes⟩
      primary := (FlashWorld.files_write_of_ne (hne _ (by decide))).trans h.primary
      secondary := (FlashWorld.files_write_of_ne (hne _ (by decide))).trans h.secondary }

theorem SavedIn.write_manifest {manifest : JsonObject} (h : SavedIn dir inputs osRelease i w)
    (hdescribes : Describes dir inputs osRelease i manifest) :
    SavedIn dir inputs osRelease i (w.write ⟨dir, "manifest.json"⟩ (.json (.obj manifest))) where
  manifest := ⟨manifest, FlashWorld.files_write_self, hdescribes⟩
  primary := (FlashWorld.files_write_of_ne (by simp [rawBank])).trans h.primary
  secondary := (FlashWorld.files_write_of_ne (by simp [rawBank])).trans h.secondary

/-- Inspecting a saved backup succeeds, and its result is described by the same manifest. -/
theorem inspectBackup_saved (operation : FlashOperation) (hdir : ResolvedDir env dir)
    (hresolve : env.resolveDir backupDir = dir)
    (hrelease : strip osRelease ≠ "") (hi : InspectedAs env operation₀ inputs osRelease i)
    (h : SavedIn dir inputs osRelease i w) :
    Prog.wpE flashKernel anyAnswer (fun _ w' => w' = w) (inspectBackup env backupDir operation)
      (fun bundle w' => w' = w ∧ bundle.backupDir = dir ∧
        Describes dir inputs osRelease i bundle.manifest ∧
        SameInspection operation₀ operation i bundle.inspection) (fun _ _ => False) w := by
  obtain ⟨manifest, hfile, hdescribes⟩ := h.manifest
  obtain ⟨j, hj, hprimary, hsecondary, hselection, hsame⟩ :=
    inspectFlashBanks_again (operation = .patch) hi
  have hpaths := hdescribes.manifestFilePath hdir
  have hverdicts := hdescribes.manifestLiveLoginMatch
  have hsums : manifestAcpChecksum env manifest "primary" = .ok inputs.cks1 ∧ _ :=
    hdescribes.manifestAcpChecksum
  subst hresolve
  apply Prog.wpE_bind.mpr
  apply Prog.wpE_bind.mpr
  refine Prog.wpE_ask fun fault _ => ⟨rfl, ?_⟩
  have hload : flashKernel.step (.readFile ⟨env.resolveDir (env.resolveDir backupDir),
      "manifest.json"⟩) fault w = (some (.json (.obj manifest)), w) := by
    rw [env.resolveDir_resolveDir]
    exact congrArg (·, w) hfile
  rw [hload]
  apply Prog.wpE_bind.mpr
  have hfresh : (if operation = .readOnly then .ok () else requireBackupFreshForPlan manifest) =
      (.ok () : Except ActionError Unit) := by
    rw [hdescribes.fresh, ite_self]
  rw [hfresh]
  apply Prog.wpE_bind.mpr
  apply Prog.wpE_bind.mpr
  apply Prog.wpE_bind.mpr
  rw [hpaths.1]
  refine Prog.wpE_ask fun fault _ => ⟨rfl, ?_⟩
  have hreadPrimary : flashKernel.step (.readFile (rawBank (env.resolveDir backupDir) "primary"))
      fault w = (some (.bytes inputs.primary), w) := congrArg (·, w) h.primary
  rw [hreadPrimary]
  apply Prog.wpE_bind.mpr
  apply Prog.wpE_bind.mpr
  rw [hpaths.2]
  refine Prog.wpE_ask fun fault _ => ⟨rfl, ?_⟩
  have hreadSecondary : flashKernel.step (.readFile (rawBank (env.resolveDir backupDir) "secondary"))
      fault w = (some (.bytes inputs.secondary), w) := congrArg (·, w) h.secondary
  rw [hreadSecondary]
  apply Prog.wpE_bind.mpr
  rw [hsums.1]
  apply Prog.wpE_bind.mpr
  rw [hsums.2]
  apply Prog.wpE_bind.mpr
  rw [hdescribes.backupOsRelease hrelease]
  apply Prog.wpE_bind.mpr
  rw [hverdicts.1, hverdicts.2, hj]
  refine ⟨rfl, rfl, ?_, hprimary, hsecondary, hselection, ?_⟩
  · exact hdescribes.refresh hj (congrArg (·.liveLoginMatch) hprimary)
      (congrArg (·.liveLoginMatch) hsecondary)
  · intro hpatch
    exact hsame (decide_eq_decide.mpr hpatch)

end Inspecting

/-! ## Plans in between -/

section Planning

variable {env : ActionEnv} {dir osRelease : String} {inputs : FlashInputs} {i : FlashInspection}
  {operation₀ operation : FlashOperation} {params : PlanParams} {w : FlashWorld} {plan : FlashPlan}

/-- No file of a backup has so long a name. -/
theorem notMem_of_long {name : String} (h : 13 < name.length) :
    name ∉ ["manifest.json", "primary.raw", "secondary.raw"] := by
  intro hmem
  have hshort : ∀ known ∈ ["manifest.json", "primary.raw", "secondary.raw"], known.length ≤ 13 := by
    decide
  exact absurd (hshort name hmem) (by omega)

theorem preserves_savePatched (bundle : FlashAnalysisBundle) :
    Preserves (SavedIn dir inputs osRelease i) (savePatchedPrimaryFor env operation bundle) := by
  unfold savePatchedPrimaryFor savePrimaryPatchedBankIfReady
  split
  · split
    · exact Prog.preserves_pure _
    · have hlong : 13 < "primary.patched.raw".length := by decide
      exact (preserves_writeFile fun _ h => h.write_of_ne (notMem_of_long hlong)).bind
        fun _ => Prog.preserves_pure _
  · exact Prog.preserves_pure _

theorem preserves_savePayload (backupDir : String) :
    Preserves (SavedIn dir inputs osRelease i) (saveAcpFlashPayload env backupDir plan) := by
  unfold saveAcpFlashPayload
  split
  · exact Prog.preserves_pure _
  dsimp only
  split
  · exact Prog.preserves_pure _
  rename_i name hname
  have hlong : 13 < name.length := by
    split at hname
    · by_cases hmode : plan.mode = .downloadOnly
      · rw [if_neg (not_not.mpr hmode), hmode] at hname
        obtain rfl := Option.some.inj hname
        decide
      · rw [if_pos hmode] at hname
        exact absurd hname (by simp)
    · obtain rfl := Option.some.inj hname
      have hsuffix : 5 ≤ (if plan.mode = .patch then "patched" else plan.mode.text).length := by
        cases plan.mode <;> decide
      have hrest : ".".length + ".basebinary".length = 12 := by decide
      simp only [String.length_append, toString]
      omega
  exact (preserves_writeFile fun _ h => h.write_of_ne (notMem_of_long hlong)).bind
    fun _ => Prog.preserves_pure _

theorem Describes.setFileIfSome {manifest : JsonObject} {key : Option String} {path : Option Path}
    (h : Describes dir inputs osRelease i manifest)
    (hkey : ∀ key' ∈ key, "primary" ≠ key' ∧ "secondary" ≠ key') :
    Describes dir inputs osRelease i (setFileIfSome manifest key path) := by
  cases key with
  | none => exact h
  | some key =>
    cases path with
    | none => exact h
    | some path => exact h.setManifestFile (hkey key rfl).1 (hkey key rfl).2

theorem payloadFileKey_ne {key : String} (h : key ∈ payloadFileKey plan) :
    "primary" ≠ key ∧ "secondary" ≠ key := by
  have hlong : 9 < key.length := by
    unfold payloadFileKey at h
    split at h
    · obtain rfl := Option.some.inj h
      have hrest : "_basebinary_payload".length = 19 := by decide
      simp only [String.length_append, toString]
      omega
    · split at h
      · obtain rfl := Option.some.inj h
        have hrest : "_basebinary_payload".length = 19 := by decide
        simp only [String.length_append, toString]
        omega
      · exact absurd h (by simp)
  constructor
  · rintro rfl
    exact absurd hlong (by decide)
  · rintro rfl
    exact absurd hlong (by decide)

/-- A plan keeps the saved backup, wherever it is killed. -/
theorem planFlashFromBackup_saved (hdir : ResolvedDir env dir)
    (hresolve : env.resolveDir params.backupDir = dir) (hrelease : strip osRelease ≠ "")
    (hi : InspectedAs env operation₀ inputs osRelease i) (h : SavedIn dir inputs osRelease i w) :
    Prog.wpE flashKernel anyAnswer (fun _ w' => SavedIn dir inputs osRelease i w')
      (planFlashFromBackup env operation params) (fun _ w' => SavedIn dir inputs osRelease i w')
      (fun _ w' => SavedIn dir inputs osRelease i w') w := by
  apply Prog.wpE_bind.mpr
  apply Prog.wpE_mono (readsOnly_raiseIf _ _ (SavedIn dir inputs osRelease i) w h) _ fun _ _ h => h
  intro _ w h
  apply Prog.wpE_bind.mpr
  apply Prog.wpE_mono (Prog.wpE_guarantee_mono
    (inspectBackup_saved operation hdir hresolve hrelease hi h) _) _ _
  · rintro _ _ rfl
    exact h
  · rintro bundle w' ⟨rfl, hbundle, hdescribes, -⟩
    apply (readsOnly_ofExcept _).bind_preserves _ w' h
    intro syap
    apply (readsOnly_ofExcept _).bind_preserves
    intro plan
    have hparams : ∀ text params', Describes dir inputs osRelease i
        (dictSet (dictSet bundle.manifest "operation" text) "flash_plan_params" params') :=
      fun _ _ => (hdescribes.dictSet (by decide)).dictSet (by decide)
    obtain rfl := hbundle
    cases plan with
    | none =>
      exact (preserves_writeFile fun _ h => h.write_manifest (hparams _ _)).bind
        fun _ => Prog.preserves_pure _
    | some plan =>
      apply (preserves_savePatched _).bind
      intro patched
      apply (preserves_savePayload _).bind
      intro payloadPath
      apply Prog.Preserves.bind _ fun _ => Prog.preserves_pure _
      apply preserves_writeFile
      intro w h
      apply h.write_manifest
      apply Describes.applyFlashPlan
      apply Describes.dictSet _ (by decide)
      apply Describes.setFileIfSome _ fun _ => payloadFileKey_ne
      apply Describes.setFileIfSome (hparams _ _)
      rintro _ ⟨⟩
      decide
  · exact fun _ _ hfalse => hfalse.elim

theorem planOperation_saved (operation : FlashOperation) (params : PlanParams)
    (hdir : ResolvedDir env dir)
    (hresolve : env.resolveDir params.backupDir = dir) (hrelease : strip osRelease ≠ "")
    (hi : InspectedAs env operation₀ inputs osRelease i) (h : SavedIn dir inputs osRelease i w) :
    Prog.wpE flashKernel anyAnswer (fun _ w' => SavedIn dir inputs osRelease i w')
      (planOperation env operation params) (fun _ w' => SavedIn dir inputs osRelease i w')
      (fun _ w' => SavedIn dir inputs osRelease i w') w := by
  apply Prog.wpE_bind.mpr
  apply Prog.wpE_mono (readsOnly_raiseIf _ _ (SavedIn dir inputs osRelease i) w h) _ fun _ _ h => h
  intro _ w h
  apply Prog.wpE_bind.mpr
  apply Prog.wpE_mono _ _ fun _ _ h => h
  · exact fun _ w' => SavedIn dir inputs osRelease i w'
  · apply Prog.wpE_tryCatch.mpr
    apply Prog.wpE_mono (planFlashFromBackup_saved hdir hresolve hrelease hi h) fun _ _ h => h
    intro e w h
    split <;> exact h
  · exact fun _ _ h => h

end Planning

/-! ## Backups -/

/-- Plan actions on one backup directory, each finished or killed somewhere. -/
inductive PlanRun (env : ActionEnv) (dir : String) : FlashWorld → FlashWorld → Prop
  | refl (w : FlashWorld) : PlanRun env dir w w
  | plan {w w' w'' : FlashWorld} (operation : FlashOperation) (params : PlanParams)
      (h : PlanRun env dir w w') (hdir : env.resolveDir params.backupDir = dir)
      (hv : (planOperation env operation params).run.Visits flashKernel anyAnswer w' w'') :
      PlanRun env dir w w''

section Backups

variable {env : ActionEnv} {baseDir : Option String} {osRelease : String} {dir backupDir : String} {inputs : FlashInputs} {i : FlashInspection}
  {operation₀ operation : FlashOperation} {target : FlashTarget} {w w₁ w₂ w₃ : FlashWorld}

theorem PlanRun.savedIn (h : PlanRun env dir w w₁) (hdir : ResolvedDir env dir)
    (hrelease : strip osRelease ≠ "") (hi : InspectedAs env operation₀ inputs osRelease i)
    (hw : SavedIn dir inputs osRelease i w) : SavedIn dir inputs osRelease i w₁ := by
  induction h with
  | refl => exact hw
  | plan operation params _ hresolve hv ih =>
    have hplan := planOperation_saved operation params hdir hresolve hrelease hi ih
    exact Prog.wp_visits hplan ih hv

theorem saveInspected_saved {target : FlashTarget} :
    Prog.wpE flashKernel anyAnswer (fun _ _ => True)
      (do
        saveFlashBanks env dir inputs.primary inputs.secondary
        let inspection ← ofFlash (inspectFlashBanks env.toFlashEnv inputs.primary inputs.secondary
          inputs.cks1 inputs.cks2 target.osRelease (operation₀ = .patch) (some inputs.liveLogin)
          none)
        let manifest := manifestFromInspection operation₀ inspection target inputs dir
        saveFlashManifest env dir manifest
        return (⟨inspection, dir, manifest⟩ : FlashAnalysisBundle))
      (fun bundle w' => ∃ inputs,
        InspectedAs env operation₀ inputs target.osRelease bundle.inspection ∧
          SavedIn bundle.backupDir inputs target.osRelease bundle.inspection w')
      (fun _ _ => True) w := by
  apply Prog.wpE_bind.mpr
  apply Prog.wpE_bind.mpr
  apply wpE_writeFile ⟨trivial, _⟩ ⟨trivial, trivial⟩
  apply wpE_writeFile ⟨trivial, _⟩ ⟨trivial, trivial⟩
  apply Prog.wpE_bind.mpr
  cases hinspection : inspectFlashBanks env.toFlashEnv inputs.primary inputs.secondary inputs.cks1
      inputs.cks2 target.osRelease (operation₀ = .patch) (some inputs.liveLogin) none with
  | error e => exact trivial
  | ok inspection =>
    apply Prog.wpE_bind.mpr
    apply wpE_writeFile ⟨trivial, _⟩ ⟨trivial, trivial⟩
    refine ⟨inputs, hinspection, ?_, ?_, ?_⟩
    · exact ⟨_, FlashWorld.files_write_self, describes_manifestFromInspection hinspection⟩
    · refine (FlashWorld.files_write_of_ne (by simp [rawBank])).trans ?_
      refine (FlashWorld.files_write_of_ne (by simp [rawBank])).trans ?_
      exact FlashWorld.files_write_self
    · refine (FlashWorld.files_write_of_ne (by simp [rawBank])).trans ?_
      exact FlashWorld.files_write_self

/-- A finished backup has saved what it inspected. -/
theorem backupFlash_saved {target : FlashTarget} :
    Prog.wpE flashKernel anyAnswer (fun _ _ => True) (backupFlash env target baseDir operation₀)
      (fun bundle w' => ∃ inputs,
        InspectedAs env operation₀ inputs target.osRelease bundle.inspection ∧
          SavedIn bundle.backupDir inputs target.osRelease bundle.inspection w')
      (fun _ _ => True) w := by
  apply Prog.wpE_bind.mpr
  apply Prog.wpE_mono (Prog.yields_true readFlashInputs w) _ fun _ _ h => h
  intro inputs w _
  cases baseDir with
  | some baseDir => exact Prog.wpE_bind.mpr saveInspected_saved
  | none => exact Prog.wpE_bind.mpr (Prog.wpE_ask fun _ _ => ⟨trivial, saveInspected_saved⟩)

/-- After any plans, inspecting a saved backup succeeds and sees what the backup saw. -/
theorem saved_backup_inspects_alike {bundle : FlashAnalysisBundle}
    {result : Except ActionError FlashAnalysisBundle} (hdir : ResolvedDir env bundle.backupDir)
    (hrelease : strip target.osRelease ≠ "")
    (hbackup : (backupFlash env target baseDir operation₀).run.Returns flashKernel anyAnswer w
      (.ok bundle) w₁)
    (hplans : PlanRun env bundle.backupDir w₁ w₂)
    (hresolve : env.resolveDir backupDir = bundle.backupDir)
    (h : (inspectBackup env backupDir operation).run.Returns flashKernel anyAnswer w₂ result w₃) :
    ∃ again, result = .ok again ∧ w₃ = w₂ ∧
      SameInspection operation₀ operation bundle.inspection again.inspection := by
  obtain ⟨inputs, hinspected, hsaved⟩ := Prog.wp_returns backupFlash_saved hbackup
  have hlater := hplans.savedIn hdir hrelease hinspected hsaved
  have hagain : Prog.Ends _ _ result w₃ :=
    Prog.wp_returns (inspectBackup_saved operation hdir hresolve hrelease hinspected hlater) h
  cases result with
  | error e => exact hagain.elim
  | ok again =>
    obtain ⟨rfl, -, -, hsame⟩ := hagain
    exact ⟨again, rfl, rfl, hsame⟩

end Backups

/-! ## A backup that is planned for a patch -/

/-- Files are kept in the directory they are named in. -/
def storedActionEnv : ActionEnv :=
  { smallActionEnv with
    resolvePath := fun text => ⟨"backup", String.ofList (text.toList.drop "backup/".length)⟩ }

def smallTarget : FlashTarget := ⟨"10.0.1.1", "4.0"⟩

/-- The files after a backup of the device. -/
def backupFrom (w : FlashWorld) : Except ActionError FlashAnalysisBundle × FlashWorld ×
    List ((op : FlashOp) → FlashAns op) :=
  (backupFlash storedActionEnv smallTarget (some "backup") .readOnly).run.run flashKernel
    mutedDevice [] w

def patchPlanFrom (w : FlashWorld) : FlashWorld :=
  ((planOperation storedActionEnv .patch forcedParams).run.run flashKernel mutedDevice [] w).2.1

def inspectFrom (w : FlashWorld) : Except ActionError FlashAnalysisBundle × FlashWorld ×
    List ((op : FlashOp) → FlashAns op) :=
  (inspectBackup storedActionEnv "backup" .readOnly).run.run flashKernel mutedDevice [] w

def emptyWorld : FlashWorld := ⟨fun _ => none, []⟩

theorem backupFrom_dir :
    (backupFrom emptyWorld).1.toOption.map (·.backupDir) = some "backup" := by
  decide +kernel

theorem patch_plan_inspects_alike : ∃ bundle again, (backupFrom emptyWorld).1 = .ok bundle ∧
    (inspectFrom (patchPlanFrom (backupFrom emptyWorld).2.1)).1 = .ok again ∧
    SameInspection .readOnly .readOnly bundle.inspection again.inspection := by
  have hbackup : ∀ w, (backupFlash storedActionEnv smallTarget (some "backup") .readOnly).run.Returns
      flashKernel anyAnswer w (backupFrom w).1 (backupFrom w).2.1 := by
    intro w
    unfold backupFrom
    apply Prog.run_returns
  have hplan : ∀ w, (planOperation storedActionEnv .patch forcedParams).run.Visits flashKernel
      anyAnswer w (patchPlanFrom w) := fun _ => (Prog.run_returns mutedDevice []).visits
  have hinspect : ∀ w, (inspectBackup storedActionEnv "backup" .readOnly).run.Returns flashKernel
      anyAnswer w (inspectFrom w).1 (inspectFrom w).2.1 := by
    intro w
    unfold inspectFrom
    apply Prog.run_returns
  cases hbundle : (backupFrom emptyWorld).1 with
  | error e =>
    have hdir := backupFrom_dir
    rw [hbundle] at hdir
    exact absurd hdir (by simp [Except.toOption])
  | ok bundle =>
    have hdir : bundle.backupDir = "backup" := by
      have hdir := backupFrom_dir
      rw [hbundle] at hdir
      exact Option.some.inj hdir
    have hresolved : ResolvedDir storedActionEnv bundle.backupDir := by
      rw [hdir]
      exact ⟨by decide +kernel, by decide +kernel⟩
    have hsaved := hbackup emptyWorld
    rw [hbundle] at hsaved
    have hplans : PlanRun storedActionEnv bundle.backupDir (backupFrom emptyWorld).2.1
        (patchPlanFrom (backupFrom emptyWorld).2.1) :=
      .plan .patch forcedParams (.refl _) hdir.symm (hplan _)
    obtain ⟨again, hagain, -, hsame⟩ := saved_backup_inspects_alike hresolved (by decide) hsaved
      hplans hdir.symm (hinspect _)
    exact ⟨bundle, again, rfl, hagain, hsame⟩

end TimeCapsule.Flash
