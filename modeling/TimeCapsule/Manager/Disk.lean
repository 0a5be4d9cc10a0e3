import TimeCapsule.Manager.Shares

/-!
# Disk steps of the manager

What the manager keeps between its steps, a refresh of the disk runtime from a topology, and the
disk step that decides from the readings of the disk daemon whether to refresh.  The commands the
manager runs are its environment: every answer they can give is allowed, also that a volume is
mounted in one test and not in the next.
-/

namespace TimeCapsule.Manager

open Lib

/-! ## State -/

structure Payload where
  dir : Bytes
  volume : Bytes
  device : Bytes
deriving DecidableEq, Repr

/-- The flag and the signatures of what was staged to the RAM disk. -/
structure Staging where
  runtimeStaged : Bool
  lastBinarySignature : Bytes
  lastConfigSignature : Bytes
  lastRsyncSignature : Bytes
  pendingConfigSignature : Bytes
deriving DecidableEq, Repr

def Staging.cleared : Staging := ⟨false, [], [], [], []⟩

inductive Phase where
  | copy
  | copySync
  | cleanup
  | cleanupSync
deriving DecidableEq, Repr

/-- One migration that had roots to go through: the TDB file, whether it was there, the rows whose
roots are the arguments of the phases, and the phases that ran, in order, with their outcomes. -/
structure Migration where
  tdb : Bytes
  tdbFound : Bool
  rows : List Row
  phases : List (Phase × Bool)
deriving DecidableEq, Repr

/-- The variables of the manager that its disk steps read or set, and the adisk file, which lists
nothing when it is missing.  `migrations` is for the statements: no step reads it. -/
structure State where
  topologyRows : Bytes
  payload : Option Payload
  shareRows : List ShareRow
  adiskRows : List AdiskRow
  adiskFile : Bytes
  staging : Staging
  confirmedStableSignature : Option Bytes
  diskStateChanged : Bool
  xattrTdbPath : Bytes
  xattrMigratedVolumes : List Bytes
  migrations : List Migration
deriving DecidableEq, Repr

/-! ## Answers of the commands -/

/-- How the writing of the adisk file ends; a write that fails leaves some content. -/
inductive Write where
  | done
  | failed (left : Bytes)
deriving DecidableEq, Repr

/-- The places where `is_volume_root_mounted` is asked for a row. -/
inductive Place where
  | candidate (builtin : Bool)
  | migration
  | share
  | pending
deriving DecidableEq, Repr

/-- The answers of the commands of one disk step, for each row by its number. -/
structure Answers where
  mounted : Place → Nat → Bool
  /-- `tc_verify_payload_dir` -/
  verified : Bool → Nat → Bool
  writable : Nat → Bool
  /-- `tc_prepare_share_path` -/
  prepared : Nat → Bool
  tdbFound : Bool
  phase : Phase → Bool
  write : Write
  /-- `tc_wake_or_mount_volume`, for the rows of the reading -/
  reclaimed : Nat → Bool

/-- `is_volume_root_mounted`; `df` does not answer for an empty name. -/
def Answers.isVolumeRootMounted (ans : Answers) (place : Place) (i : Nat) (root : Bytes) : Bool :=
  !root.isEmpty && ans.mounted place i

/-! ## Payload state -/

/-- `tc_manager_current_payload_ready` -/
def State.currentPayloadReady (m : State) : Bool :=
  match m.payload with
  | none => false
  | some p => !p.dir.isEmpty && !p.volume.isEmpty && !p.device.isEmpty

/-- The adisk file for a list of rows. -/
def adiskText (rows : List AdiskRow) : Bytes :=
  (rows.map fun row => row.text ++ [newline]).flatten

/-- What `tc_manager_materialize_adisk_state` is to write. -/
def State.adiskContent (m : State) : Bytes :=
  if m.currentPayloadReady && !m.adiskRows.isEmpty then adiskText m.adiskRows else []

/-- `tc_manager_materialize_adisk_state` -/
def materializeAdiskState (m : State) : Write → State × Bool
  | .done => ({ m with adiskFile := m.adiskContent }, true)
  | .failed left => ({ m with adiskFile := left }, false)

/-- `tc_manager_clear_payload_state` -/
def clearPayloadState (m : State) (w : Write) : State :=
  (materializeAdiskState
    { m with payload := none, shareRows := [], adiskRows := [], staging := .cleared } w).1

/-- `tc_manager_apply_diskless_state` -/
def applyDisklessState (m : State) (w : Write) : State :=
  { clearPayloadState { m with topologyRows := [] } w with diskStateChanged := true }

def payloadDirName : Bytes := ascii ".samba4"

/-- `tc_manager_scan_payload_candidates_for_builtin`: the first row that holds a payload. -/
def scanPayloadCandidates (ans : Answers) (builtin : Bool) (rows : List Row) : Option Payload :=
  (rows.zipIdx.find? fun (row, i) =>
    row.builtin == ascii (if builtin then "1" else "0") &&
      ans.isVolumeRootMounted (.candidate builtin) i row.volumeRoot && ans.verified builtin i).map
    fun (row, _) =>
      ⟨row.volumeRoot ++ ascii "/" ++ payloadDirName, row.volumeRoot, devicePath row.partDevice⟩

/-- `tc_manager_resolve_payload_from_topology` -/
def resolvePayload (ans : Answers) (rows : List Row) : Option Payload :=
  (scanPayloadCandidates ans true rows).or (scanPayloadCandidates ans false rows)

/-! ## Boot metadata migration -/

/-- `tc_manager_xattr_volume_key` -/
def xattrVolumeKey (device uuid : Bytes) : Bytes :=
  if uuid = [] then ascii "device:" ++ device else ascii "uuid:" ++ uuid

def Row.xattrKey (row : Row) : Bytes := xattrVolumeKey row.partDevice row.partUuid

/-- `tc_manager_record_migrated_xattr_volumes` -/
def recordMigratedXattrVolumes (migrated keys : List Bytes) : List Bytes :=
  keys.foldl (fun migrated key => if migrated.contains key then migrated else migrated ++ [key])
    migrated

/-- `tc_manager_pending_xattr_volume_mounted` -/
def pendingXattrVolumeMounted (cfg : Config) (ans : Answers) (m : State) (rows : List Row) :
    Bool :=
  cfg.bootXattrMigration && rows.zipIdx.any fun (row, i) =>
    !m.xattrMigratedVolumes.contains row.xattrKey &&
      ans.isVolumeRootMounted .pending i row.volumeRoot

/-- The rows whose roots are given to the migrator. -/
def migrationRows (ans : Answers) (migrated : List Bytes) (rows : List Row) : List Row :=
  (rows.zipIdx.filter fun (row, i) =>
    !migrated.contains row.xattrKey && ans.isVolumeRootMounted .migration i row.volumeRoot).map
    Prod.fst

/-- The phases up to the first one that fails. -/
def runPhases (ans : Answers) : List Phase → List (Phase × Bool)
  | [] => []
  | p :: rest => if ans.phase p then (p, true) :: runPhases ans rest else [(p, false)]

def allPhases : List Phase := [.copy, .copySync, .cleanup, .cleanupSync]

/-- The phases of a migration; there are none when there is no TDB file. -/
def phasesRun (ans : Answers) : List (Phase × Bool) :=
  if ans.tdbFound then runPhases ans allPhases else []

/-- The volumes that count as migrated for a TDB path: none when the path is another one. -/
def State.migratedFor (m : State) (tdb : Bytes) : List Bytes :=
  if tdb = m.xattrTdbPath then m.xattrMigratedVolumes else []

def xattrTdb (payload : Payload) : Bytes := payload.dir ++ ascii "/private/xattr.tdb"

/-- `tc_manager_migrate_boot_xattrs` -/
def migrateBootXattrs (cfg : Config) (ans : Answers) (payload : Payload) (rows : List Row)
    (m : State) : State × Bool :=
  if !cfg.bootXattrMigration then (m, true)
  else
    let tdb := xattrTdb payload
    let m := { m with xattrTdbPath := tdb, xattrMigratedVolumes := m.migratedFor tdb }
    let selected := migrationRows ans m.xattrMigratedVolumes rows
    let keys := selected.map Row.xattrKey
    if selected = [] then (m, true)
    else
      let m := { m with migrations := m.migrations ++
        [⟨tdb, ans.tdbFound, selected, phasesRun ans⟩] }
      if (phasesRun ans).all Prod.snd then
        ({ m with
          xattrMigratedVolumes := recordMigratedXattrVolumes m.xattrMigratedVolumes keys }, true)
      else (m, false)

/-! ## Refresh -/

/-- The rows that are mounted and writable when the shares are built. -/
def writableRows (ans : Answers) (rows : List Row) : List (Row × Nat) :=
  rows.zipIdx.filter fun (row, i) =>
    ans.isVolumeRootMounted .share i row.volumeRoot && ans.writable i

/-- `tc_manager_build_share_state_from_topology` -/
def buildShareState (cfg : Config) (ans : Answers) (rows : List Row) : Built :=
  appendShares cfg ans.prepared (writableRows ans rows) [] [] []

/-- The last part of a refresh: the shares of the built rows, and their adisk file. -/
def publishShares (ans : Answers) (payload : Payload) (shares : List ShareRow)
    (adisks : List AdiskRow) (m : State) : State × Bool :=
  match materializeAdiskState
    { m with shareRows := shares, adiskRows := adisks, payload := some payload } ans.write with
  | (m, true) => ({ m with diskStateChanged := true }, true)
  | (m, false) => (m, false)

/-- The part of a refresh after a payload was found; the names may never come to an end. -/
def applyPayload (cfg : Config) (ans : Answers) (initial : Bool) (payload : Payload)
    (rows : List Row) (previous : Bytes) (m : State) : Option (State × Bool) :=
  match migrateBootXattrs cfg ans payload rows m with
  | (m, false) =>
      if initial || !m.currentPayloadReady then some (clearPayloadState m ans.write, false)
      else some ({ m with topologyRows := previous }, false)
  | (m, true) =>
      match buildShareState cfg ans rows with
      | .stuck => none
      | .failed => some (applyDisklessState m ans.write, true)
      | .rows shares adisks =>
          if shares = [] then some (applyDisklessState m ans.write, true)
          else some (publishShares ans payload shares adisks m)

/-- `tc_manager_apply_runtime_from_topology`; `initial` is its reason of that name. -/
def applyRuntimeFromTopology (cfg : Config) (ans : Answers) (initial : Bool) (topology : Bytes)
    (m : State) : Option (State × Bool) :=
  let previous := m.topologyRows
  let m := { m with topologyRows := topology }
  let rows := rowsOf topology
  if countRows topology = 0 then some (applyDisklessState m ans.write, true)
  else
    match resolvePayload ans rows with
    | none => some (applyDisklessState m ans.write, true)
    | some payload => applyPayload cfg ans initial payload rows previous m

/-! ## Disk step -/

/-- A row of a reading: those of a topology, with the format and the number of users. -/
structure RuntimeRow where
  row : Row
  partFormat : Bytes
  partUsers : Bytes
deriving DecidableEq, Repr

/-- The eight variables of the loops that read a reading. -/
def RuntimeRow.ofLine (line : Bytes) : RuntimeRow :=
  let disk := readField line
  let builtin := readField disk.2
  let part := readField builtin.2
  let root := readField part.2
  let name := readField root.2
  let uuid := readField name.2
  let format := readField uuid.2
  ⟨⟨disk.1, builtin.1, part.1, root.1, name.1, uuid.1⟩, format.1, readRest format.2⟩

def runtimeRowsOf (reading : Bytes) : List RuntimeRow :=
  ((hereLines reading).map RuntimeRow.ofLine).filter fun row => !row.row.partDevice.isEmpty

/-- The line of a topology row. -/
def Row.text (row : Row) : Bytes :=
  [tab].intercalate
    [row.diskDevice, row.builtin, row.partDevice, row.volumeRoot, row.partName, row.partUuid]

/-- `tc_mast_runtime_rows_to_topology`, in a substitution: the stable signature of a reading. -/
def stableSignature (reading : Bytes) : Bytes :=
  substitution ((runtimeRowsOf reading).map fun row => row.row.text ++ [newline]).flatten

/-- `tc_manager_share_rows_include_device` -/
def shareRowsIncludeDevice (device : Bytes) (shares : List ShareRow) : Bool :=
  shares.any fun share => share.partDevice == device

def isDecimal (text : Bytes) : Bool := !text.isEmpty && text.all fun b => 48 ≤ b && b ≤ 57

/-- The rows of the managed volumes, with their numbers. -/
def managedRows (reading : Bytes) (shares : List ShareRow) : List (RuntimeRow × Nat) :=
  (runtimeRowsOf reading).zipIdx.filter fun (row, _) =>
    row.partFormat == ascii "hfs" && shareRowsIncludeDevice row.row.partDevice shares

/-- The parts that were seen, between blanks. -/
def seenParts (rows : List (RuntimeRow × Nat)) : Bytes :=
  rows.foldl (fun seen (row, _) =>
    if hasPart ([space] ++ row.row.partDevice ++ [space]) seen then seen
    else seen ++ row.row.partDevice ++ [space]) [space]

/-- `tc_manager_check_active_mast_users` -/
def checkActiveMastUsers (ans : Answers) (reading : Bytes) (shares : List ShareRow) : Bool :=
  let managed := managedRows reading shares
  shares.isEmpty ||
    (managed.all fun (row, i) => row.partUsers != ascii "0" || ans.reclaimed i) &&
    shares.all fun share => hasPart ([space] ++ share.partDevice ++ [space]) (seenParts managed)

/-- How an attempt to read the disks ends: with the rows of the reading, in a command that fails, or
in an answer that cannot be parsed. -/
inductive MastRead where
  | failed
  | unparsed
  | rows (reading : Bytes)
deriving DecidableEq, Repr

def MastRead.reading : MastRead → Option Bytes
  | .rows reading => some reading
  | _ => none

/-- The readings of one step: the first one, its retry and the one after the debouncing. -/
structure Readings where
  first : MastRead
  retry : MastRead
  debounced : MastRead
deriving DecidableEq, Repr

/-- `tc_manager_read_mast_raw_with_retry`, parsed -/
def Readings.current (r : Readings) : Option Bytes :=
  match r.first with
  | .failed => r.retry.reading
  | first => first.reading

/-- What a disk step does with its readings: it fails, it leaves the runtime alone, or it refreshes
it from a topology. -/
inductive Decision where
  | fail
  | skip
  | refresh (initial : Bool) (topology : Bytes)
deriving DecidableEq, Repr

/-- The decision for a stable signature that is the confirmed one. -/
def decideConfirmed (cfg : Config) (ans : Answers) (reading signature : Bytes) (m : State) :
    Decision :=
  if pendingXattrVolumeMounted cfg ans m (rowsOf signature) then .refresh false signature
  else if !checkActiveMastUsers ans reading m.shareRows then .refresh false signature
  else .skip

/-- The decision for a stable signature that changed: the reading after the debouncing counts. -/
def decideChanged (r : Readings) (confirmed signature : Bytes) : Decision :=
  match r.debounced.reading with
  | none => .fail
  | some reading =>
      let debounced := stableSignature reading
      if debounced = confirmed then .skip
      else if debounced ≠ signature then .skip
      else .refresh false debounced

def diskDecision (cfg : Config) (ans : Answers) (r : Readings) (m : State) : Decision :=
  match r.current with
  | none => .fail
  | some reading =>
      let signature := stableSignature reading
      match m.confirmedStableSignature with
      | none => .refresh true signature
      | some confirmed =>
          if signature = confirmed then decideConfirmed cfg ans reading signature m
          else decideChanged r confirmed signature

/-- A refresh that goes through records the stable signature.  One for a pending migration does not,
but its signature is the confirmed one. -/
def refreshDiskState (cfg : Config) (ans : Answers) (initial : Bool) (topology : Bytes)
    (m : State) : Option (State × Bool) :=
  (applyRuntimeFromTopology cfg ans initial topology m).map fun (m, ok) =>
    (if ok then { m with confirmedStableSignature := some topology } else m, ok)

/-- `tc_manager_reconcile_disk_state` -/
def reconcileDiskState (cfg : Config) (ans : Answers) (r : Readings) (m : State) :
    Option (State × Bool) :=
  match diskDecision cfg ans r m with
  | .fail => some (m, false)
  | .skip => some ({ m with diskStateChanged := false }, true)
  | .refresh initial topology => refreshDiskState cfg ans initial topology m

/-! ### How a refresh ends -/

/-- The boot migration of a refresh from `topology` fails: there are roots to go through and a TDB
file, and one of the phases does not succeed. -/
def MigrationFails (cfg : Config) (ans : Answers) (topology : Bytes) (m : State) : Prop :=
  cfg.bootXattrMigration = true ∧ ans.tdbFound = true ∧ (∃ p, ans.phase p = false) ∧
    ∃ payload, resolvePayload ans (rowsOf topology) = some payload ∧
      migrationRows ans (m.migratedFor (xattrTdb payload)) (rowsOf topology) ≠ []

/-- The state in which a refresh from `topology` finds or misses a payload, and the one after its
migration. -/
inductive Prepared (cfg : Config) (ans : Answers) (topology : Bytes) (m : State) : State → Prop where
  | found : Prepared cfg ans topology m { m with topologyRows := topology }
  | migrated (payload : Payload) :
      resolvePayload ans (rowsOf topology) = some payload →
      Prepared cfg ans topology m
        (migrateBootXattrs cfg ans payload (rowsOf topology)
          { m with topologyRows := topology }).1

/-- Everything that a refresh can do. -/
inductive Refreshed (cfg : Config) (ans : Answers) (initial : Bool) (topology : Bytes) (m : State) :
    State → Bool → Prop where
  | diskless {m₁ : State} : Prepared cfg ans topology m m₁ → ¬ MigrationFails cfg ans topology m →
      Refreshed cfg ans initial topology m (applyDisklessState m₁ ans.write) true
  | withheld {m₁ : State} : Prepared cfg ans topology m m₁ → MigrationFails cfg ans topology m →
      initial = true ∨ m.currentPayloadReady = false →
      Refreshed cfg ans initial topology m (clearPayloadState m₁ ans.write) false
  | kept {m₁ : State} : Prepared cfg ans topology m m₁ → MigrationFails cfg ans topology m →
      initial = false → m.currentPayloadReady = true →
      Refreshed cfg ans initial topology m { m₁ with topologyRows := m.topologyRows } false
  | published {payload : Payload} {shares : List ShareRow} {adisks : List AdiskRow} :
      resolvePayload ans (rowsOf topology) = some payload →
      ¬ MigrationFails cfg ans topology m →
      buildShareState cfg ans (rowsOf topology) = .rows shares adisks → shares ≠ [] →
      Refreshed cfg ans initial topology m
        (publishShares ans payload shares adisks
          (migrateBootXattrs cfg ans payload (rowsOf topology)
            { m with topologyRows := topology }).1).1 (ans.write = .done)

theorem phases_all_iff (ans : Answers) :
    (runPhases ans allPhases).all Prod.snd = true ↔ ∀ p, ans.phase p = true := by
  have hrun : ∀ ps, (runPhases ans ps).all Prod.snd = true ↔ ∀ p ∈ ps, ans.phase p = true := by
    intro ps
    induction ps with
    | nil => simp [runPhases]
    | cons p rest ih =>
      cases hp : ans.phase p
      · simp [runPhases, hp]
      · simp [runPhases, hp, ih]
  rw [hrun]
  constructor
  · intro h p
    exact h p (by cases p <;> simp [allPhases])
  · intro h p _
    exact h p

/-- The migration of a payload fails exactly when that of its topology is said to. -/
theorem migrateBootXattrs_eq_false_iff (cfg : Config) {ans : Answers} {topology : Bytes} (m : State)
    {payload : Payload} (hp : resolvePayload ans (rowsOf topology) = some payload) :
    (migrateBootXattrs cfg ans payload (rowsOf topology) { m with topologyRows := topology }).2
      = false ↔ MigrationFails cfg ans topology m := by
  have hall : (∃ p, ans.phase p = false) ↔ (runPhases ans allPhases).all Prod.snd = false := by
    rw [← Bool.not_eq_true, phases_all_iff]
    simp
  simp only [migrateBootXattrs, MigrationFails, hall, State.migratedFor, hp, Option.some.injEq,
    exists_eq_left']
  cases hboot : cfg.bootXattrMigration
  · simp
  · by_cases hsel : migrationRows ans
        (if xattrTdb payload = m.xattrTdbPath then m.xattrMigratedVolumes else []) (rowsOf topology)
          = []
    · simp [hsel]
    · cases htdb : ans.tdbFound
      · simp [hsel, phasesRun, htdb]
      · simp only [Bool.not_true, Bool.false_eq_true, if_false, hsel, if_true, ne_eq, not_false_eq_true,
          true_and, and_true, phasesRun, htdb]
        cases (runPhases ans allPhases).all Prod.snd <;> simp

theorem migrateBootXattrs_frame (cfg : Config) (ans : Answers) (payload : Payload)
    (rows : List Row) (m : State) : ∃ path migrated migrations, (migrateBootXattrs cfg ans payload rows m).1 =
      { m with
        xattrTdbPath := path
        xattrMigratedVolumes := migrated
        migrations := migrations } := by
  simp only [migrateBootXattrs]
  split
  · exact ⟨_, _, _, rfl⟩
  · split
    · exact ⟨_, _, _, rfl⟩
    · split <;> exact ⟨_, _, _, rfl⟩

theorem Prepared.frame {cfg : Config} {ans : Answers} {topology : Bytes} {m m₁ : State}
    (h : Prepared cfg ans topology m m₁) : ∃ path migrated migrations, m₁ =
      { m with
        topologyRows := topology
        xattrTdbPath := path
        xattrMigratedVolumes := migrated
        migrations := migrations } := by
  cases h with
  | found => exact ⟨_, _, _, rfl⟩
  | migrated payload hp =>
    exact migrateBootXattrs_frame cfg ans payload (rowsOf topology) { m with topologyRows := topology }

theorem rowsOf_of_countRows {topology : Bytes} (h : countRows topology = 0) :
    rowsOf topology = [] := by
  rw [countRows, List.length_eq_zero_iff, List.filter_eq_nil_iff] at h
  refine List.filter_eq_nil_iff.mpr fun row hrow => ?_
  obtain ⟨line, hline, rfl⟩ := List.mem_map.mp hrow
  have hnil : line = [] := by simpa using h line hline
  rw [hnil]
  decide

theorem applyRuntimeFromTopology_refreshed {cfg : Config} {ans : Answers} {initial : Bool}
    {topology : Bytes} {m m' : State} {ok : Bool}
    (h : applyRuntimeFromTopology cfg ans initial topology m = some (m', ok)) :
    Refreshed cfg ans initial topology m m' ok := by
  simp only [applyRuntimeFromTopology] at h
  split at h
  · rename_i hcount
    cases h
    refine .diskless .found ?_
    rintro ⟨-, -, -, payload, -, hrows⟩
    exact hrows (by rw [rowsOf_of_countRows hcount]; rfl)
  · split at h
    · rename_i hnone
      cases h
      refine .diskless .found ?_
      rintro ⟨-, -, -, payload, hp, -⟩
      simp [hnone] at hp
    · rename_i payload hp
      have hfails := migrateBootXattrs_eq_false_iff cfg m hp
      have hprepared : Prepared cfg ans topology m _ := .migrated payload hp
      have hready : (migrateBootXattrs cfg ans payload (rowsOf topology)
          { m with topologyRows := topology }).1.currentPayloadReady = m.currentPayloadReady := by
        obtain ⟨_, _, _, hframe⟩ := hprepared.frame
        rw [hframe]
        rfl
      simp only [applyPayload] at h
      generalize hmig : migrateBootXattrs cfg ans payload (rowsOf topology)
        { m with topologyRows := topology } = result at h hfails hprepared hready
      obtain ⟨m₁, _ | _⟩ := result
      · have hfail := hfails.mp rfl
        simp only at h
        split at h
        · rename_i hi
          cases h
          exact .withheld hprepared hfail (by simpa [hready] using hi)
        · rename_i hi
          cases h
          have hi' : initial = false ∧ m.currentPayloadReady = true := by simpa [hready] using hi
          exact .kept hprepared hfail hi'.1 hi'.2
      · have hok : ¬ MigrationFails cfg ans topology m := fun hf => by simpa using hfails.mpr hf
        simp only at h
        split at h
        · cases h
        · cases h
          exact .diskless hprepared hok
        · rename_i shares adisks hbuild
          split at h
          · cases h
            exact .diskless hprepared hok
          · rename_i hne
            have hpub : Refreshed cfg ans initial topology m _ _ := .published hp hok hbuild hne
            rw [hmig] at hpub
            simp only [Option.some.injEq] at h
            have hres : publishShares ans payload shares adisks m₁ =
                ((publishShares ans payload shares adisks m₁).1, decide (ans.write = .done)) := by
              cases hw : ans.write <;> simp [publishShares, materializeAdiskState, hw]
            rw [hres] at h
            cases h
            exact hpub

/-! ## Steps between the disk steps -/

/-- How the RAM disk is reset after a staging that failed: nothing is deleted while a process is
left, the files may be gone with the reset not finished, or the adisk file is written again. -/
inductive Reset where
  | refused
  | broken (left : Bytes)
  | done (w : Write)
deriving DecidableEq, Repr

/-- `tc_manager_reset_samba_runtime_after_stage_failure` -/
def resetSambaRuntime (m : State) : Reset → State
  | .refused => m
  | .broken left => { m with adiskFile := left }
  | .done w => (materializeAdiskState { m with staging := .cleared } w).1

/-- The steps of the manager that touch this state. -/
inductive Step where
  | disk (ans : Answers) (r : Readings)
  /-- `tc_manager_launch_mdns_advertiser` -/
  | mdnsLaunch (w : Write)
  | reset (reset : Reset)

/-- The state of a manager that starts, on the adisk file it finds. -/
def boot (adiskFile : Bytes) (w : Write) : State :=
  clearPayloadState
    ⟨[], none, [], [], adiskFile, .cleared, none, false, [], [], []⟩ w

def step (cfg : Config) (m : State) : Step → Option State
  | .disk ans r => (reconcileDiskState cfg ans r m).map Prod.fst
  | .mdnsLaunch w => some (materializeAdiskState m w).1
  | .reset reset => some (resetSambaRuntime m reset)

/-- The states of the runs in which the first writing of the adisk file and every step are among
those that `started` and `allowed` let through. -/
inductive Reached (cfg : Config) (started : Write → Prop) (allowed : State → Step → Prop) :
    State → Prop where
  | start (adiskFile : Bytes) (w : Write) : started w → Reached cfg started allowed (boot adiskFile w)
  | next {m m' : State} {s : Step} : Reached cfg started allowed m → allowed m s →
      step cfg m s = some m' → Reached cfg started allowed m'

/-- What one step preserves holds in every state of such a run. -/
theorem Reached.invariant {cfg : Config} {started : Write → Prop} {allowed : State → Step → Prop}
    {Inv : State → Prop} (hboot : ∀ file w, started w → Inv (boot file w))
    (hstep : ∀ m m' s, Inv m → allowed m s → step cfg m s = some m' → Inv m')
    {m : State} (h : Reached cfg started allowed m) : Inv m := by
  induction h with
  | start file w hw => exact hboot file w hw
  | next _ ha hs ih => exact hstep _ _ _ ih ha hs

end TimeCapsule.Manager
