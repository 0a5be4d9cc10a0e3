import TimeCapsule.Manager.Disk
import TimeCapsule.Manager.Names

/-!
# One list of shares

After every disk step Samba's share rows, the advertiser's rows and the adisk file list the same
volumes, or there is nothing to list.  The steps that break this are named: an adisk file that is not
written, and a migration that fails while no payload is active.
-/

namespace TimeCapsule.Manager

open Lib

variable {cfg : Config} {ans : Answers} {r : Readings} {m m' m₁ : State} {topology : Bytes}
  {initial ok : Bool}

/-! ## The adisk file -/

/-- The name and the device on each line of an adisk file. -/
def listedVolumes (file : Bytes) : List (Bytes × Bytes) :=
  ((hereLines file).filter fun line => !line.isEmpty).map fun line =>
    ((line.splitOn tab).getD 0 [], (line.splitOn tab).getD 1 [])

/-- A row whose text is one line that begins with its name and its device. -/
structure AdiskRow.Listable (row : AdiskRow) : Prop where
  name : tab ∉ row.shareName
  device : tab ∉ row.partDevice
  line : newline ∉ row.text

theorem hereLines_adiskText {rows : List AdiskRow} (h : ∀ row ∈ rows, newline ∉ row.text) :
    hereLines (adiskText rows) = rows.map AdiskRow.text ++ [[]] := by
  induction rows with
  | nil => rfl
  | cons row rest ih =>
    have hrest := ih fun r hr => h r (List.mem_cons_of_mem _ hr)
    have hfirst := h row List.mem_cons_self
    rw [adiskText, List.map_cons, List.flatten_cons, hereLines, List.append_assoc,
      List.singleton_append, List.splitOn_append_cons_self_of_not_mem hfirst, List.map_cons,
      List.cons_append, ← hrest]
    rfl

theorem AdiskRow.text_eq (row : AdiskRow) : row.text = row.shareName ++ tab ::
    (row.partDevice ++ tab :: (row.partUuid ++ tab :: row.adiskDiskAdvf)) := by
  simp [AdiskRow.text, List.intercalate]

theorem listedVolumes_adiskText {rows : List AdiskRow} (h : ∀ row ∈ rows, row.Listable) :
    listedVolumes (adiskText rows) = rows.map fun row => (row.shareName, row.partDevice) := by
  have hkept : (rows.map AdiskRow.text ++ [[]]).filter (fun line => !line.isEmpty) =
      rows.map AdiskRow.text := by
    rw [List.filter_append, List.filter_eq_self.mpr]
    · simp
    · intro line hline
      obtain ⟨row, -, rfl⟩ := List.mem_map.mp hline
      simp [AdiskRow.text_eq]
  rw [listedVolumes, hereLines_adiskText fun row hr => (h row hr).line, hkept, List.map_map]
  refine List.map_congr_left fun row hr => ?_
  have hrow := h row hr
  rw [Function.comp_apply, AdiskRow.text_eq,
    List.splitOn_append_cons_self_of_not_mem hrow.name,
    List.splitOn_append_cons_self_of_not_mem hrow.device]
  rfl

/-! ## Rows of a topology -/

theorem partDevice_of_mem_rowsOf {row : Row} (h : row ∈ rowsOf topology) :
    tab ∉ row.partDevice ∧ newline ∉ row.partDevice ∧ newline ∉ row.partUuid := by
  obtain ⟨line, hline, rfl⟩ := List.mem_map.mp (List.mem_of_mem_filter h)
  have hnew := newline_not_mem_of_mem_hereLines hline
  refine ⟨fun hb => (mem_of_mem_readField hb).2 rfl, fun hb => hnew ?_, fun hb => hnew ?_⟩
  · have hb := (mem_of_mem_readField hb).1
    exact mem_of_mem_readField_rest (mem_of_mem_readField_rest hb)
  · have hb := mem_of_mem_readRest hb
    have hb := mem_of_mem_readField_rest (mem_of_mem_readField_rest hb)
    exact mem_of_mem_readField_rest (mem_of_mem_readField_rest (mem_of_mem_readField_rest hb))

/-- The name of a row is on one line and has no tab. -/
theorem name_of_shareNameFor {row : Row} {used name : Bytes} (hd : tab ∉ row.partDevice)
    (hn : newline ∉ row.partDevice) (h : shareNameFor cfg used row = some name) :
    tab ∉ name ∧ newline ∉ name := by
  have hdevice : ∀ b ∈ row.partDevice, b ≠ tab ∧ b ≠ newline := fun b hb =>
    ⟨fun h => hd (h ▸ hb), fun h => hn (h ▸ hb)⟩
  have hsafe : ∀ b, isUnsafe b = false → b ≠ tab ∧ b ≠ newline := by
    intro b hb
    constructor <;> rintro rfl <;> exact absurd hb (by decide)
  have hbase : ∀ b ∈ sanitizeShareName row.partName row.partDevice, b ≠ tab ∧ b ≠ newline :=
    forall_mem_sanitizeShareName (forall_mem_of_all (by decide)) (by decide) hsafe hdevice
  have hname := forall_mem_uniqueShareName (P := fun b => b ≠ tab ∧ b ≠ newline)
    (forall_mem_of_all (by decide))
    (fun b h48 _ => by constructor <;> rintro rfl <;> exact absurd h48 (by decide))
    hbase hdevice h
  exact ⟨fun h => (hname tab h).1 rfl, fun h => (hname newline h).2 rfl⟩

theorem listable_of_named {used : Bytes} {rows : List Row} {names : List Bytes}
    (hrows : ∀ row ∈ rows, row ∈ rowsOf topology) (h : Named cfg used rows names) :
    ∀ row ∈ List.zipWith (adiskRow cfg) rows names, row.Listable := by
  induction h with
  | nil => simp
  | @cons used row rest name names hname _ ih =>
    intro published hp
    rw [List.zipWith_cons_cons, List.mem_cons] at hp
    rcases hp with rfl | hp
    · obtain ⟨htab, hnew, huuid⟩ := partDevice_of_mem_rowsOf (hrows row List.mem_cons_self)
      obtain ⟨hntab, hnnew⟩ := name_of_shareNameFor htab hnew hname
      refine ⟨hntab, htab, ?_⟩
      have hadvf : newline ∉ cfg.adiskDiskAdvf := by
        unfold Config.adiskDiskAdvf
        cases cfg.mdnsAdvertiseAfp <;> decide
      have hne : newline ≠ tab := by decide
      simp [AdiskRow.text_eq, adiskRow, hnnew, hnew, huuid, hadvf, hne]
    · exact ih (fun row hr => hrows row (List.mem_cons_of_mem _ hr)) published hp

theorem map_fst_writableRows_sublist (ans : Answers) (rows : List Row) :
    ((writableRows ans rows).map Prod.fst).Sublist rows := by
  have h : ((writableRows ans rows).map Prod.fst).Sublist (rows.zipIdx.map Prod.fst) :=
    List.filter_sublist.map Prod.fst
  rwa [List.zipIdx_map_fst] at h

/-! ## The invariant -/

/-- What identifies the volume of a row. -/
def Row.volume (row : Row) : Bytes × Bytes × Bytes := (row.partDevice, row.builtin, row.partUuid)

def ShareRow.volume (row : ShareRow) : Bytes × Bytes × Bytes :=
  (row.partDevice, row.builtin, row.partUuid)

def ShareRow.listing (row : ShareRow) : Bytes × Bytes × Bytes :=
  (row.shareName, row.partDevice, row.partUuid)

def AdiskRow.listing (row : AdiskRow) : Bytes × Bytes × Bytes :=
  (row.shareName, row.partDevice, row.partUuid)

/-- No payload is active, and nothing is shared or advertised. -/
structure Diskless (m : State) : Prop where
  payload : m.payload = none
  shares : m.shareRows = []
  adisks : m.adiskRows = []
  file : m.adiskFile = []

/-- A payload is active, and the three lists agree on volumes of the topology, in its order. -/
structure Serving (m : State) : Prop where
  ready : m.currentPayloadReady = true
  shares : m.shareRows ≠ []
  adisks : m.adiskRows.map AdiskRow.listing = m.shareRows.map ShareRow.listing
  file : m.adiskFile = adiskText m.adiskRows
  listed : listedVolumes m.adiskFile =
    m.shareRows.map fun row => (row.shareName, row.partDevice)
  topology : (m.shareRows.map ShareRow.volume).Sublist ((rowsOf m.topologyRows).map Row.volume)

def Consistent (m : State) : Prop := Diskless m ∨ Serving m

/-- The part of the state that Samba, the advertiser and the manager have to agree on. -/
structure Disks where
  topologyRows : Bytes
  payload : Option Payload
  shareRows : List ShareRow
  adiskRows : List AdiskRow
  adiskFile : Bytes
deriving DecidableEq, Repr

def State.disks (m : State) : Disks :=
  ⟨m.topologyRows, m.payload, m.shareRows, m.adiskRows, m.adiskFile⟩

theorem Consistent.of_disks (h : Consistent m) (hd : m'.disks = m.disks) : Consistent m' := by
  simp only [State.disks, Disks.mk.injEq] at hd
  obtain ⟨htopology, hpayload, hshares, hadisks, hfile⟩ := hd
  have hready : m'.currentPayloadReady = m.currentPayloadReady := by
    simp only [State.currentPayloadReady, hpayload]
  rcases h with h | h
  · exact .inl ⟨hpayload.trans h.payload, hshares.trans h.shares, hadisks.trans h.adisks,
      hfile.trans h.file⟩
  · refine .inr ⟨hready.trans h.ready, by rw [hshares]; exact h.shares, ?_, ?_, ?_, ?_⟩
    · rw [hadisks, hshares, h.adisks]
    · rw [hfile, hadisks, h.file]
    · rw [hfile, hshares, h.listed]
    · rw [hshares, htopology]
      exact h.topology

/-! ## The parts of a refresh -/

theorem diskless_clearPayloadState (m : State) : Diskless (clearPayloadState m .done) :=
  ⟨rfl, rfl, rfl, rfl⟩

theorem diskless_applyDisklessState (m : State) : Diskless (applyDisklessState m .done) :=
  ⟨rfl, rfl, rfl, rfl⟩

theorem payload_of_scanPayloadCandidates {builtin : Bool} {rows : List Row} {payload : Payload}
    (h : scanPayloadCandidates ans builtin rows = some payload) : payload.volume ≠ [] := by
  obtain ⟨⟨row, i⟩, hfind, rfl⟩ := Option.map_eq_some_iff.mp h
  have hrow := List.find?_some hfind
  simp only [Bool.and_eq_true, Answers.isVolumeRootMounted] at hrow
  simpa using hrow.1.2.1

theorem currentPayloadReady_of_resolvePayload {rows : List Row} {payload : Payload}
    (h : resolvePayload ans rows = some payload) (hm : m.payload = some payload) :
    m.currentPayloadReady = true := by
  rw [resolvePayload, Option.or_eq_some_iff] at h
  obtain ⟨builtin, hscan⟩ : ∃ builtin, scanPayloadCandidates ans builtin rows = some payload := by
    rcases h with h | ⟨-, h⟩
    · exact ⟨true, h⟩
    · exact ⟨false, h⟩
  have hvolume := payload_of_scanPayloadCandidates hscan
  obtain ⟨⟨row, i⟩, -, hp⟩ := Option.map_eq_some_iff.mp hscan
  have hdevice : payload.device ≠ [] := by
    rw [← hp]
    exact List.append_ne_nil_of_left_ne_nil (by decide) _
  have hdir : payload.dir ≠ [] := by
    rw [← hp]
    exact List.append_ne_nil_of_right_ne_nil _ (by decide)
  simp [State.currentPayloadReady, hm, hdir, hvolume, hdevice]

/-- Shares that were built and whose adisk file was written are served. -/
theorem serving_publishShares {payload : Payload} {shares : List ShareRow}
    {adisks : List AdiskRow} (hp : resolvePayload ans (rowsOf m.topologyRows) = some payload)
    (hbuild : buildShareState cfg ans (rowsOf m.topologyRows) = .rows shares adisks)
    (hne : shares ≠ []) (hw : ans.write = .done) :
    Serving (publishShares ans payload shares adisks m).1 := by
  obtain ⟨-, names, hnamed, hshares, hadisks⟩ := appendShares_eq_rows hbuild
  rw [List.nil_append] at hshares hadisks
  have hlen := hnamed.length_eq
  have hready : ({ m with
      shareRows := shares
      adiskRows := adisks
      payload := some payload } : State).currentPayloadReady = true :=
    currentPayloadReady_of_resolvePayload hp rfl
  have hsub := map_fst_writableRows_sublist ans (rowsOf m.topologyRows)
  have hadisksne : adisks ≠ [] := by
    intro hnil
    apply hne
    rw [hnil] at hadisks
    rw [hshares, List.zipWith_eq_nil_iff, ← List.zipWith_eq_nil_iff (f := adiskRow cfg)]
    exact hadisks.symm
  have hlisted : adisks.map AdiskRow.listing = shares.map ShareRow.listing := by
    rw [hadisks, hshares, List.map_zipWith, List.map_zipWith]
    rfl
  have hlistable := listable_of_named (fun row hr => hsub.subset hr) hnamed
  rw [← hadisks] at hlistable
  have hvolumes : shares.map ShareRow.volume =
      ((writableRows ans (rowsOf m.topologyRows)).map Prod.fst).map Row.volume := by
    rw [hshares]
    exact map_zipWith_shareRow (fun _ _ => rfl) hlen
  have hres : (publishShares ans payload shares adisks m).1 =
      { m with
        shareRows := shares
        adiskRows := adisks
        payload := some payload
        adiskFile := adiskText adisks
        diskStateChanged := true } := by
    simp [publishShares, materializeAdiskState, hw, State.adiskContent, hready, hadisksne]
  rw [hres]
  refine ⟨hready, hne, hlisted, rfl, ?_, ?_⟩
  · have hpairs := congrArg (List.map fun v : Bytes × Bytes × Bytes => (v.1, v.2.1)) hlisted
    rw [List.map_map, List.map_map] at hpairs
    exact (listedVolumes_adiskText hlistable).trans hpairs
  · rw [hvolumes]
    exact hsub.map Row.volume

/-! ## Steps -/

/-- Where a disk step does not go wrong.  Its adisk file is written if it is to be, and a migration
that fails outside the initial refresh finds a payload active. -/
structure Careful (cfg : Config) (ans : Answers) (r : Readings) (m : State) : Prop where
  written : ∀ initial topology, diskDecision cfg ans r m = .refresh initial topology →
    ans.write = .done ∨
      (initial = false ∧ m.currentPayloadReady = true ∧ MigrationFails cfg ans topology m)
  active : ∀ topology, diskDecision cfg ans r m = .refresh false topology →
    MigrationFails cfg ans topology m → m.currentPayloadReady = true

/-- The same for the steps between the disk steps. -/
def CarefulStep (cfg : Config) (m : State) : Step → Prop
  | .disk ans r => Careful cfg ans r m
  | .mdnsLaunch w => w = .done
  | .reset .refused => True
  | .reset (.broken left) => left = m.adiskFile
  | .reset (.done w) => w = .done

/-- The first reading changed, and the one after the debouncing is not the same. -/
def Unrepeated (r : Readings) (m : State) : Prop :=
  ∃ reading confirmed, r.current = some reading ∧ m.confirmedStableSignature = some confirmed ∧
    stableSignature reading ≠ confirmed ∧
    r.debounced.reading.map stableSignature ≠ some (stableSignature reading)

theorem initial_iff_of_decision (h : diskDecision cfg ans r m = .refresh initial topology) :
    initial = true ↔ m.confirmedStableSignature = none := by
  unfold diskDecision at h
  cases hr : r.current with
  | none => simp [hr] at h
  | some reading =>
    cases hc : m.confirmedStableSignature with
    | none =>
      simp only [hr, hc, Decision.refresh.injEq] at h
      simp [← h.1]
    | some confirmed =>
      simp only [hr, hc] at h
      have hfalse : initial = false := by
        split at h
        · simp only [decideConfirmed] at h
          split_ifs at h <;> simp_all
        · simp only [decideChanged] at h
          split at h
          · cases h
          · split_ifs at h
            simp_all
      simp [hfalse]

/-- A change that is not repeated is not refreshed from. -/
theorem decision_of_unrepeated (cfg : Config) (ans : Answers) (h : Unrepeated r m) :
    diskDecision cfg ans r m = .fail ∨ diskDecision cfg ans r m = .skip := by
  obtain ⟨reading, confirmed, hr, hc, hne, hdebounced⟩ := h
  simp only [diskDecision, hr, hc, hne, if_false, decideChanged]
  cases hd : r.debounced.reading with
  | none => exact .inl rfl
  | some second =>
    refine .inr ?_
    have hdiff : stableSignature second ≠ stableSignature reading := fun h =>
      hdebounced (by simp [hd, h])
    simp only [hdiff, ne_eq, not_false_eq_true, if_true, ite_self]

theorem disks_clearPayloadState_congr {m m' : State} {w : Write}
    (h : m'.topologyRows = m.topologyRows) :
    (clearPayloadState m' w).disks = (clearPayloadState m w).disks := by
  cases w <;> simp [clearPayloadState, materializeAdiskState, State.disks, State.adiskContent,
    State.currentPayloadReady, h]

/-- What one disk step leaves, when it is careful. -/
theorem reconcileDiskState_careful (hm : Consistent m) (hc : Careful cfg ans r m)
    (h : reconcileDiskState cfg ans r m = some (m', ok)) :
    Consistent m' ∧
      (m.confirmedStableSignature ≠ none → ok = false ∨ Unrepeated r m → m'.disks = m.disks) := by
  rw [reconcileDiskState] at h
  cases hdecision : diskDecision cfg ans r m with
  | fail =>
    simp only [hdecision, Option.some.injEq, Prod.mk.injEq] at h
    rw [← h.1]
    exact ⟨hm, fun _ _ => rfl⟩
  | skip =>
    simp only [hdecision, Option.some.injEq, Prod.mk.injEq] at h
    rw [← h.1]
    exact ⟨hm.of_disks rfl, fun _ _ => rfl⟩
  | refresh initial topology =>
    simp only [hdecision, refreshDiskState, Option.map_eq_some_iff, Prod.exists,
      Prod.mk.injEq] at h
    obtain ⟨m₂, ok₂, happly, hm', rfl⟩ := h
    have hdisks : m'.disks = m₂.disks := by
      rw [← hm']
      cases ok₂ <;> rfl
    have hquiet : ¬ Unrepeated r m := fun hu => by
      rcases decision_of_unrepeated cfg ans hu with h | h <;> simp [h] at hdecision
    have hinitial := initial_iff_of_decision hdecision
    rw [hdisks]
    suffices hgoal : Consistent m₂ ∧ (initial = false → ok₂ = false → m₂.disks = m.disks) by
      refine ⟨hgoal.1.of_disks hdisks, fun hconfirmed hor => ?_⟩
      refine hgoal.2 ?_ (hor.resolve_right hquiet)
      cases hi : initial
      · rfl
      · exact absurd (hinitial.mp hi) hconfirmed
    cases applyRuntimeFromTopology_refreshed happly with
    | @diskless m₁ _ hok =>
      rcases hc.written _ _ hdecision with hw | ⟨-, -, hfails⟩
      · rw [hw]
        exact ⟨.inl (diskless_applyDisklessState m₁), fun _ h => by cases h⟩
      · exact absurd hfails hok
    | @withheld m₁ _ hfails hwhy =>
      have hstart : initial = true := by
        rcases hwhy with hi | hready
        · exact hi
        · by_contra hi
          have hfalse := Bool.eq_false_of_not_eq_true hi
          have := hc.active topology (hfalse ▸ hdecision) hfails
          simp [hready] at this
      rcases hc.written _ _ hdecision with hw | ⟨hi, -, -⟩
      · rw [hw]
        exact ⟨.inl (diskless_clearPayloadState m₁), fun hi => by simp [hstart] at hi⟩
      · simp [hstart] at hi
    | @kept m₁ hp hfails hi hready =>
      have hkept : ({ m₁ with topologyRows := m.topologyRows } : State).disks = m.disks := by
        obtain ⟨_, _, _, rfl⟩ := hp.frame
        rfl
      exact ⟨hm.of_disks hkept, fun _ _ => hkept⟩
    | @published payload shares adisks hp hfails hbuild hne =>
      have hw : ans.write = .done := (hc.written _ _ hdecision).resolve_right fun h => hfails h.2.2
      have hserving := fun m₁ (htopology : (m₁ : State).topologyRows = topology) =>
        serving_publishShares (m := m₁) (htopology ▸ hp) (htopology ▸ hbuild) hne hw
      obtain ⟨_, _, _, hframe⟩ := migrateBootXattrs_frame cfg ans payload (rowsOf topology)
        { m with topologyRows := topology }
      refine ⟨.inr (hserving _ ?_), fun _ h => by simp [hw] at h⟩
      rw [hframe]

/-! ## Runs -/

/-- The part of the state a step between the disk steps leaves is consistent, when it is careful. -/
theorem step_careful {s : Step} (hm : Consistent m) (hc : CarefulStep cfg m s)
    (h : step cfg m s = some m') : Consistent m' := by
  have hwritten : ∀ m₁ : State, m₁.payload = m.payload → m₁.shareRows = m.shareRows →
      m₁.adiskRows = m.adiskRows → m₁.topologyRows = m.topologyRows →
      (materializeAdiskState m₁ .done).1.disks = m.disks := by
    intro m₁ hpayload hshares hadisks htopology
    have hready : m₁.currentPayloadReady = m.currentPayloadReady := by
      simp only [State.currentPayloadReady, hpayload]
    have hfile : m₁.adiskContent = m.adiskFile := by
      rw [State.adiskContent, hready, hadisks]
      rcases hm with h | h
      · simp [h.adisks, h.file]
      · have hne : m.adiskRows ≠ [] := by
          intro hnil
          have := h.adisks
          rw [hnil] at this
          exact h.shares (by simpa using this.symm)
        simp [h.ready, h.file, hne]
    simp [materializeAdiskState, State.disks, hpayload, hshares, hadisks, htopology, hfile]
  cases s with
  | disk ans r =>
    obtain ⟨⟨m₁, ok⟩, hs, rfl⟩ := Option.map_eq_some_iff.mp h
    exact (reconcileDiskState_careful hm hc hs).1
  | mdnsLaunch w =>
    cases hc
    cases h
    exact hm.of_disks (hwritten m rfl rfl rfl rfl)
  | reset reset =>
    cases h
    cases reset with
    | refused => exact hm
    | broken left =>
      refine hm.of_disks ?_
      rw [show left = m.adiskFile from hc]
      rfl
    | done w =>
      cases hc
      exact hm.of_disks (hwritten _ rfl rfl rfl rfl)

theorem consistent_of_reached (h : Reached cfg (· = .done) (CarefulStep cfg) m) : Consistent m := by
  refine h.invariant ?_ fun _ _ _ hm hc hs => step_careful hm hc hs
  rintro file w rfl
  exact .inl (diskless_clearPayloadState _)

/-- In a run of careful steps every disk step ends with one list of shares, and one that fails, or
whose change is not repeated, leaves what it found, unless it is the initial refresh. -/
theorem disk_step_of_careful (h : Reached cfg (· = .done) (CarefulStep cfg) m)
    (hc : Careful cfg ans r m) (hs : reconcileDiskState cfg ans r m = some (m', ok)) :
    Consistent m' ∧
      (m.confirmedStableSignature ≠ none → ok = false ∨ Unrepeated r m → m'.disks = m.disks) :=
  reconcileDiskState_careful (consistent_of_reached h) hc hs

/-! ### Two runs -/

/-- The reading of one internal disk. -/
def dataReading : Bytes :=
  ascii "wd0\t1\tdk2\t/Volumes/dk2\tData\t11111111-2222-3333-4444-555555555555\thfs\t1"

/-- Every command succeeds; `payload` tells whether a payload directory is there, `copied` whether the
copy phase goes through and `w` how the adisk file is written. -/
def dataAnswers (payload copied : Bool) (w : Write) : Answers where
  mounted _ _ := true
  verified _ _ := payload
  writable _ := true
  prepared _ := true
  tdbFound := true
  phase p := p != .copy || copied
  write := w
  reclaimed _ := true

def dataReadings : Readings := ⟨.rows dataReading, .failed, .failed⟩

def migratingConfig : Config := ⟨true, false, false⟩

theorem disk_step_of_careful_start :
    Consistent (boot [] .done) ∧
      ∃ m' ok, reconcileDiskState migratingConfig (dataAnswers true true .done) dataReadings
        (boot [] .done) = some (m', ok) ∧ Consistent m' := by
  have hreached : Reached migratingConfig (· = .done) (CarefulStep migratingConfig)
      (boot [] .done) := .start [] .done rfl
  have hc : Careful migratingConfig (dataAnswers true true .done) dataReadings (boot [] .done) :=
    ⟨fun _ _ _ => .inl rfl, fun topology h _ => by
      have := initial_iff_of_decision h
      simp [boot, clearPayloadState, materializeAdiskState] at this⟩
  have hsome : (reconcileDiskState migratingConfig (dataAnswers true true .done) dataReadings
      (boot [] .done)).isSome = true := by decide +kernel
  obtain ⟨⟨m', ok⟩, hs⟩ := Option.isSome_iff_exists.mp hsome
  exact ⟨consistent_of_reached hreached, m', ok, hs, (disk_step_of_careful hreached hc hs).1⟩

/-- A payload is served with an adisk file that could not be written; and a refresh whose migration
fails, with no payload active, keeps the new topology although the disk step fails. -/
theorem not_disk_step_consistent :
    (∃ m m' ok, Reached migratingConfig (fun _ => True) (fun _ _ => True) m ∧
      reconcileDiskState migratingConfig (dataAnswers true true (.failed [])) dataReadings m =
        some (m', ok) ∧ ¬ Consistent m') ∧
    ∃ m m', Reached migratingConfig (fun _ => True) (fun _ _ => True) m ∧
      m.confirmedStableSignature ≠ none ∧
      reconcileDiskState migratingConfig (dataAnswers true false .done) dataReadings m =
        some (m', false) ∧ m'.disks ≠ m.disks := by
  have hstart : Reached migratingConfig (fun _ => True) (fun _ _ => True) (boot [] .done) :=
    .start [] .done trivial
  constructor
  · have hrun : ((reconcileDiskState migratingConfig (dataAnswers true true (.failed []))
        dataReadings (boot [] .done)).any fun result =>
          result.1.payload.isSome && result.1.adiskFile != adiskText result.1.adiskRows) = true := by
      decide +kernel
    obtain ⟨⟨m', ok⟩, hs, hbad⟩ := (Option.any_eq_true _ _).mp hrun
    refine ⟨_, m', ok, hstart, hs, ?_⟩
    simp only [Bool.and_eq_true, bne_iff_ne, ne_eq] at hbad
    rintro (h | h)
    · simp [h.payload] at hbad
    · exact hbad.2 h.file
  · have hrun : ((step migratingConfig (boot [] .done)
        (.disk (dataAnswers false true .done) dataReadings)).any fun m =>
          m.confirmedStableSignature.isSome &&
            (reconcileDiskState migratingConfig (dataAnswers true false .done) dataReadings m).any
              fun result => !result.2 && result.1.disks != m.disks) = true := by
      decide +kernel
    obtain ⟨m, hstep, hm⟩ := (Option.any_eq_true _ _).mp hrun
    rw [Bool.and_eq_true, Option.any_eq_true] at hm
    obtain ⟨hconfirmed, ⟨m', ok⟩, hs, hbad⟩ := hm
    simp only [Bool.and_eq_true, Bool.not_eq_true', bne_iff_ne, ne_eq] at hbad
    obtain ⟨rfl, hdiff⟩ := hbad
    refine ⟨m, m', hstart.next trivial hstep, ?_, hs, hdiff⟩
    rw [ne_eq, ← Option.isNone_iff_eq_none, ← Option.not_isSome, hconfirmed]
    simp

end TimeCapsule.Manager
