import TimeCapsule.Migrate.Program

/-!
# What the phases touch

The cleanup phase never asks for a call that changes an attribute or a resource fork, and the copy
phase never asks for one that changes the database or a directory, whatever the calls answer.
-/

namespace TimeCapsule.Migrate

open Lib

variable {α β : Type}

/-- Calls that change native metadata. -/
def MigrateOp.writesNative : MigrateOp → Bool
  | .setxattr _ _ _ => true
  | .removexattr _ _ => true
  | .openResource _ create => create
  | .pwrite _ _ _ => true
  | .ftruncate _ _ => true
  | _ => false

/-- Calls that change the database or take a name away. -/
def MigrateOp.writesSource : MigrateOp → Bool
  | .unlink _ => true
  | .tdbTransactionStart => true
  | .tdbDelete _ => true
  | .tdbTransactionCancel => true
  | .tdbTransactionCommit => true
  | .tdbUnlink => true
  | _ => false

/-- What a phase must not ask for. -/
def Phase.forbids : Phase → MigrateOp → Bool
  | .copy => MigrateOp.writesSource
  | .cleanup => MigrateOp.writesNative

/-- A call that changes nothing. -/
def MigrateOp.Reads (op : MigrateOp) : Prop := op.writesNative = false ∧ op.writesSource = false

/-- A call that reads the contents of a file or one row of the database. -/
def MigrateOp.ReadsRow (key : Bytes) : MigrateOp → Prop
  | .tdbGetattr key' _ => key' = key
  | .pread _ .data _ _ => True
  | _ => False

/-- The program only reads. -/
abbrev ReadsOnly (p : Mig α) : Prop := Prog.UsesE MigrateOp.Reads p

/-- The program reads nothing but contents and one row of the database. -/
abbrev ReadsRow (key : Bytes) (p : Mig α) : Prop := Prog.UsesE (MigrateOp.ReadsRow key) p

theorem MigrateOp.ReadsRow.reads {key : Bytes} {op : MigrateOp} (h : op.ReadsRow key) :
    op.Reads := by
  cases op
  case tdbGetattr => exact ⟨rfl, rfl⟩
  case pread => exact ⟨rfl, rfl⟩
  all_goals exact absurd h id

theorem ReadsRow.readsOnly {key : Bytes} {p : Mig α} (h : ReadsRow key p) : ReadsOnly p :=
  Prog.Uses.mono h fun _ hop => hop.reads

/-- The program keeps to what the phase may do. -/
abbrev InPhase (phase : Phase) (p : Mig α) : Prop :=
  Prog.UsesE (fun op => phase.forbids op = false) p

/-- What a file's own metadata needs: nothing but native metadata is changed, and that only in a
copy. -/
def Phase.Allows (phase : Phase) (op : MigrateOp) : Prop :=
  op.writesSource = false ∧ (phase = .cleanup → op.writesNative = false)

abbrev OnNative (phase : Phase) (p : Mig α) : Prop := Prog.UsesE phase.Allows p

theorem OnNative.inPhase {phase : Phase} {p : Mig α} (h : OnNative phase p) : InPhase phase p := by
  apply Prog.Uses.mono h
  intro op hop
  cases phase with
  | copy => exact hop.1
  | cleanup => exact hop.2 rfl

theorem OnNative.readsOnly {p : Mig α} (h : OnNative .cleanup p) : ReadsOnly p :=
  Prog.Uses.mono h fun _ hop => ⟨hop.2 rfl, hop.1⟩

theorem ReadsOnly.onNative {p : Mig α} (h : ReadsOnly p) (phase : Phase) : OnNative phase p :=
  Prog.Uses.mono h fun _ hop => ⟨hop.2, fun _ => hop.1⟩

theorem ReadsOnly.inPhase {p : Mig α} (h : ReadsOnly p) (phase : Phase) : InPhase phase p := by
  apply Prog.Uses.mono h
  intro op hop
  cases phase with
  | copy => exact hop.2
  | cleanup => exact hop.1

/-! ## Effects -/

section Effects

variable {op : MigrateOp} {fault : Fault} {w : World}

theorem snd_answer {r : Except Errno α × World} (h : r.2 = w) : (answer fault w r).2 = w := by
  rw [answer]
  cases fault.error with
  | none => exact h
  | some e => rfl

theorem perform_reads (h : op.Reads) : (w.perform fault op).2 = w := by
  obtain ⟨hnative, hsource⟩ := h
  cases op
  case setxattr => exact Bool.noConfusion hnative
  case removexattr => exact Bool.noConfusion hnative
  case pwrite => exact Bool.noConfusion hnative
  case ftruncate => exact Bool.noConfusion hnative
  case unlink => exact Bool.noConfusion hsource
  case tdbTransactionStart => exact Bool.noConfusion hsource
  case tdbDelete => exact Bool.noConfusion hsource
  case tdbTransactionCancel => exact Bool.noConfusion hsource
  case tdbTransactionCommit => exact Bool.noConfusion hsource
  case tdbUnlink => exact Bool.noConfusion hsource
  case openResource path create =>
    obtain rfl : create = false := hnative
    apply snd_answer
    cases w.path path with
    | none => rfl
    | some id =>
      show (w.openResource id false).2 = w
      rw [World.openResource]
      split <;> rfl
  all_goals exact snd_answer rfl

/-- What the copy phase leaves as it is: names, files' contents and the database. -/
structure SourceKept (w w' : World) : Prop where
  path : w'.path = w.path
  names : w'.names = w.names
  tdb : w'.tdb = w.tdb
  kind : ∀ id, (w'.inode id).kind = (w.inode id).kind
  data : ∀ id, (w'.inode id).data = (w.inode id).data
  times : ∀ id, (w'.inode id).mtime = (w.inode id).mtime ∧ (w'.inode id).ctime = (w.inode id).ctime

theorem SourceKept.refl (w : World) : SourceKept w w :=
  ⟨rfl, rfl, rfl, fun _ => rfl, fun _ => rfl, fun _ => ⟨rfl, rfl⟩⟩

theorem SourceKept.trans {u v w : World} (h : SourceKept u v) (h' : SourceKept v w) :
    SourceKept u w where
  path := h'.path.trans h.path
  names := h'.names.trans h.names
  tdb := h'.tdb.trans h.tdb
  kind id := (h'.kind id).trans (h.kind id)
  data id := (h'.data id).trans (h.data id)
  times id := ⟨(h'.times id).1.trans (h.times id).1, (h'.times id).2.trans (h.times id).2⟩

/-- What is not native metadata in a file. -/
def Inode.source (inode : Inode) : FileKind × Bytes × Nat × Nat :=
  (inode.kind, inode.data, inode.mtime, inode.ctime)

theorem modify_source {id : FileId} {f : Inode → Inode} (h : ∀ i, (f i).source = i.source)
    (id' : FileId) : ((w.modify id f).inode id').source = (w.inode id').source := by
  show (if id' = id then f (w.inode id') else w.inode id').source = _
  split
  · exact h _
  · rfl

theorem sourceKept_modify {id : FileId} {f : Inode → Inode} (h : ∀ i, (f i).source = i.source) :
    SourceKept w (w.modify id f) where
  path := rfl
  names := rfl
  tdb := rfl
  kind id' := congrArg (·.1) (modify_source h id')
  data id' := congrArg (·.2.1) (modify_source h id')
  times id' := ⟨congrArg (·.2.2.1) (modify_source h id'), congrArg (·.2.2.2) (modify_source h id')⟩

/-- What the cleanup phase leaves as it is: files' contents and all native metadata. -/
def NativeKept (w w' : World) : Prop := w'.inode = w.inode

theorem answer_cases (P : World → Prop) {r : Except Errno α × World} (hw : P w) (hr : P r.2) :
    P (answer fault w r).2 := by
  rw [answer]
  cases fault.error with
  | none => exact hr
  | some e => exact hw

theorem perform_sourceKept (h : op.writesSource = false) :
    SourceKept w (w.perform fault op).2 := by
  by_cases hnative : op.writesNative = false
  · rw [perform_reads ⟨hnative, h⟩]
    exact .refl w
  · cases op
    case setxattr id name value =>
      exact answer_cases _ (.refl w) (sourceKept_modify fun _ => rfl)
    case removexattr id name =>
      apply answer_cases _ (.refl w)
      cases (w.inode id).attrs.lookup name with
      | none => exact .refl w
      | some value => exact sourceKept_modify fun _ => rfl
    case openResource path create =>
      apply answer_cases _ (.refl w)
      cases w.path path with
      | none => exact .refl w
      | some id =>
        show SourceKept w (w.openResource id create).2
        rw [World.openResource]
        split
        · exact .refl w
        · split
          · exact sourceKept_modify fun _ => rfl
          · exact .refl w
    case pwrite id offset bytes =>
      exact answer_cases _ (.refl w) (sourceKept_modify fun _ => rfl)
    case ftruncate id size =>
      exact answer_cases _ (.refl w) (sourceKept_modify fun _ => rfl)
    all_goals exact absurd rfl hnative

theorem perform_nativeKept (h : op.writesNative = false) :
    NativeKept w (w.perform fault op).2 := by
  rw [NativeKept]
  by_cases hsource : op.writesSource = false
  · rw [perform_reads ⟨h, hsource⟩]
  · cases op
    case unlink path =>
      apply answer_cases (fun w' => w'.inode = w.inode) rfl
      cases w.path path with
      | none => rfl
      | some id => rfl
    case tdbTransactionStart => exact answer_cases (fun w' => w'.inode = w.inode) rfl rfl
    case tdbDelete => exact answer_cases (fun w' => w'.inode = w.inode) rfl rfl
    case tdbTransactionCancel => exact answer_cases (fun w' => w'.inode = w.inode) rfl rfl
    case tdbTransactionCommit => exact answer_cases (fun w' => w'.inode = w.inode) rfl rfl
    case tdbUnlink => exact answer_cases (fun w' => w'.inode = w.inode) rfl rfl
    all_goals exact absurd rfl hsource

end Effects

/-! ## Calls that only read -/

section Reads

variable {P : MigrateOp → Prop}

theorem usesE_sys {op : MigrateOp} (h : P op) : Prog.UsesE P (sys op) := ⟨h, fun _ => trivial⟩

theorem reads_sys {op : MigrateOp} (hnative : op.writesNative = false)
    (hsource : op.writesSource = false) : ReadsOnly (sys op) :=
  usesE_sys ⟨hnative, hsource⟩

theorem reads_tcNativeGet (fd : FileId) (name : Name) : ReadsOnly (tcNativeGet fd name) := by
  apply Prog.UsesE.bind (reads_sys rfl rfl)
  intro size
  split
  · exact Prog.usesE_pure _
  · apply Prog.UsesE.bind (reads_sys rfl rfl)
    intro value
    split
    · exact Prog.usesE_throw _
    · exact Prog.usesE_pure _

theorem readsRow_tcTdbGet (id : FileId) (name : Name) :
    ReadsRow (pushFileId16 id) (tcTdbGet id name) :=
  usesE_sys rfl

theorem readsRow_readTdbExtents (id : FileId) (raw : Name) (count i : Nat) :
    ReadsRow (pushFileId16 id) (readTdbExtents id raw count i) := by
  induction count generalizing i with
  | zero => exact Prog.usesE_pure _
  | succ count ih =>
    apply Prog.UsesE.bind (readsRow_tcTdbGet _ _)
    intro extent
    exact Prog.UsesE.bind (ih (i + 1)) fun rest => Prog.usesE_pure _

theorem readsRow_tcReadTdbStream (id : FileId) (anchorName : Name) :
    ReadsRow (pushFileId16 id) (tcReadTdbStream id anchorName) := by
  apply Prog.UsesE.bind (readsRow_tcTdbGet _ _)
  intro anchor
  split
  · exact Prog.usesE_throw _
  · split
    · exact Prog.usesE_throw _
    · apply Prog.UsesE.bind (readsRow_readTdbExtents _ _ _ _)
      intro _
      exact Prog.UsesE.bind (readsRow_readTdbExtents _ _ _ _) fun extents => Prog.usesE_pure _

theorem reads_readNativeExtents (fd : FileId) (raw : Name) (count i : Nat) :
    ReadsOnly (readNativeExtents fd raw count i) := by
  induction count generalizing i with
  | zero => exact Prog.usesE_pure _
  | succ count ih =>
    apply Prog.UsesE.bind (reads_tcNativeGet _ _)
    intro fragment
    split
    · exact Prog.usesE_throw _
    · exact ih (i + 1)

theorem reads_tcKeepNativeStream (fd : FileId) (anchorName : Name) :
    ReadsOnly (tcKeepNativeStream fd anchorName) := by
  apply Prog.UsesE.bind (reads_tcNativeGet _ _).attempt
  intro existing
  cases existing with
  | error e =>
    show ReadsOnly (if tcMissingError e then pure false else throw e)
    split
    · exact Prog.usesE_pure _
    · exact Prog.usesE_throw _
  | ok fragment =>
    show ReadsOnly (if fragment.length = 0 ∨ hfsXattrSize < fragment.length then throw .eio else _)
    split
    · exact Prog.usesE_throw _
    · split
      · exact Prog.usesE_throw _
      · exact Prog.UsesE.bind (reads_readNativeExtents _ _ _ _) fun _ => Prog.usesE_pure _

theorem readsRow_tcFinderinfoFromStream (id : FileId) :
    ReadsRow (pushFileId16 id) (tcFinderinfoFromStream id) := by
  apply Prog.UsesE.bind (readsRow_tcReadTdbStream _ _)
  intro logical
  split
  · exact Prog.usesE_throw _
  · split
    · exact Prog.usesE_throw _
    · exact Prog.usesE_pure _

theorem readsRow_tcFinderinfoFromNetatalk (id : FileId) :
    ReadsRow (pushFileId16 id) (tcFinderinfoFromNetatalk id) := by
  apply Prog.UsesE.bind (readsRow_tcTdbGet _ _)
  intro blob
  cases tcAppledoubleEntry blob adFinderi with
  | error e => exact Prog.usesE_throw _
  | ok entry =>
    show ReadsRow _ (if entry.length ≠ afpFinderSize then throw .einval else pure entry)
    split
    · exact Prog.usesE_throw _
    · exact Prog.usesE_pure _

theorem ReadsRow.orElseMissing {key : Bytes} {first second : Mig Bytes} (h : ReadsRow key first)
    (h' : ReadsRow key second) : ReadsRow key (orElseMissing first second) := by
  apply Prog.UsesE.bind (Prog.UsesE.attempt h)
  intro result
  cases result with
  | ok finderinfo => exact Prog.usesE_pure _
  | error e =>
    show ReadsRow _ (if tcMissingError e then second else throw e)
    split
    · exact h'
    · exact Prog.usesE_throw _

theorem readsRow_legacyFinderinfo (metadata : LegacyMetadata) (id : FileId) :
    ReadsRow (pushFileId16 id) (legacyFinderinfo metadata id) := by
  cases metadata with
  | stream =>
    exact (readsRow_tcFinderinfoFromStream id).orElseMissing (readsRow_tcFinderinfoFromNetatalk id)
  | netatalk =>
    exact (readsRow_tcFinderinfoFromNetatalk id).orElseMissing (readsRow_tcFinderinfoFromStream id)

theorem usesE_tcPreadExact {fd : FileId} {fork : Fork}
    (h : ∀ offset size, P (.pread fd fork offset size)) (fuel offset size : Nat) :
    Prog.UsesE P (tcPreadExact fd fork fuel offset size) := by
  induction fuel generalizing offset size with
  | zero => exact Prog.usesE_pure _
  | succ fuel ih =>
    rw [tcPreadExact]
    split
    · exact Prog.usesE_pure _
    · apply Prog.UsesE.bind (usesE_sys (h _ _))
      intro bytes
      split
      · exact Prog.usesE_throw _
      · exact Prog.UsesE.bind (ih _ _) fun rest => Prog.usesE_pure _

theorem reads_preadExact (fd : FileId) (fork : Fork) (offset size : Nat) :
    ReadsOnly (preadExact fd fork offset size) :=
  usesE_tcPreadExact (fun _ _ => ⟨rfl, rfl⟩) _ _ _

theorem readsRow_preadExact (key : Bytes) (fd : FileId) (offset size : Nat) :
    ReadsRow key (preadExact fd .data offset size) :=
  usesE_tcPreadExact (fun _ _ => trivial) _ _ _

theorem readsRow_tcParseAppledouble (key : Bytes) (fd : FileId) (size : Nat) :
    ReadsRow key (tcParseAppledouble fd size) := by
  rw [tcParseAppledouble]
  split
  · exact Prog.usesE_pure _
  · apply Prog.UsesE.bind (readsRow_preadExact key _ _ _)
    intro header
    cases parseHeader size header with
    | ordinary => exact Prog.usesE_pure _
    | corrupt e => exact Prog.usesE_throw _
    | appleDouble ad => exact Prog.usesE_pure _

theorem readsRow_tcIsEmptyResourcefork (key : Bytes) (source : FileId) (entry : AdEntry) :
    ReadsRow key (tcIsEmptyResourcefork source entry) := by
  rw [tcIsEmptyResourcefork]
  split
  · exact Prog.usesE_pure _
  · apply Prog.UsesE.bind (readsRow_preadExact key _ _ _)
    intro value
    exact Prog.usesE_pure _

theorem reads_compareChunks (source fork : FileId) (entry : AdEntry)
    (nativeSize chunks offset : Nat) :
    ReadsOnly (compareChunks source fork entry nativeSize chunks offset) := by
  induction chunks generalizing offset with
  | zero => exact Prog.usesE_pure _
  | succ chunks ih =>
    apply Prog.UsesE.bind (reads_preadExact _ _ _ _)
    intro sourceBytes
    apply Prog.UsesE.bind (reads_preadExact _ _ _ _)
    intro native
    exact Prog.UsesE.bind (ih _) fun rest => Prog.usesE_pure _

theorem reads_tcVerifyResource (source fork : FileId) (entry : AdEntry) :
    ReadsOnly (tcVerifyResource source fork entry) := by
  apply Prog.UsesE.bind (reads_sys rfl rfl)
  intro nativeSize
  exact Prog.UsesE.bind (reads_compareChunks _ _ _ _ _ _) fun different => Prog.usesE_pure _

theorem reads_tcResourceMarkerState (base : FileId) (length : Nat) :
    ReadsOnly (tcResourceMarkerState base length) := by
  apply Prog.UsesE.bind (Prog.UsesE.attempt (reads_sys rfl rfl))
  intro size
  cases size with
  | error e =>
    show ReadsOnly (if tcMissingError e then pure false else throw e)
    split
    · exact Prog.usesE_pure _
    · exact Prog.usesE_throw _
  | ok size =>
    show ReadsOnly (if size ≠ 16 then throw .einval else _)
    split
    · exact Prog.usesE_throw _
    · apply Prog.UsesE.bind (reads_sys rfl rfl)
      intro marker
      split
      · exact Prog.usesE_throw _
      · exact Prog.usesE_pure _

end Reads

/-! ## Calls of a phase -/

section Phases

variable {phase : Phase}

theorem inPhase_sys {op : MigrateOp} (h : phase.forbids op = false) : InPhase phase (sys op) :=
  usesE_sys h

theorem inPhase_reads {op : MigrateOp} (hnative : op.writesNative = false)
    (hsource : op.writesSource = false) : InPhase phase (sys op) :=
  (reads_sys hnative hsource).inPhase phase

theorem onNative_copy {op : MigrateOp} (h : op.writesSource = false) : OnNative .copy (sys op) :=
  usesE_sys ⟨h, fun hphase => Phase.noConfusion hphase⟩

theorem onNative_reads {op : MigrateOp} (hnative : op.writesNative = false)
    (hsource : op.writesSource = false) : OnNative phase (sys op) :=
  (reads_sys hnative hsource).onNative phase

theorem onNative_tcAirportFsetxattr (fd : FileId) (name : Name) (value : Bytes) :
    OnNative .copy (tcAirportFsetxattr fd name value) := by
  apply Prog.UsesE.bind (onNative_copy rfl)
  intro _
  apply Prog.UsesE.bind (Prog.UsesE.attempt (onNative_copy rfl))
  intro result
  apply Prog.UsesE.bind (Prog.UsesE.attempt (onNative_copy rfl))
  intro unlocked
  cases result with
  | error e => exact Prog.usesE_throw _
  | ok _ => trivial

theorem onNative_tcAirportFremovexattr (fd : FileId) (name : Name) :
    OnNative .copy (tcAirportFremovexattr fd name) := by
  apply Prog.UsesE.bind (onNative_copy rfl)
  intro _
  apply Prog.UsesE.bind (Prog.UsesE.attempt (onNative_copy rfl))
  intro result
  apply Prog.UsesE.bind (Prog.UsesE.attempt (onNative_copy rfl))
  intro unlocked
  cases result with
  | error e => exact Prog.usesE_throw _
  | ok _ => trivial

theorem onNative_tcNativeWrite (fd : FileId) (name : Name) (value : Bytes) :
    OnNative phase (tcNativeWrite phase fd name value) := by
  cases phase with
  | cleanup => exact Prog.usesE_throw _
  | copy =>
    apply Prog.UsesE.bind (onNative_tcAirportFsetxattr _ _ _)
    intro _
    apply Prog.UsesE.bind (Prog.UsesE.attempt ((reads_tcNativeGet _ _).onNative _))
    intro existing
    cases existing with
    | error e => exact Prog.usesE_throw _
    | ok existing =>
      show OnNative _ (if existing = value then pure () else throw .eio)
      split
      · exact Prog.usesE_pure _
      · exact Prog.usesE_throw _

theorem onNative_tcNativeWriteVerified (fd : FileId) (name : Name) (value : Bytes)
    (keepExisting : Bool) :
    OnNative phase (tcNativeWriteVerified phase fd name value keepExisting) := by
  apply Prog.UsesE.bind (Prog.UsesE.attempt ((reads_tcNativeGet _ _).onNative _))
  intro existing
  cases existing with
  | ok existing =>
    show OnNative _ (if existing = value then pure () else if keepExisting then pure () else _)
    split
    · exact Prog.usesE_pure _
    · split
      · exact Prog.usesE_pure _
      · exact onNative_tcNativeWrite _ _ _
  | error e =>
    show OnNative _ (if tcMissingError e then _ else throw e)
    split
    · exact onNative_tcNativeWrite _ _ _
    · exact Prog.usesE_throw _

theorem onNative_writeExtents (fd : FileId) (raw : Name) (count i : Nat) (rest : Bytes) :
    OnNative phase (writeExtents phase fd raw count i rest) := by
  induction count generalizing i rest with
  | zero => exact Prog.usesE_pure _
  | succ count ih =>
    exact Prog.UsesE.bind (onNative_tcNativeWriteVerified _ _ _ _) fun _ => ih _ _

theorem onNative_tcWriteInternalStream (fd : FileId) (anchorName : Name) (logical : Bytes) :
    OnNative phase (tcWriteInternalStream phase fd anchorName logical) := by
  apply Prog.UsesE.bind ((reads_tcKeepNativeStream _ _).onNative _)
  intro existing
  split
  · exact Prog.usesE_pure _
  · show OnNative _ (if hfsStreamXattrs ≤ extentsFor logical.length then throw .eoverflow else _)
    split
    · exact Prog.usesE_throw _
    · apply Prog.UsesE.bind (onNative_writeExtents _ _ _ _ _)
      intro _
      exact onNative_tcNativeWriteVerified _ _ _ _

theorem onNative_tcMigrateStream (fd id : FileId) (anchorName : Name) :
    OnNative phase (tcMigrateStream phase fd id anchorName) := by
  rw [tcMigrateStream]
  split
  · exact Prog.usesE_pure _
  · apply Prog.UsesE.bind ((readsRow_tcReadTdbStream _ _).readsOnly.onNative _)
    intro logical
    cases tcAppleNativeName anchorName with
    | none => exact onNative_tcWriteInternalStream _ _ _
    | some native =>
      show OnNative _ (if hfsXattrSize < logical.length then throw .eoverflow else _)
      split
      · exact Prog.usesE_throw _
      · exact onNative_tcNativeWriteVerified _ _ _ _

variable {m : Migration}

theorem onNative_tcImportFinderinfo (fd id : FileId) :
    OnNative m.phase (tcImportFinderinfo m fd id) := by
  apply Prog.UsesE.bind (Prog.UsesE.attempt ((readsRow_legacyFinderinfo _ _).readsOnly.onNative _))
  intro finderinfo
  cases finderinfo with
  | error e =>
    show OnNative _ (if tcMissingError e then pure () else throw e)
    split
    · exact Prog.usesE_pure _
    · exact Prog.usesE_throw _
  | ok finderinfo =>
    show OnNative _ (if allZero finderinfo then pure () else _)
    split
    · exact Prog.usesE_pure _
    · exact onNative_tcNativeWriteVerified _ _ _ _

theorem onNative_tcMigrateFinderinfo (fd id : FileId) :
    OnNative m.phase (tcMigrateFinderinfo m fd id) := by
  apply Prog.UsesE.bind (Prog.UsesE.attempt ((reads_tcNativeGet _ _).onNative _))
  intro existing
  cases existing with
  | ok existing =>
    show OnNative _ (if existing.length ≠ afpFinderSize then throw .eio else pure ())
    split
    · exact Prog.usesE_throw _
    · exact Prog.usesE_pure _
  | error e =>
    show OnNative _ (if tcMissingError e then _ else throw e)
    split
    · exact onNative_tcImportFinderinfo _ _
    · exact Prog.usesE_throw _

theorem onNative_tcMigrateAttribute (fd id : FileId) (name : Name) :
    OnNative m.phase (tcMigrateAttribute m fd id name) := by
  rw [tcMigrateAttribute]
  split
  · exact Prog.usesE_pure _
  · split
    · exact onNative_tcMigrateStream _ _ _
    · apply Prog.UsesE.bind ((readsRow_tcTdbGet _ _).readsOnly.onNative _)
      intro value
      split
      · exact Prog.usesE_throw _
      · exact onNative_tcNativeWriteVerified _ _ _ _

theorem onNative_tcMigrateAttributes (fd id : FileId) (names : List Name) :
    OnNative m.phase (tcMigrateAttributes m fd id names) := by
  induction names with
  | nil => exact Prog.usesE_pure _
  | cons name names ih => exact Prog.UsesE.bind (onNative_tcMigrateAttribute _ _ _) fun _ => ih

theorem onNative_tcMigrateTdbRecord (retired : List Bytes) (fd id : FileId) :
    OnNative m.phase (tcMigrateTdbRecord m retired fd id) := by
  rw [tcMigrateTdbRecord]
  split
  · exact Prog.usesE_pure _
  · split
    · exact Prog.usesE_pure _
    · apply Prog.UsesE.bind (onNative_reads rfl rfl)
      intro sized
      split
      · exact Prog.usesE_pure _
      · apply Prog.UsesE.bind (onNative_reads rfl rfl)
        intro list
        split
        · exact Prog.usesE_throw _
        · exact Prog.UsesE.bind (onNative_tcMigrateFinderinfo _ _) fun _ =>
            onNative_tcMigrateAttributes _ _ _

theorem onNative_tcMigrateAppledoubleFinderinfo (base : FileId) (ad : AppleDouble) :
    OnNative m.phase (tcMigrateAppledoubleFinderinfo m base ad) := by
  rw [tcMigrateAppledoubleFinderinfo]
  cases ad.finderinfo with
  | none => exact Prog.usesE_pure _
  | some entry =>
    show OnNative _ (if allZero (slice ad.header entry.offset (entry.offset + afpFinderSize)) then
      pure () else _)
    split
    · exact Prog.usesE_pure _
    · exact onNative_tcNativeWriteVerified _ _ _ _

theorem onNative_tcMigrateXattrEntry (base : FileId) (header : Bytes) (entry : XattrEntry) :
    OnNative m.phase (tcMigrateXattrEntry m base header entry) := by
  rw [tcMigrateXattrEntry]
  split
  · exact Prog.usesE_pure _
  · split
    · exact Prog.usesE_throw _
    · exact onNative_tcNativeWriteVerified _ _ _ _

theorem onNative_migrateXattrEntries (base : FileId) (header : Bytes) (table : XattrTable)
    (count offset : Nat) :
    OnNative m.phase (migrateXattrEntries m base header table count offset) := by
  induction count generalizing offset with
  | zero => exact Prog.usesE_pure _
  | succ count ih =>
    rw [migrateXattrEntries]
    cases parseXattrEntry header table offset with
    | error e => exact Prog.usesE_throw _
    | ok entry => exact Prog.UsesE.bind (onNative_tcMigrateXattrEntry _ _ _) fun _ => ih _

theorem onNative_tcMigrateAppledoubleXattrs (base : FileId) (ad : AppleDouble) :
    OnNative m.phase (tcMigrateAppledoubleXattrs m base ad) := by
  rw [tcMigrateAppledoubleXattrs]
  cases parseXattrTable ad with
  | error e => exact Prog.usesE_throw _
  | ok table =>
    cases table with
    | none => exact Prog.usesE_pure _
    | some table => exact onNative_migrateXattrEntries _ _ _ _ _

theorem onNative_copyChunks (source fork : FileId) (entry : AdEntry) (chunks copied : Nat) :
    OnNative .copy (copyChunks source fork entry chunks copied) := by
  induction chunks generalizing copied with
  | zero => exact Prog.usesE_pure _
  | succ chunks ih =>
    apply Prog.UsesE.bind (onNative_copy rfl)
    intro bytes
    split
    · exact Prog.usesE_throw _
    · apply Prog.UsesE.bind (onNative_copy rfl)
      intro written
      split
      · exact Prog.usesE_throw _
      · exact ih _

theorem onNative_tcRemoveResourceMarker (base : FileId) :
    OnNative .copy (tcRemoveResourceMarker base) := by
  apply Prog.UsesE.bind (Prog.UsesE.attempt (onNative_tcAirportFremovexattr _ _))
  intro removed
  cases removed with
  | error e =>
    show OnNative _ (if tcMissingError e then pure () else throw e)
    split
    · exact Prog.usesE_pure _
    · exact Prog.usesE_throw _
  | ok _ => exact Prog.usesE_pure _

theorem onNative_tcMarkResource (base : FileId) (length : Nat) (marked : Bool) :
    OnNative .copy (tcMarkResource base length marked) := by
  rw [tcMarkResource]
  split
  · exact Prog.usesE_pure _
  · exact onNative_tcAirportFsetxattr _ _ _

theorem onNative_tcCopyResource (base source fork : FileId) (entry : AdEntry) (marked : Bool) :
    OnNative .copy (tcCopyResource base source fork entry marked) := by
  apply Prog.UsesE.bind (onNative_tcMarkResource _ _ _)
  intro _
  apply Prog.UsesE.bind (onNative_copy rfl)
  intro _
  apply Prog.UsesE.bind (onNative_copyChunks _ _ _ _ _)
  intro _
  apply Prog.UsesE.bind (onNative_copy rfl)
  intro _
  apply Prog.UsesE.bind (onNative_copy rfl)
  intro _
  apply Prog.UsesE.bind ((reads_tcVerifyResource _ _ _).onNative _)
  intro different
  split
  · exact Prog.usesE_throw _
  · exact onNative_tcRemoveResourceMarker _

theorem onNative_tcMigrateFork (base source : FileId) (path : Path) (entry : AdEntry) :
    OnNative m.phase (tcMigrateFork m base source path entry) := by
  have hopen : OnNative m.phase (sys (.openResource path (m.phase = .copy))) := by
    apply usesE_sys
    refine ⟨rfl, fun hphase => ?_⟩
    rw [hphase]
    rfl
  apply Prog.UsesE.bind hopen
  intro fork
  apply Prog.UsesE.bind (onNative_reads rfl rfl)
  intro nativeSize
  apply Prog.UsesE.bind ((reads_tcResourceMarkerState _ _).onNative _)
  intro marked
  by_cases hclean : m.phase = .cleanup ∧ (marked = true ∨ nativeSize = 0)
  · rw [if_pos hclean]
    exact Prog.usesE_throw _
  · rw [if_neg hclean]
    by_cases hkept : 0 < nativeSize ∧ marked = false
    · rw [if_pos hkept]
      exact Prog.UsesE.bind ((reads_tcVerifyResource _ _ _).onNative _) fun _ => Prog.usesE_pure _
    · -- the cleanup phase has neither a marker nor an empty fork here
      rw [if_neg hkept]
      have hphase : m.phase = .copy := by
        cases hm : m.phase with
        | copy => rfl
        | cleanup =>
          exfalso
          cases marked with
          | true => exact hclean ⟨hm, .inl rfl⟩
          | false =>
            exact hkept ⟨Nat.pos_of_ne_zero fun h => hclean ⟨hm, .inr h⟩, rfl⟩
      rw [hphase]
      exact onNative_tcCopyResource _ _ _ _ _

theorem onNative_tcMigrateResource (base source : FileId) (path : Path)
    (resource : Option AdEntry) :
    OnNative m.phase (tcMigrateResource m base source path resource) := by
  cases resource with
  | none => exact Prog.usesE_pure _
  | some entry =>
    rw [tcMigrateResource]
    split
    · exact Prog.usesE_pure _
    · apply Prog.UsesE.bind ((readsRow_tcIsEmptyResourcefork [] _ _).readsOnly.onNative _)
      intro blank
      split
      · exact Prog.usesE_pure _
      · exact onNative_tcMigrateFork _ _ _ _

theorem inPhase_tcUnlinkVerifiedSidecar (path : Path) (source : Stat) :
    InPhase .cleanup (tcUnlinkVerifiedSidecar path source) := by
  apply Prog.UsesE.bind (inPhase_sys rfl)
  intro current
  split
  · exact Prog.usesE_throw _
  · apply Prog.UsesE.bind (inPhase_sys rfl)
    intro _
    exact Prog.UsesE.bind (inPhase_sys rfl) fun _ => inPhase_sys rfl

theorem inPhase_tcMigrateSidecar (base : FileId) (path : Path) (source : FileId) (sourceSt : Stat)
    (ad : AppleDouble) : InPhase m.phase (tcMigrateSidecar m base path source sourceSt ad) := by
  rw [tcMigrateSidecar]
  split
  · exact Prog.usesE_throw _
  · apply Prog.UsesE.bind (onNative_tcMigrateAppledoubleFinderinfo _ _).inPhase
    intro _
    apply Prog.UsesE.bind (onNative_tcMigrateAppledoubleXattrs _ _).inPhase
    intro _
    apply Prog.UsesE.bind (onNative_tcMigrateResource _ _ _ _).inPhase
    intro _
    cases m.phase with
    | copy => exact Prog.usesE_pure _
    | cleanup =>
      exact Prog.UsesE.bind (inPhase_sys rfl) fun _ => inPhase_tcUnlinkVerifiedSidecar _ _

theorem inPhase_tcOpenedAppledouble (base : FileId) (path : Path) (source : FileId) :
    InPhase m.phase (tcOpenedAppledouble m base path source) := by
  apply Prog.UsesE.bind (inPhase_reads rfl rfl)
  intro sourceSt
  split
  · exact Prog.usesE_throw _
  · apply Prog.UsesE.bind ((readsRow_tcParseAppledouble [] _ _).readsOnly.inPhase _)
    intro parsed
    cases parsed with
    | none => exact Prog.usesE_pure _
    | some ad => exact inPhase_tcMigrateSidecar _ _ _ _ _

theorem inPhase_tcMigrateAppledouble (base : FileId) (path : Path) :
    InPhase m.phase (tcMigrateAppledouble m base path) := by
  apply Prog.UsesE.bind (Prog.UsesE.attempt (inPhase_reads rfl rfl))
  intro opened
  cases opened with
  | error e =>
    show InPhase _ (if e = .enoent then pure () else throw e)
    split
    · exact Prog.usesE_pure _
    · exact Prog.usesE_throw _
  | ok source => exact inPhase_tcOpenedAppledouble _ _ _

theorem inPhase_tcDeleteRow (key : Bytes) : InPhase .cleanup (tcDeleteRow key) := by
  apply Prog.UsesE.bind (inPhase_sys rfl)
  intro _
  apply Prog.UsesE.bind (Prog.UsesE.attempt (inPhase_sys rfl))
  intro deleted
  cases deleted with
  | error e =>
    exact Prog.UsesE.bind (Prog.UsesE.attempt (inPhase_sys rfl)) fun _ => Prog.usesE_throw _
  | ok _ => exact inPhase_sys rfl

theorem inPhase_tcRetireTdbRecord (retired : List Bytes) (fd id : FileId) :
    InPhase m.phase (tcRetireTdbRecord m retired fd id) := by
  rw [tcRetireTdbRecord]
  cases m.phase with
  | copy => exact Prog.usesE_pure _
  | cleanup =>
    show InPhase _ (if (!m.hasDb) = true then _ else _)
    split
    · exact Prog.usesE_pure _
    · split
      · exact Prog.usesE_pure _
      · apply Prog.UsesE.bind (inPhase_sys rfl)
        intro _
        exact Prog.UsesE.bind (inPhase_tcDeleteRow _) fun _ => Prog.usesE_pure _

theorem inPhase_tcScanFile (retired : List Bytes) (path : Path) (id : FileId)
    (scanSidecar : Bool) : InPhase m.phase (tcScanFile m retired path id scanSidecar) := by
  apply Prog.UsesE.bind (inPhase_reads rfl rfl)
  intro fd
  apply Prog.UsesE.bind (inPhase_reads rfl rfl)
  intro opened
  split
  · exact Prog.usesE_throw _
  · apply Prog.UsesE.bind (onNative_tcMigrateTdbRecord _ _ _).inPhase
    intro _
    have hsidecar : InPhase m.phase (tcScanSidecar m fd path scanSidecar) := by
      rw [tcScanSidecar]
      split
      · exact inPhase_tcMigrateAppledouble _ _
      · exact Prog.usesE_pure _
    exact Prog.UsesE.bind hsidecar fun _ => inPhase_tcRetireTdbRecord _ _ _

theorem inPhase_tcScanEntry (retired : List Bytes) (path : Path) (st : Stat)
    (scanSidecar : Bool) : InPhase m.phase (tcScanEntry m retired path st scanSidecar) := by
  rw [tcScanEntry]
  split
  · exact Prog.usesE_pure _
  · apply Prog.UsesE.bind (Prog.UsesE.attempt (inPhase_tcScanFile _ _ _ _))
    intro file
    cases file with
    | error e => exact Prog.usesE_pure _
    | ok retired => exact Prog.usesE_pure _

theorem inPhase_scanEach {scan : List Bytes → Name → Mig Scanned}
    (h : ∀ retired name, InPhase phase (scan retired name)) (names : List Name) (done : Scanned) :
    InPhase phase (scanEach scan names done) := by
  induction names generalizing done with
  | nil => exact Prog.usesE_pure _
  | cons name names ih => exact Prog.UsesE.bind (h _ _) fun _ => ih _

theorem inPhase_tcScanPath (fuel : Nat) (retired : List Bytes) (path : Path)
    (scanSidecar : Bool) : InPhase m.phase (tcScanPath m fuel retired path scanSidecar) := by
  induction fuel generalizing retired path scanSidecar with
  | zero => exact Prog.usesE_pure _
  | succ fuel ih =>
    apply Prog.UsesE.bind (Prog.UsesE.attempt (inPhase_reads rfl rfl))
    intro st
    cases st with
    | error e => exact Prog.usesE_pure _
    | ok st =>
      apply Prog.UsesE.bind (inPhase_tcScanEntry _ _ _ _)
      intro scanned
      split
      · exact Prog.usesE_pure _
      · apply Prog.UsesE.bind (Prog.UsesE.attempt (inPhase_reads rfl rfl))
        intro listing
        cases listing with
        | error e => exact Prog.usesE_pure _
        | ok listing => exact inPhase_scanEach (fun retired name => ih _ _ _) _ _

theorem inPhase_tcScanRoot (retired : List Bytes) (path : Path) :
    InPhase m.phase (tcScanRoot m retired path) := by
  apply Prog.UsesE.bind (Prog.UsesE.attempt (inPhase_reads rfl rfl))
  intro hfs
  cases hfs with
  | error e => exact Prog.usesE_pure _
  | ok _ => exact inPhase_tcScanPath _ _ _ _

theorem inPhase_scanRoots (paths : List Path) (done : Scanned) :
    InPhase m.phase (scanRoots m paths done) := by
  induction paths generalizing done with
  | nil => exact Prog.usesE_pure _
  | cons path paths ih => exact Prog.UsesE.bind (inPhase_tcScanRoot _ _) fun _ => ih _

theorem inPhase_tcUnlinkTdb (scanned : Scanned) : InPhase m.phase (tcUnlinkTdb m scanned) := by
  rw [tcUnlinkTdb]
  split
  · rename_i hdone
    rw [hdone.2.1]
    apply Prog.UsesE.bind (Prog.UsesE.attempt (inPhase_sys rfl))
    intro unlinked
    cases unlinked with
    | error e => exact Prog.usesE_pure _
    | ok _ => exact Prog.usesE_pure _
  · exact Prog.usesE_pure _

theorem reads_openTdb (phase : Phase) (withTdb : Bool) : ReadsOnly (openTdb phase withTdb) := by
  rw [openTdb]
  split
  · exact Prog.usesE_pure _
  · apply Prog.UsesE.bind (reads_sys rfl rfl)
    intro _
    apply Prog.UsesE.bind (reads_sys rfl rfl)
    intro keys
    split
    · exact Prog.usesE_pure _
    · exact Prog.usesE_throw _

theorem inPhase_migrateRoots (roots : Roots) : InPhase m.phase (migrateRoots m roots) :=
  Prog.UsesE.bind (inPhase_scanRoots _ _) fun _ => inPhase_tcUnlinkTdb _

theorem inPhase_migrate (phase : Phase) (metadata : LegacyMetadata) (withTdb : Bool)
    (roots : Roots) : InPhase phase (migrate phase metadata withTdb roots) :=
  Prog.UsesE.bind ((reads_openTdb _ _).inPhase _) fun keys =>
    @inPhase_migrateRoots ⟨phase, metadata, withTdb, keys⟩ roots

end Phases

/-! ## Whole runs -/

section Runs

variable {metadata : LegacyMetadata} {withTdb : Bool} {roots : Roots} {w w' : World}
  {allow : MigrateOp → Fault → World → Prop}

/-- Native metadata is the same at every point of a cleanup run. -/
theorem cleanup_visits_nativeKept
    (h : (migrate .cleanup metadata withTdb roots).run.Visits migrateKernel allow w w') :
    NativeKept w w' := by
  exact Prog.Uses.visits (inPhase_migrate .cleanup metadata withTdb roots) (fun _ => rfl)
    (fun h h' => Eq.trans h' h) (fun op fault w hop => perform_nativeKept hop) h

/-- Names, file contents and the database are the same at every point of a copy run. -/
theorem copy_visits_sourceKept
    (h : (migrate .copy metadata withTdb roots).run.Visits migrateKernel allow w w') :
    SourceKept w w' := by
  exact Prog.Uses.visits (inPhase_migrate .copy metadata withTdb roots) .refl .trans
    (fun op fault w hop => perform_sourceKept hop) h

/-- Wherever a run is stopped, a cleanup has left all attributes and resource forks as they were, and
a copy the database, the names and the contents of all files. -/
theorem phases_keep_other_side (metadata : LegacyMetadata) (withTdb : Bool) (roots : Roots)
    (w w' : World) :
    ((migrate .cleanup metadata withTdb roots).run.Visits migrateKernel anyFault w w' →
      ∀ id, (w'.inode id).attrs = (w.inode id).attrs ∧
        (w'.inode id).resource = (w.inode id).resource) ∧
    ((migrate .copy metadata withTdb roots).run.Visits migrateKernel anyFault w w' →
      w'.tdb = w.tdb ∧ w'.path = w.path ∧ w'.names = w.names ∧
        ∀ id, (w'.inode id).kind = (w.inode id).kind ∧ (w'.inode id).data = (w.inode id).data) := by
  constructor
  · intro h id
    have hinode : w'.inode = w.inode := cleanup_visits_nativeKept h
    rw [hinode]
    exact ⟨rfl, rfl⟩
  · intro h
    have hkept := copy_visits_sourceKept h
    exact ⟨hkept.tdb, hkept.path, hkept.names, fun id => ⟨hkept.kind id, hkept.data id⟩⟩

end Runs

/-- The inode of the only file of a volume, of its sidecar and of the root. -/
def fileX : FileId := ⟨1, 16⟩

def sidecarX : FileId := ⟨1, 17⟩

def rootX : FileId := ⟨1, 2⟩

def emptyFile : Inode := ⟨.regular, [], none, [], 0, 0⟩

/-- A volume with one file `x`, perhaps with a sidecar, and its row in the database. -/
def volumeX (file : Inode) (sidecar : Option Inode) (row : Row) : World where
  path path :=
    if path = [] then some rootX
    else if path = [ascii "x"] then some fileX
    else if path = [ascii "._x"] then sidecar.map fun _ => sidecarX
    else none
  names path :=
    if path = [] then ascii "x" :: (sidecar.map fun _ => ascii "._x").toList else []
  inode id :=
    if id = fileX then file
    else if id = sidecarX then sidecar.getD emptyFile
    else { emptyFile with kind := .directory }
  tdb := some [(pushFileId16 fileX, some row)]
  transaction := []
  writes := 0

def allOfX : Roots := ⟨[[]], true⟩

/-- The world after a run in which nothing goes wrong. -/
def World.afterRun (w : World) (phase : Phase) (metadata : LegacyMetadata) (roots : Roots) :
    Except Errno Bool × World :=
  let (result, w', _) := (migrate phase metadata true roots).run.run migrateKernel quiet [] w
  (result, w')

theorem World.visits_afterRun (w : World) (phase : Phase) (metadata : LegacyMetadata)
    (roots : Roots) :
    (migrate phase metadata true roots).run.Visits migrateKernel anyFault w
      (w.afterRun phase metadata roots).2 :=
  (Prog.run_returns quiet []).visits

def noteRow : Row := [(ascii "user.note", [1, 2])]

/-- A copy sets the attribute and keeps the row; the cleanup after it drops the row and keeps the
attribute. -/
theorem note_is_kept :
    let w := volumeX emptyFile none noteRow
    let copied := (w.afterRun .copy .stream allOfX).2
    let cleaned := (copied.afterRun .cleanup .stream allOfX).2
    (copied.getxattr fileX (ascii "user.note")).toOption = some [1, 2] ∧ copied.tdb = w.tdb ∧
      cleaned.tdb = none ∧ (cleaned.inode fileX).attrs = (copied.inode fileX).attrs := by
  refine ⟨by decide +kernel, ?_, by decide +kernel, ?_⟩
  · exact ((phases_keep_other_side .stream true allOfX _ _).2
      (World.visits_afterRun _ .copy .stream allOfX)).1
  · exact ((phases_keep_other_side .stream true allOfX _ _).1
      (World.visits_afterRun _ .cleanup .stream allOfX) fileX).1

end TimeCapsule.Migrate
