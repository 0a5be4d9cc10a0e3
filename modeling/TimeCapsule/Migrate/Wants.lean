import TimeCapsule.Lib.Except
import TimeCapsule.Migrate.Quiet

/-!
# What a file wants

The database and the sidecar decide, before anything is written, what the migrator does with a file:
a list of wants, each of which looks at the native metadata alone.  Without faults the migrator does
exactly what the wants of its files do.
-/

namespace TimeCapsule.Migrate

open Lib

/-- What the migrator has to do for one file. -/
inductive Want where
  | finderinfo (legacy : Except Errno Bytes)
  | attr (name : Name) (value : Bytes)
  | stream (anchor : Name) (logical : Bytes)
  | resource (source : FileId) (path : Path) (entry : AdEntry)

/-- FinderInfo from the older metadata, when there is none natively. -/
def importFinderinfo (phase : Phase) (fd : FileId) : Except Errno Bytes → Mig Unit
  | .error e => if tcMissingError e then return () else throw e
  | .ok finderinfo =>
      if allZero finderinfo then return ()
      else tcNativeWriteVerified phase fd finderinfoXattr finderinfo true

def Want.run (m : Migration) (fd : FileId) : Want → Mig Unit
  | .finderinfo legacy => do
      let existing ← Prog.attempt (tcNativeGet fd finderinfoXattr)
      match existing with
      | .ok existing => if existing.length ≠ afpFinderSize then throw .eio else return ()
      | .error e => if tcMissingError e then importFinderinfo m.phase fd legacy else throw e
  | .attr name value => tcNativeWriteVerified m.phase fd name value true
  | .stream anchor logical => tcWriteInternalStream m.phase fd anchor logical
  | .resource source path entry => tcMigrateFork m fd source path entry

def runWants (m : Migration) (fd : FileId) : List Want → Mig Unit
  | [] => return ()
  | want :: wants => do
      want.run m fd
      runWants m fd wants

/-! ## The wants of a row -/

def streamWants (anchor : Name) (logical : Bytes) : Except Errno (List Want) :=
  match tcAppleNativeName anchor with
  | some native =>
      if hfsXattrSize < logical.length then .error .eoverflow else .ok [.attr native logical]
  | none => .ok [.stream anchor logical]

def attributeWants (s : World) (id : FileId) (name : Name) : Except Errno (List Want) :=
  if finderinfoSource name || tcStreamExtent name then .ok []
  else if tcStreamAnchor name then do
    let logical ← (quietly (tcReadTdbStream id name) s).1
    streamWants name logical
  else do
    let value ← (quietly (tcTdbGet id name) s).1
    if hfsXattrSize < value.length then .error .eoverflow else .ok [.attr name value]

def attributesWants (s : World) (id : FileId) : List Name → Except Errno (List Want)
  | [] => .ok []
  | name :: names => do
      let wants ← attributeWants s id name
      let rest ← attributesWants s id names
      return wants ++ rest

def rowWants (metadata : LegacyMetadata) (s : World) (id : FileId) (row : Row) :
    Except Errno (List Want) :=
  if row = [] then .ok []
  else do
    let attributes ← attributesWants s id (row.map Prod.fst)
    return .finderinfo (quietly (legacyFinderinfo metadata id) s).1 :: attributes

def recordWants (metadata : LegacyMetadata) (s : World) (id : FileId) :
    Except Errno (List Want) := do
  let row ← s.row (pushFileId16 id)
  rowWants metadata s id row

/-! ## The wants of a sidecar -/

def finderinfoWants (ad : AppleDouble) : List Want :=
  match ad.finderinfo with
  | none => []
  | some entry =>
      let finderinfo := slice ad.header entry.offset (entry.offset + afpFinderSize)
      if allZero finderinfo then [] else [.attr finderinfoXattr finderinfo]

def entryWants (header : Bytes) (entry : XattrEntry) : Except Errno (List Want) :=
  if entry.name = finderinfoXattr ∨ entry.name = resourceforkXattr then .ok []
  else if hfsXattrSize < entry.valueLength then .error .eoverflow
  else
    .ok [.attr entry.name
      (slice header entry.valueOffset (entry.valueOffset + entry.valueLength))]

def entriesWants (header : Bytes) (table : XattrTable) : (count offset : Nat) →
    Except Errno (List Want)
  | 0, _ => .ok []
  | count + 1, offset => do
      let entry ← parseXattrEntry header table offset
      let wants ← entryWants header entry
      let rest ← entriesWants header table count entry.next
      return wants ++ rest

def xattrsWants (ad : AppleDouble) : Except Errno (List Want) :=
  match parseXattrTable ad with
  | .error e => .error e
  | .ok none => .ok []
  | .ok (some table) => entriesWants ad.header table table.count table.entryOffset

def resourceWants (s : World) (source : FileId) (path : Path) (resource : Option AdEntry) :
    Except Errno (List Want) :=
  match resource with
  | none => .ok []
  | some entry =>
      if entry.length = 0 then .ok []
      else do
        let blank ← (quietly (tcIsEmptyResourcefork source entry) s).1
        return if blank then [] else [.resource source path entry]

def adWants (s : World) (path : Path) (source : FileId) (ad : AppleDouble) :
    Except Errno (List Want) :=
  if ad.unsupportedEntries then .error .enotsup
  else do
    let xattrs ← xattrsWants ad
    let resource ← resourceWants s source path ad.resource
    return finderinfoWants ad ++ (xattrs ++ resource)

def parsedWants (s : World) (path : Path) (source : FileId) :
    Option AppleDouble → Except Errno (List Want)
  | none => .ok []
  | some ad => adWants s path source ad

def openedWants (s : World) (path : Path) (source : FileId) : Except Errno (List Want) :=
  if (s.inode source).kind ≠ .regular then .error (.other 0)
  else do
    let parsed ← (quietly (tcParseAppledouble source (s.inode source).data.length) s).1
    parsedWants s path source parsed

def sidecarWants (s : World) (path : Path) : Except Errno (List Want) :=
  match s.path (tcAppledoublePath path) with
  | none => .ok []
  | some source =>
      if (s.inode source).kind = .other then .error (.other 62) else openedWants s path source

/-! ## Successful runs -/

section Runs

variable {α β : Type} {p : Mig α} {f : α → Mig β} {w w'' : World}

theorem quietly_bind_iff {b : β} : quietly (p >>= f) w = (.ok b, w'') ↔
    ∃ a w', quietly p w = (.ok a, w') ∧ quietly (f a) w' = (.ok b, w'') := by
  constructor
  · exact quietly_bind_eq_ok
  · rintro ⟨a, w', hp, hf⟩
    exact (quietly_bind_ok hp).trans hf

theorem quietly_throw_ne {e : Errno} {a : α} : quietly (throw e : Mig α) w ≠ (.ok a, w'') := by
  intro h
  exact absurd (congrArg Prod.fst h) (by simp [quietly, Prog.exec])

variable {m : Migration} {fd : FileId}

theorem quietly_runWants_append {wants rest : List Want} :
    quietly (runWants m fd (wants ++ rest)) w = (.ok (), w'') ↔
      ∃ w', quietly (runWants m fd wants) w = (.ok (), w') ∧
        quietly (runWants m fd rest) w' = (.ok (), w'') := by
  induction wants generalizing w with
  | nil =>
    constructor
    · exact fun h => ⟨w, rfl, h⟩
    · rintro ⟨w', hw', h⟩
      obtain rfl : w = w' := congrArg Prod.snd hw'
      exact h
  | cons want wants ih =>
    refine quietly_bind_iff.trans ?_
    constructor
    · rintro ⟨_, w₁, hwant, hmore⟩
      obtain ⟨w', hwants, hrest⟩ := ih.mp hmore
      exact ⟨w', quietly_bind_iff.mpr ⟨(), w₁, hwant, hwants⟩, hrest⟩
    · rintro ⟨w', hwants, hrest⟩
      obtain ⟨_, w₁, hwant, hwants⟩ := quietly_bind_iff.mp hwants
      exact ⟨(), w₁, hwant, ih.mpr ⟨w', hwants, hrest⟩⟩

theorem quietly_runWants_singleton {want : Want} :
    quietly (runWants m fd [want]) w = (.ok (), w'') ↔ quietly (want.run m fd) w = (.ok (), w'') := by
  refine quietly_bind_iff.trans ?_
  constructor
  · rintro ⟨_, w', hwant, hnil⟩
    obtain rfl : w' = w'' := congrArg Prod.snd hnil
    exact hwant
  · exact fun h => ⟨(), w'', h, rfl⟩

end Runs

/-! ## The migrator does what the wants do -/

section Refines

variable {m : Migration} {s w : World} {fd id : FileId}

/-- The row of the file and all contents are as they were. -/
structure SourceFor (id : FileId) (s w : World) : Prop where
  row : w.row (pushFileId16 id) = s.row (pushFileId16 id)
  data : ∀ i, (w.inode i).data = (s.inode i).data

theorem SourceFor.refl (id : FileId) (w : World) : SourceFor id w w := ⟨rfl, fun _ => rfl⟩

theorem SourceKept.sourceFor {w' : World} (h : SourceKept w w') (hs : SourceFor id s w) :
    SourceFor id s w' where
  row := by rw [← hs.row, World.row, World.row, h.tdb]
  data i := (h.data i).trans (hs.data i)

theorem SourceFor.answer {op : MigrateOp} (h : SourceFor id s w)
    (hop : op.ReadsRow (pushFileId16 id)) :
    (w.perform quiet op).1 = (s.perform quiet op).1 := by
  cases op
  case tdbGetattr key name =>
    obtain rfl : key = pushFileId16 id := hop
    show (w.row _).bind _ = (s.row _).bind _
    rw [h.row]
  case pread i fork offset size =>
    cases fork with
    | data =>
      show Except.ok ((((w.inode i).data).drop offset).take _) = Except.ok _
      rw [h.data]
      rfl
    | resource => exact absurd hop not_false
  all_goals exact absurd hop not_false

/-- What only reads the row and contents comes out the same. -/
theorem SourceFor.quietly_eq {α : Type} {p : Mig α} (h : SourceFor id s w)
    (hp : ReadsRow (pushFileId16 id) p) : quietly p w = ((quietly p s).1, w) := by
  apply Prod.ext
  · apply Prog.Uses.exec_congr hp
    intro _ hop
    exact ⟨perform_reads hop.reads, perform_reads hop.reads, h.answer hop⟩
  · exact quietly_reads hp.readsOnly

theorem onNative_run (want : Want) : OnNative m.phase (want.run m fd) := by
  cases want with
  | finderinfo legacy =>
    apply Prog.UsesE.bind (Prog.UsesE.attempt ((reads_tcNativeGet _ _).onNative _))
    intro existing
    cases existing with
    | ok existing =>
      show OnNative _ (if existing.length ≠ afpFinderSize then throw .eio else pure ())
      split
      · exact Prog.usesE_throw _
      · exact Prog.usesE_pure _
    | error e =>
      show OnNative _ (if tcMissingError e then importFinderinfo m.phase fd legacy else throw e)
      split
      · cases legacy with
        | error e =>
          rw [importFinderinfo]
          split
          · exact Prog.usesE_pure _
          · exact Prog.usesE_throw _
        | ok finderinfo =>
          rw [importFinderinfo]
          split
          · exact Prog.usesE_pure _
          · exact onNative_tcNativeWriteVerified _ _ _ _
      · exact Prog.usesE_throw _
  | attr name value => exact onNative_tcNativeWriteVerified _ _ _ _
  | stream anchor logical => exact onNative_tcWriteInternalStream _ _ _
  | resource source path entry => exact onNative_tcMigrateFork _ _ _ _

theorem onNative_runWants (wants : List Want) : OnNative m.phase (runWants m fd wants) := by
  induction wants with
  | nil => exact Prog.usesE_pure _
  | cons want wants ih => exact Prog.UsesE.bind (onNative_run want) fun _ => ih

theorem OnNative.sourceKept {α : Type} {phase : Phase} {p : Mig α} (h : OnNative phase p) :
    SourceKept w (quietly p w).2 :=
  Prog.Uses.visits h .refl .trans (fun _ _ _ hop => perform_sourceKept hop.1) quietly_returns.visits

theorem OnNative.sourceFor {α : Type} {phase : Phase} {p : Mig α} (h : OnNative phase p)
    {r : Except Errno α} {w' : World} (hp : quietly p w = (r, w')) (hs : SourceFor id s w) :
    SourceFor id s w' := by
  have hkept : SourceKept w (quietly p w).2 := h.sourceKept
  rw [hp] at hkept
  exact hkept.sourceFor hs

/-- The program succeeds exactly as the wants of a plan do. -/
def Follows (m : Migration) (fd : FileId) (p : Mig Unit) (plan : Except Errno (List Want))
    (w : World) : Prop :=
  ∀ w', quietly p w = (.ok (), w') ↔
    ∃ wants, plan = .ok wants ∧ quietly (runWants m fd wants) w = (.ok (), w')

theorem follows_none : Follows m fd (pure ()) (.ok []) w := by
  intro w'
  constructor
  · exact fun h => ⟨[], rfl, h⟩
  · rintro ⟨wants, hplan, h⟩
    obtain rfl := Except.ok.inj hplan
    exact h

theorem follows_throw {e e' : Errno} : Follows m fd (throw e) (.error e') w := by
  intro w'
  constructor
  · exact fun h => absurd h quietly_throw_ne
  · rintro ⟨wants, hplan, -⟩
    exact absurd hplan (by simp)

theorem follows_want (want : Want) : Follows m fd (want.run m fd) (.ok [want]) w := by
  intro w'
  constructor
  · exact fun h => ⟨[want], rfl, quietly_runWants_singleton.mpr h⟩
  · rintro ⟨wants, hplan, h⟩
    obtain rfl := Except.ok.inj hplan
    exact quietly_runWants_singleton.mp h

theorem Follows.seq {p q : Mig Unit} {plan plan' : Except Errno (List Want)}
    (hp : Follows m fd p plan w)
    (hq : ∀ w', quietly p w = (.ok (), w') → Follows m fd q plan' w') :
    Follows m fd (p >>= fun _ => q)
      (do let wants ← plan
          let rest ← plan'
          return wants ++ rest) w := by
  intro w''
  refine quietly_bind_iff.trans ?_
  constructor
  · rintro ⟨_, w', hfirst, hmore⟩
    obtain ⟨wants, hwants, hrun⟩ := (hp w').mp hfirst
    obtain ⟨rest, hrest, hrun'⟩ := (hq w' hfirst w'').mp hmore
    refine ⟨wants ++ rest, ?_, quietly_runWants_append.mpr ⟨w', hrun, hrun'⟩⟩
    exact bind_eq_ok.mpr ⟨wants, hwants, bind_eq_ok.mpr ⟨rest, hrest, rfl⟩⟩
  · rintro ⟨both, hboth, hrun⟩
    obtain ⟨wants, hwants, hboth⟩ := bind_eq_ok.mp hboth
    obtain ⟨rest, hrest, hboth⟩ := bind_eq_ok.mp hboth
    obtain rfl := Except.ok.inj hboth
    obtain ⟨w', hrun, hrun'⟩ := quietly_runWants_append.mp hrun
    have hfirst := (hp w').mpr ⟨wants, hwants, hrun⟩
    exact ⟨(), w', hfirst, (hq w' hfirst w'').mpr ⟨rest, hrest, hrun'⟩⟩

/-- What is read of the row and of contents can be read beforehand. -/
theorem SourceFor.follows {α : Type} {p : Mig α} {f : α → Mig Unit}
    {plan : α → Except Errno (List Want)} (hs : SourceFor id s w)
    (hp : ReadsRow (pushFileId16 id) p) (hf : ∀ a, Follows m fd (f a) (plan a) w) :
    Follows m fd (p >>= f) ((quietly p s).1 >>= plan) w := by
  have hread := hs.quietly_eq hp
  intro w'
  cases h : (quietly p s).1 with
  | error e =>
    rw [h] at hread
    rw [quietly_bind_error hread]
    constructor
    · exact fun h => absurd (congrArg Prod.fst h) (by simp)
    · rintro ⟨wants, hplan, -⟩
      exact absurd hplan (by simp [bind, Except.bind])
  | ok a =>
    rw [h] at hread
    rw [quietly_bind_ok hread]
    exact hf a w'

theorem follows_tcMigrateAttribute (hs : SourceFor id s w) (name : Name) :
    Follows m fd (tcMigrateAttribute m fd id name) (attributeWants s id name) w := by
  rw [tcMigrateAttribute, attributeWants]
  split
  · exact follows_none
  · rename_i hsource
    split
    · have hafp : name ≠ afpinfoXattr := by
        rintro rfl
        exact hsource (by decide)
      rw [tcMigrateStream, if_neg hafp]
      apply hs.follows (readsRow_tcReadTdbStream id name)
      intro logical
      rw [streamWants]
      cases tcAppleNativeName name with
      | none => exact follows_want (.stream name logical)
      | some native =>
        show Follows m fd (if hfsXattrSize < logical.length then throw .eoverflow else _)
          (if hfsXattrSize < logical.length then _ else _) w
        split
        · exact follows_throw
        · exact follows_want (.attr native logical)
    · apply hs.follows (readsRow_tcTdbGet id name)
      intro value
      split
      · exact follows_throw
      · exact follows_want (.attr name value)

theorem follows_tcMigrateAttributes (hs : SourceFor id s w) (names : List Name) :
    Follows m fd (tcMigrateAttributes m fd id names) (attributesWants s id names) w := by
  induction names generalizing w with
  | nil => exact follows_none
  | cons name names ih =>
    apply (follows_tcMigrateAttribute hs name).seq
    intro w' hw'
    exact ih ((onNative_tcMigrateAttribute (m := m) fd id name).sourceFor hw' hs)

theorem follows_tcMigrateFinderinfo (hs : SourceFor id s w) :
    Follows m fd (tcMigrateFinderinfo m fd id)
      (.ok [.finderinfo (quietly (legacyFinderinfo m.legacyMetadata id) s).1]) w := by
  intro w'
  refine Iff.trans ?_ (follows_want _ w')
  rw [tcMigrateFinderinfo, Want.run, quietly_bind_iff, quietly_bind_iff]
  apply exists_congr
  intro existing
  apply exists_congr
  intro w₁
  apply and_congr_right
  intro hget
  obtain rfl : w = w₁ := by
    have hunchanged : (quietly (Prog.attempt (tcNativeGet fd finderinfoXattr)) w).2 = w :=
      quietly_reads (reads_tcNativeGet fd finderinfoXattr).attempt
    rw [hget] at hunchanged
    exact hunchanged.symm
  cases existing with
  | ok existing => exact Iff.rfl
  | error e =>
    show quietly (if tcMissingError e then tcImportFinderinfo m fd id else throw e) w = _ ↔
      quietly (if tcMissingError e then importFinderinfo m.phase fd _ else throw e) w = _
    split
    · have hread := hs.quietly_eq (readsRow_legacyFinderinfo m.legacyMetadata id)
      rw [tcImportFinderinfo, quietly_bind_ok (quietly_attempt hread)]
      cases (quietly (legacyFinderinfo m.legacyMetadata id) s).1 with
      | error e => exact Iff.rfl
      | ok finderinfo => exact Iff.rfl
    · exact Iff.rfl

/-- The row of a file that is still to be migrated is read twice, with the same result. -/
theorem follows_tcMigrateTdbRecord (hs : SourceFor id s w) {retired : List Bytes}
    (hdb : m.hasDb = true) (hmark : tcMarkTdbKey m retired id = true) :
    Follows m fd (tcMigrateTdbRecord m retired fd id) (recordWants m.legacyMetadata s id) w := by
  have hlist : quietly (sys (.tdbListattr (pushFileId16 id))) w =
      ((s.row (pushFileId16 id)).map (·.map Prod.fst), w) := by
    rw [← hs.row]
    rfl
  rw [tcMigrateTdbRecord, hdb, hmark, recordWants]
  show Follows m fd (sys _ >>= _) _ w
  intro w'
  cases hrow : s.row (pushFileId16 id) with
  | error e =>
    rw [hrow] at hlist
    rw [quietly_bind_error hlist]
    constructor
    · exact fun h => absurd (congrArg Prod.fst h) (by simp)
    · rintro ⟨wants, hplan, -⟩
      exact absurd hplan (by simp [bind, Except.bind])
  | ok row =>
    rw [hrow] at hlist
    rw [quietly_bind_ok hlist]
    show _ ↔ ∃ wants, rowWants m.legacyMetadata s id row = .ok wants ∧ _
    rw [rowWants]
    by_cases hempty : row = []
    · rw [if_pos hempty, if_pos (List.map_eq_nil_iff.mpr hempty)]
      exact follows_none w'
    · rw [if_neg hempty, if_neg fun h => hempty (List.map_eq_nil_iff.mp h), quietly_bind_ok hlist]
      show quietly (if listSize (row.map Prod.fst) ≠ listSize (row.map Prod.fst) then _ else _) w =
        _ ↔ _
      rw [if_neg fun h => h rfl]
      refine (follows_tcMigrateFinderinfo hs).seq (fun w₁ hw₁ => ?_) w'
      exact follows_tcMigrateAttributes
        ((onNative_tcMigrateFinderinfo (m := m) fd id).sourceFor hw₁ hs) _

theorem follows_tcMigrateAppledoubleFinderinfo (ad : AppleDouble) :
    Follows m fd (tcMigrateAppledoubleFinderinfo m fd ad) (.ok (finderinfoWants ad)) w := by
  rw [tcMigrateAppledoubleFinderinfo, finderinfoWants]
  cases ad.finderinfo with
  | none => exact follows_none
  | some entry =>
    show Follows m fd (if allZero _ then pure () else _) (.ok (if allZero _ then [] else _)) w
    split
    · exact follows_none
    · exact follows_want (.attr finderinfoXattr _)

theorem follows_migrateXattrEntries (header : Bytes) (table : XattrTable) (count offset : Nat) :
    Follows m fd (migrateXattrEntries m fd header table count offset)
      (entriesWants header table count offset) w := by
  induction count generalizing offset w with
  | zero => exact follows_none
  | succ count ih =>
    rw [migrateXattrEntries, entriesWants]
    cases parseXattrEntry header table offset with
    | error e => exact follows_throw
    | ok entry =>
      have hentry : Follows m fd (tcMigrateXattrEntry m fd header entry) (entryWants header entry)
          w := by
        rw [tcMigrateXattrEntry, entryWants]
        split
        · exact follows_none
        · split
          · exact follows_throw
          · exact follows_want (.attr entry.name _)
      exact hentry.seq fun _ _ => ih entry.next

theorem follows_tcMigrateAppledoubleXattrs (ad : AppleDouble) :
    Follows m fd (tcMigrateAppledoubleXattrs m fd ad) (xattrsWants ad) w := by
  rw [tcMigrateAppledoubleXattrs, xattrsWants]
  cases parseXattrTable ad with
  | error e => exact follows_throw
  | ok table =>
    cases table with
    | none => exact follows_none
    | some table => exact follows_migrateXattrEntries _ _ _ _

theorem follows_tcMigrateResource (hs : SourceFor id s w) (source : FileId) (path : Path)
    (resource : Option AdEntry) :
    Follows m fd (tcMigrateResource m fd source path resource)
      (resourceWants s source path resource) w := by
  cases resource with
  | none => exact follows_none
  | some entry =>
    show Follows m fd (if entry.length = 0 then pure () else _)
      (if entry.length = 0 then .ok [] else _) w
    split
    · exact follows_none
    · apply hs.follows (readsRow_tcIsEmptyResourcefork _ source entry)
      intro blank
      cases blank with
      | true => exact follows_none
      | false => exact follows_want (.resource source path entry)

/-- What is done with a sidecar in a copy. -/
theorem follows_tcMigrateSidecar (hphase : m.phase = .copy) (hs : SourceFor id s w) (path : Path)
    (source : FileId) (sourceSt : Stat) (ad : AppleDouble) :
    Follows m fd (tcMigrateSidecar m fd path source sourceSt ad) (adWants s path source ad) w := by
  have hplan : ∀ xattrs resource : Except Errno (List Want),
      (do let first ← (.ok (finderinfoWants ad) : Except Errno (List Want))
          let rest ← (do
            let second ← xattrs
            let rest ← (do
              let third ← resource
              let rest ← (.ok [] : Except Errno (List Want))
              return third ++ rest)
            return second ++ rest)
          return first ++ rest) =
        (do let xattrs ← xattrs
            let resource ← resource
            return finderinfoWants ad ++ (xattrs ++ resource)) := by
    intro xattrs resource
    cases xattrs with
    | error e => rfl
    | ok xattrs =>
      cases resource with
      | error e => rfl
      | ok resource =>
        show Except.ok (finderinfoWants ad ++ (xattrs ++ (resource ++ []))) = _
        rw [List.append_nil]
        rfl
  rw [tcMigrateSidecar, adWants]
  split
  · exact follows_throw
  · rw [hphase, ← hplan]
    apply (follows_tcMigrateAppledoubleFinderinfo ad).seq
    intro w₁ hw₁
    have hs₁ := (onNative_tcMigrateAppledoubleFinderinfo (m := m) fd ad).sourceFor hw₁ hs
    apply (follows_tcMigrateAppledoubleXattrs ad).seq
    intro w₂ hw₂
    have hs₂ := (onNative_tcMigrateAppledoubleXattrs (m := m) fd ad).sourceFor hw₂ hs₁
    apply (follows_tcMigrateResource hs₂ source path ad.resource).seq
    intro _ _
    exact follows_none

theorem quietly_fstat : quietly (sys (.fstat id)) w = (.ok (w.stat id), w) := rfl

theorem follows_tcOpenedAppledouble (hphase : m.phase = .copy) (path : Path) (source : FileId) :
    Follows m fd (tcOpenedAppledouble m fd path source) (openedWants w path source) w := by
  intro w'
  rw [tcOpenedAppledouble, quietly_bind_ok quietly_fstat, openedWants]
  show quietly (if (w.inode source).kind ≠ .regular then throw _ else _) w = _ ↔ _
  split
  · exact follows_throw w'
  · refine (SourceFor.refl source w).follows (readsRow_tcParseAppledouble _ source _) ?_ w'
    intro parsed
    cases parsed with
    | none => exact follows_none
    | some ad => exact follows_tcMigrateSidecar hphase (.refl source w) path source _ ad

theorem quietly_openNoFollow_none {path : Path} (h : w.path path = none) :
    quietly (sys (.openNoFollow path)) w = (.error .enoent, w) := by
  show ((w.path path).elim (Except.error Errno.enoent) _, w) = _
  rw [h]
  rfl

theorem quietly_openNoFollow_some {path : Path} (h : w.path path = some id) :
    quietly (sys (.openNoFollow path)) w =
      (if (w.inode id).kind = .other then .error (.other 62) else .ok id, w) := by
  show ((w.path path).elim (Except.error Errno.enoent) _, w) = _
  rw [h]
  rfl

theorem follows_tcMigrateAppledouble (hphase : m.phase = .copy) (path : Path) :
    Follows m fd (tcMigrateAppledouble m fd path) (sidecarWants w path) w := by
  intro w'
  rw [tcMigrateAppledouble, sidecarWants]
  cases hpath : w.path (tcAppledoublePath path) with
  | none =>
    rw [quietly_bind_ok (quietly_attempt (quietly_openNoFollow_none hpath))]
    exact follows_none w'
  | some source =>
    have hopen := quietly_openNoFollow_some hpath
    show _ ↔ ∃ wants, (if (w.inode source).kind = .other then Except.error (Errno.other 62)
      else openedWants w path source) = .ok wants ∧ _
    by_cases hother : (w.inode source).kind = .other
    · rw [if_pos hother] at hopen ⊢
      rw [quietly_bind_ok (quietly_attempt hopen)]
      exact follows_throw w'
    · rw [if_neg hother] at hopen ⊢
      rw [quietly_bind_ok (quietly_attempt hopen)]
      exact follows_tcOpenedAppledouble hphase path source w'

end Refines

end TimeCapsule.Migrate
