import TimeCapsule.Migrate.AppleDouble

/-!
# The migrator

`tc_xattr_hfs_migrate`: the copy phase writes what the database and the sidecar files hold into the
native attributes and resource forks, the cleanup phase compares them again and removes the old copy.
A call that a signal interrupts is repeated, so no error stands for it.
-/

namespace TimeCapsule.Migrate

open Lib

inductive Phase where
  | copy
  | cleanup
deriving DecidableEq, Repr

inductive LegacyMetadata where
  | stream
  | netatalk
deriving DecidableEq, Repr

/-- `struct tc_migration`, without the counters that are only printed. -/
structure Migration where
  phase : Phase
  legacyMetadata : LegacyMetadata
  hasDb : Bool
  tdbKeys : List Bytes
deriving DecidableEq, Repr

abbrev Mig (α : Type) : Type := Prog.Raising MigrateOp MigrateAns Errno α

/-- One system call, whose error is raised. -/
def sys (op : MigrateOp) : Mig (MigrateRes op) := ExceptT.mk (Prog.op op)

/-! ## Native attributes -/

def tcNativeGet (fd : FileId) (name : Name) : Mig Bytes := do
  let size : Nat ← sys (.getxattrSize fd name)
  if size = 0 then return []
  else
    let value : Bytes ← sys (.getxattr fd name size)
    if value.length ≠ size then throw .eio else return value

/-- `tc_airport_fsetxattr`: what was written stays when the lock cannot be released. -/
def tcAirportFsetxattr (fd : FileId) (name : Name) (value : Bytes) : Mig Unit := do
  sys (.flock fd)
  let result : Except Errno Unit ← Prog.attempt (sys (.setxattr fd name value))
  let unlocked : Except Errno Unit ← Prog.attempt (sys (.unlock fd))
  match result with
  | .error e => throw e
  | .ok () => ExceptT.mk (.ret unlocked)

def tcAirportFremovexattr (fd : FileId) (name : Name) : Mig Unit := do
  sys (.flock fd)
  let result : Except Errno Unit ← Prog.attempt (sys (.removexattr fd name))
  let unlocked : Except Errno Unit ← Prog.attempt (sys (.unlock fd))
  match result with
  | .error e => throw e
  | .ok () => ExceptT.mk (.ret unlocked)

/-- The second half of `tc_native_write_verified`. -/
def tcNativeWrite (phase : Phase) (fd : FileId) (name : Name) (value : Bytes) : Mig Unit :=
  match phase with
  | .cleanup => throw .eio
  | .copy => do
      tcAirportFsetxattr fd name value
      let existing ← Prog.attempt (tcNativeGet fd name)
      match existing with
      | .error _ => throw .eio
      | .ok existing => if existing = value then return () else throw .eio

def tcNativeWriteVerified (phase : Phase) (fd : FileId) (name : Name) (value : Bytes)
    (keepExisting : Bool) : Mig Unit := do
  let existing ← Prog.attempt (tcNativeGet fd name)
  match existing with
  | .ok existing =>
      if existing = value then return ()
      else if keepExisting then return ()
      else tcNativeWrite phase fd name value
  | .error e => if tcMissingError e then tcNativeWrite phase fd name value else throw e

/-! ## Streams -/

def tcTdbGet (id : FileId) (name : Name) : Mig Bytes :=
  sys (.tdbGetattr (pushFileId16 id) name)

/-- So many extents of the database, from number `i` on. -/
def readTdbExtents (id : FileId) (raw : Name) : (count i : Nat) → Mig Bytes
  | 0, _ => return []
  | count + 1, i => do
      let extent ← tcTdbGet id (extentName i raw)
      let rest ← readTdbExtents id raw count (i + 1)
      return extent ++ rest

/-- The extents are read once for their lengths and once for their bytes. -/
def tcReadTdbStream (id : FileId) (anchorName : Name) : Mig Bytes := do
  let anchor ← tcTdbGet id anchorName
  if anchor = [] then throw .einval
  else if hfsStreamXattrs ≤ extentCount anchor then throw .eoverflow
  else
    let _ ← readTdbExtents id (rawStreamName anchorName) (extentCount anchor) 1
    let extents ← readTdbExtents id (rawStreamName anchorName) (extentCount anchor) 1
    return anchor.dropLast ++ extents

/-- So many native extents, none of them empty or too long. -/
def readNativeExtents (fd : FileId) (raw : Name) : (count i : Nat) → Mig Unit
  | 0, _ => return ()
  | count + 1, i => do
      let fragment ← tcNativeGet fd (extentName i raw)
      if fragment.length = 0 ∨ hfsXattrSize < fragment.length then throw .eio
      else readNativeExtents fd raw count (i + 1)

/-- Whether there is a native stream already, which must be complete. -/
def tcKeepNativeStream (fd : FileId) (anchorName : Name) : Mig Bool := do
  let existing ← Prog.attempt (tcNativeGet fd anchorName)
  match existing with
  | .error e => if tcMissingError e then return false else throw e
  | .ok fragment =>
      if fragment.length = 0 ∨ hfsXattrSize < fragment.length then throw .eio
      else if hfsStreamXattrs ≤ extentCount fragment then throw .eio
      else
        readNativeExtents fd (rawStreamName anchorName) (extentCount fragment) 1
        return true

/-- The extents from number `i` on hold the rest of a stream. -/
def writeExtents (phase : Phase) (fd : FileId) (raw : Name) : (count i : Nat) → Bytes → Mig Unit
  | 0, _, _ => return ()
  | count + 1, i, rest => do
      tcNativeWriteVerified phase fd (extentName i raw) (rest.take hfsXattrSize) false
      writeExtents phase fd raw count (i + 1) (rest.drop hfsXattrSize)

/-- The number of extents behind the first fragment of so many bytes. -/
def extentsFor (size : Nat) : Nat :=
  let remaining := size - min size (hfsXattrSize - 1)
  if remaining = 0 then 0 else (remaining + hfsXattrSize - 1) / hfsXattrSize

/-- `tc_write_internal_stream`: the anchor is written last. -/
def tcWriteInternalStream (phase : Phase) (fd : FileId) (anchorName : Name) (logical : Bytes) :
    Mig Unit := do
  let existing ← tcKeepNativeStream fd anchorName
  if existing then return ()
  else
    let extents := extentsFor logical.length
    if hfsStreamXattrs ≤ extents then throw .eoverflow
    else
      writeExtents phase fd (rawStreamName anchorName) extents 1 (logical.drop (hfsXattrSize - 1))
      tcNativeWriteVerified phase fd anchorName
        (logical.take (hfsXattrSize - 1) ++ [extents.toUInt8]) false

def tcMigrateStream (phase : Phase) (fd id : FileId) (anchorName : Name) : Mig Unit :=
  if anchorName = afpinfoXattr then return ()
  else do
    let logical ← tcReadTdbStream id anchorName
    match tcAppleNativeName anchorName with
    | some native =>
        if hfsXattrSize < logical.length then throw .eoverflow
        else tcNativeWriteVerified phase fd native logical true
    | none => tcWriteInternalStream phase fd anchorName logical

/-! ## Rows -/

def tcFinderinfoFromStream (id : FileId) : Mig Bytes := do
  let logical ← tcReadTdbStream id afpinfoXattr
  if logical.length ≠ afpInfoSize then throw .einval
  else if be32At logical 0 ≠ afpSignature ∨ be32At logical 4 ≠ afpVersion then throw .einval
  else return slice logical afpOffFinderInfo (afpOffFinderInfo + afpFinderSize)

def tcFinderinfoFromNetatalk (id : FileId) : Mig Bytes := do
  let blob ← tcTdbGet id netatalkMetaXattr
  match tcAppledoubleEntry blob adFinderi with
  | .error _ => throw .einval
  | .ok entry => if entry.length ≠ afpFinderSize then throw .einval else return entry

/-- One source after the other, when the first has nothing. -/
def orElseMissing (first second : Mig Bytes) : Mig Bytes := do
  let result ← Prog.attempt first
  match result with
  | .ok finderinfo => return finderinfo
  | .error e => if tcMissingError e then second else throw e

def legacyFinderinfo (metadata : LegacyMetadata) (id : FileId) : Mig Bytes :=
  match metadata with
  | .netatalk => orElseMissing (tcFinderinfoFromNetatalk id) (tcFinderinfoFromStream id)
  | .stream => orElseMissing (tcFinderinfoFromStream id) (tcFinderinfoFromNetatalk id)

/-- The part of `tc_migrate_finderinfo` for a file that has none natively. -/
def tcImportFinderinfo (m : Migration) (fd id : FileId) : Mig Unit := do
  let finderinfo ← Prog.attempt (legacyFinderinfo m.legacyMetadata id)
  match finderinfo with
  | .error e => if tcMissingError e then return () else throw e
  | .ok finderinfo =>
      if allZero finderinfo then return ()
      else tcNativeWriteVerified m.phase fd finderinfoXattr finderinfo true

def tcMigrateFinderinfo (m : Migration) (fd id : FileId) : Mig Unit := do
  let existing ← Prog.attempt (tcNativeGet fd finderinfoXattr)
  match existing with
  | .ok existing => if existing.length ≠ afpFinderSize then throw .eio else return ()
  | .error e => if tcMissingError e then tcImportFinderinfo m fd id else throw e

/-- The attributes that are not migrated under their own names. -/
def finderinfoSource (name : Name) : Bool :=
  name = afpinfoXattr || name = netatalkMetaXattr || name = finderinfoXattr

def tcMigrateAttribute (m : Migration) (fd id : FileId) (name : Name) : Mig Unit :=
  if finderinfoSource name || tcStreamExtent name then return ()
  else if tcStreamAnchor name then tcMigrateStream m.phase fd id name
  else do
    let value ← tcTdbGet id name
    if hfsXattrSize < value.length then throw .eoverflow
    else tcNativeWriteVerified m.phase fd name value true

def tcMigrateAttributes (m : Migration) (fd id : FileId) : List Name → Mig Unit
  | [] => return ()
  | name :: names => do
      tcMigrateAttribute m fd id name
      tcMigrateAttributes m fd id names

/-- The size of a list of names with their terminating zeros. -/
def listSize (names : List Name) : Nat := (names.map fun name => name.length + 1).sum

/-- A row that was retired under another name of its file is skipped. -/
def tcMarkTdbKey (m : Migration) (retired : List Bytes) (id : FileId) : Bool :=
  m.tdbKeys.contains (pushFileId16 id) && !retired.contains (pushFileId16 id)

def tcMigrateTdbRecord (m : Migration) (retired : List Bytes) (fd id : FileId) : Mig Unit :=
  if !m.hasDb then return ()
  else if !tcMarkTdbKey m retired id then return ()
  else do
    let sized : List Name ← sys (.tdbListattr (pushFileId16 id))
    if sized = [] then return ()
    else
      let list : List Name ← sys (.tdbListattr (pushFileId16 id))
      if listSize list ≠ listSize sized then throw (.other 0)
      else
        tcMigrateFinderinfo m fd id
        tcMigrateAttributes m fd id list

/-! ## Sidecar files -/

/-- `tc_pread_exact`: as many reads as it takes, each of at least one byte. -/
def tcPreadExact (fd : FileId) (fork : Fork) : (fuel offset size : Nat) → Mig Bytes
  | 0, _, _ => return []
  | fuel + 1, offset, size =>
      if size = 0 then return []
      else do
        let bytes : Bytes ← sys (.pread fd fork offset size)
        if bytes = [] then throw .eio
        else
          let rest ← tcPreadExact fd fork fuel (offset + bytes.length) (size - bytes.length)
          return bytes ++ rest

def preadExact (fd : FileId) (fork : Fork) (offset size : Nat) : Mig Bytes :=
  tcPreadExact fd fork size offset size

/-- `none` for an ordinary file with the name of a sidecar. -/
def tcParseAppledouble (fd : FileId) (size : Nat) : Mig (Option AppleDouble) :=
  if size < adHeaderSize then return none
  else do
    let header ← preadExact fd .data 0 (min adMaxHeader size)
    match parseHeader size header with
    | .ordinary => return none
    | .corrupt e => throw e
    | .appleDouble ad => return some ad

def tcMigrateAppledoubleFinderinfo (m : Migration) (base : FileId) (ad : AppleDouble) : Mig Unit :=
  match ad.finderinfo with
  | none => return ()
  | some entry =>
      let finderinfo := slice ad.header entry.offset (entry.offset + afpFinderSize)
      if allZero finderinfo then return ()
      else tcNativeWriteVerified m.phase base finderinfoXattr finderinfo true

def tcMigrateXattrEntry (m : Migration) (base : FileId) (header : Bytes) (entry : XattrEntry) :
    Mig Unit :=
  if entry.name = finderinfoXattr ∨ entry.name = resourceforkXattr then return ()
  else if hfsXattrSize < entry.valueLength then throw .eoverflow
  else
    tcNativeWriteVerified m.phase base entry.name
      (slice header entry.valueOffset (entry.valueOffset + entry.valueLength)) true

/-- So many entries of the table, from the one at or behind an offset on. -/
def migrateXattrEntries (m : Migration) (base : FileId) (header : Bytes) (table : XattrTable) :
    (count offset : Nat) → Mig Unit
  | 0, _ => return ()
  | count + 1, offset =>
      match parseXattrEntry header table offset with
      | .error e => throw e
      | .ok entry => do
          tcMigrateXattrEntry m base header entry
          migrateXattrEntries m base header table count entry.next

def tcMigrateAppledoubleXattrs (m : Migration) (base : FileId) (ad : AppleDouble) : Mig Unit :=
  match parseXattrTable ad with
  | .error e => throw e
  | .ok none => return ()
  | .ok (some table) => migrateXattrEntries m base ad.header table table.count table.entryOffset

def tcIsEmptyResourcefork (source : FileId) (entry : AdEntry) : Mig Bool :=
  if entry.length ≠ tcEmptyResourcefork.length then return false
  else do
    let value ← preadExact source .data entry.offset tcEmptyResourcefork.length
    return value = tcEmptyResourcefork

/-- `TC_COPY_SIZE` -/
def copySize : Nat := 64 * 1024

def chunksFor (size : Nat) : Nat := (size + copySize - 1) / copySize

/-- Whether the rest of the two forks differs; both are read to their ends. -/
def compareChunks (source fork : FileId) (entry : AdEntry) (nativeSize : Nat) :
    (chunks offset : Nat) → Mig Bool
  | 0, _ => return false
  | chunks + 1, offset => do
      let sourceBytes ← preadExact source .data (entry.offset + offset)
        (min copySize (entry.length - offset))
      let native ← preadExact fork .resource offset (min copySize (nativeSize - offset))
      let common := min sourceBytes.length native.length
      let rest ← compareChunks source fork entry nativeSize chunks
        (offset + max sourceBytes.length native.length)
      return sourceBytes.take common ≠ native.take common || rest

/-- `tc_verify_resource`: whether the forks differ. -/
def tcVerifyResource (source fork : FileId) (entry : AdEntry) : Mig Bool := do
  let nativeSize : Nat ← sys (.forkSize fork)
  let different ← compareChunks source fork entry nativeSize
    (chunksFor (max entry.length nativeSize)) 0
  return nativeSize ≠ entry.length || different

/-- `TC_RESOURCE_MARKER_MAGIC` and the length of the fork, 32 bits in a word of 64. -/
def resourceMarker (length : Nat) : Bytes := ascii "TCV4RSRC" ++ zeros 4 ++ be32 length

/-- Whether a copy of a fork of this length is under way. -/
def tcResourceMarkerState (base : FileId) (length : Nat) : Mig Bool := do
  let size : Except Errno Nat ← Prog.attempt (sys (.getxattrSize base resourceMarkerXattr))
  match size with
  | .error e => if tcMissingError e then return false else throw e
  | .ok size =>
      if size ≠ 16 then throw .einval
      else
        let marker : Bytes ← sys (.getxattr base resourceMarkerXattr 16)
        if marker ≠ resourceMarker length then throw .einval else return true

def tcSetResourceMarker (base : FileId) (length : Nat) : Mig Unit :=
  tcAirportFsetxattr base resourceMarkerXattr (resourceMarker length)

def tcRemoveResourceMarker (base : FileId) : Mig Unit := do
  let removed ← Prog.attempt (tcAirportFremovexattr base resourceMarkerXattr)
  match removed with
  | .error e => if tcMissingError e then return () else throw e
  | .ok () => return ()

/-- A read or a write that stops short ends the copy. -/
def copyChunks (source fork : FileId) (entry : AdEntry) : (chunks copied : Nat) → Mig Unit
  | 0, _ => return ()
  | chunks + 1, copied => do
      let chunk := min copySize (entry.length - copied)
      let bytes : Bytes ← sys (.pread source .data (entry.offset + copied) chunk)
      if bytes.length ≠ chunk then throw .eio
      else
        let written : Nat ← sys (.pwrite fork copied bytes)
        if written ≠ chunk then throw .eio
        else copyChunks source fork entry chunks (copied + chunk)

def tcMarkResource (base : FileId) (length : Nat) (marked : Bool) : Mig Unit :=
  if marked then return () else tcSetResourceMarker base length

/-- The copy of a fork under its marker. -/
def tcCopyResource (base source fork : FileId) (entry : AdEntry) (marked : Bool) : Mig Unit := do
  tcMarkResource base entry.length marked
  sys (.ftruncate fork 0)
  copyChunks source fork entry (chunksFor entry.length) 0
  sys (.ftruncate fork entry.length)
  sys (.fsync fork)
  let different ← tcVerifyResource source fork entry
  if different then throw (.other 0) else tcRemoveResourceMarker base

def tcMigrateFork (m : Migration) (base source : FileId) (path : Path) (entry : AdEntry) :
    Mig Unit := do
  let fork : FileId ← sys (.openResource path (m.phase = .copy))
  let nativeSize : Nat ← sys (.forkSize fork)
  let marked ← tcResourceMarkerState base entry.length
  if m.phase = .cleanup ∧ (marked = true ∨ nativeSize = 0) then throw .eio
  else if 0 < nativeSize ∧ marked = false then
    let _ ← tcVerifyResource source fork entry
    return ()
  else tcCopyResource base source fork entry marked

def tcMigrateResource (m : Migration) (base source : FileId) (path : Path)
    (resource : Option AdEntry) : Mig Unit :=
  match resource with
  | none => return ()
  | some entry =>
      if entry.length = 0 then return ()
      else do
        let blank ← tcIsEmptyResourcefork source entry
        if blank then return () else tcMigrateFork m base source path entry

/-- A replacement that arrived in the meantime is not unlinked. -/
def tcUnlinkVerifiedSidecar (path : Path) (source : Stat) : Mig Unit := do
  let current : Stat ← sys (.lstat path)
  if current.id ≠ source.id ∨ current.size ≠ source.size ∨ current.mtime ≠ source.mtime ∨
      current.ctime ≠ source.ctime then throw .eio
  else
    sys (.openDirectory path.dropLast)
    sys (.unlink path)
    sys (.fsyncDirectory path.dropLast)

/-- `._` in front of the last component. -/
def tcAppledoublePath (path : Path) : Path :=
  path.dropLast ++ [ascii "._" ++ path.getLast?.getD []]

/-- What is done with the sidecar once it is open. -/
def tcMigrateSidecar (m : Migration) (base : FileId) (path : Path) (source : FileId)
    (sourceSt : Stat) (ad : AppleDouble) : Mig Unit :=
  if ad.unsupportedEntries then throw .enotsup
  else do
    tcMigrateAppledoubleFinderinfo m base ad
    tcMigrateAppledoubleXattrs m base ad
    tcMigrateResource m base source path ad.resource
    match m.phase with
    | .copy => return ()
    | .cleanup => do
        sys (.fsync base)
        tcUnlinkVerifiedSidecar (tcAppledoublePath path) sourceSt

def tcOpenedAppledouble (m : Migration) (base : FileId) (path : Path) (source : FileId) :
    Mig Unit := do
  let sourceSt : Stat ← sys (.fstat source)
  if sourceSt.kind ≠ .regular then throw (.other 0)
  else
    let parsed ← tcParseAppledouble source sourceSt.size
    match parsed with
    | none => return ()
    | some ad => tcMigrateSidecar m base path source sourceSt ad

def tcMigrateAppledouble (m : Migration) (base : FileId) (path : Path) : Mig Unit := do
  let opened : Except Errno FileId ← Prog.attempt (sys (.openNoFollow (tcAppledoublePath path)))
  match opened with
  | .error e => if e = .enoent then return () else throw e
  | .ok source => tcOpenedAppledouble m base path source

/-! ## The scan -/

/-- The delete of one row in a transaction of its own. -/
def tcDeleteRow (key : Bytes) : Mig Unit := do
  sys .tdbTransactionStart
  let deleted : Except Errno Unit ← Prog.attempt (sys (.tdbDelete key))
  match deleted with
  | .error _ => do
      let _ ← Prog.attempt (sys .tdbTransactionCancel)
      throw .eio
  | .ok () => sys .tdbTransactionCommit

/-- The rows that are retired after this one. -/
def tcRetireTdbRecord (m : Migration) (retired : List Bytes) (fd id : FileId) :
    Mig (List Bytes) :=
  match m.phase with
  | .copy => return retired
  | .cleanup =>
      if !m.hasDb then return retired
      else if !tcMarkTdbKey m retired id then return retired
      else do
        sys (.fsync fd)
        tcDeleteRow (pushFileId16 id)
        return pushFileId16 id :: retired

def tcScanSidecar (m : Migration) (fd : FileId) (path : Path) (scanSidecar : Bool) : Mig Unit :=
  if scanSidecar then tcMigrateAppledouble m fd path else return ()

/-- The rows that are retired once one file has been migrated. -/
def tcScanFile (m : Migration) (retired : List Bytes) (path : Path) (id : FileId)
    (scanSidecar : Bool) : Mig (List Bytes) := do
  let fd : FileId ← sys (.openNoFollow path)
  let opened : Stat ← sys (.fstat fd)
  if opened.id ≠ id then throw (.other 0)
  else
    tcMigrateTdbRecord m retired fd id
    tcScanSidecar m fd path scanSidecar
    tcRetireTdbRecord m retired fd id

/-- Whether all went well, and the rows retired so far. -/
abbrev Scanned := Bool × List Bytes

def scanEach (scan : List Bytes → Name → Mig Scanned) : List Name → Scanned → Mig Scanned
  | [], done => return done
  | name :: names, done => do
      let scanned ← scan done.2 name
      scanEach scan names (done.1 && scanned.1, scanned.2)

def sidecarName (name : Name) : Bool := (ascii "._").isPrefixOf name

/-- The entries of a directory that are scanned, the names of sidecars first. -/
def scanOrder (names : List Name) : List Name :=
  let children := names.filter fun name =>
    name ≠ ascii "." ∧ name ≠ ascii ".." ∧ name ≠ ascii ".samba4"
  children.filter sidecarName ++ children.filter fun name => !sidecarName name

/-- The file itself, if it is one that can have attributes. -/
def tcScanEntry (m : Migration) (retired : List Bytes) (path : Path) (st : Stat)
    (scanSidecar : Bool) : Mig Scanned :=
  if st.kind = .other then return (true, retired)
  else do
    let file ← Prog.attempt (tcScanFile m retired path st.id scanSidecar)
    match file with
    | .error _ => return (false, retired)
    | .ok retired => return (true, retired)

/-- `tc_scan_path`.  A path of more components than the fuel is too long to be looked up. -/
def tcScanPath (m : Migration) : (fuel : Nat) → List Bytes → Path → (scanSidecar : Bool) →
    Mig Scanned
  | 0, retired, _, _ => return (false, retired)
  | fuel + 1, retired, path, scanSidecar => do
      let st : Except Errno Stat ← Prog.attempt (sys (.lstat path))
      match st with
      | .error _ => return (false, retired)
      | .ok st => do
          let scanned ← tcScanEntry m retired path st scanSidecar
          if st.kind ≠ .directory then return scanned
          else
            let listing : Except Errno (List Name × Bool) ←
              Prog.attempt (sys (.readDirectory path))
            match listing with
            | .error _ => return (false, scanned.2)
            | .ok listing =>
                scanEach
                  (fun retired name => tcScanPath m fuel retired (path ++ [name]) (!sidecarName name))
                  (scanOrder listing.1) (scanned.1 && !listing.2, scanned.2)

/-- `PATH_MAX` -/
def pathMax : Nat := 1024

def tcScanRoot (m : Migration) (retired : List Bytes) (path : Path) : Mig Scanned := do
  let hfs : Except Errno Unit ← Prog.attempt (sys (.pathIsHfs path))
  match hfs with
  | .error _ => return (false, retired)
  | .ok () => tcScanPath m pathMax retired path false

def scanRoots (m : Migration) : List Path → Scanned → Mig Scanned
  | [], done => return done
  | path :: paths, done => do
      let scanned ← tcScanRoot m done.2 path
      scanRoots m paths (done.1 && scanned.1, scanned.2)

/-! ## A run -/

/-- The roots of a run, and whether they could all be read. -/
structure Roots where
  paths : List Path
  complete : Bool
deriving DecidableEq, Repr

def tcKeySize : Nat := 16

def tcCollectTdbKeys : Mig (List Bytes) := do
  let keys : List Bytes ← sys .tdbKeys
  if keys.all fun key => key.length = tcKeySize then return keys else throw .einval

/-- The keys of the database, none without one. -/
def openTdb (phase : Phase) (withTdb : Bool) : Mig (List Bytes) :=
  if !withTdb then return []
  else do
    sys (.tdbOpen (phase = .cleanup))
    tcCollectTdbKeys

/-- The database file goes when every row collected from it is retired. -/
def tcUnlinkTdb (m : Migration) (scanned : Scanned) : Mig Bool :=
  if scanned.1 = true ∧ m.phase = .cleanup ∧ m.hasDb = true ∧
      (m.tdbKeys.all fun key => scanned.2.contains key) = true then do
    let unlinked : Except Errno Unit ← Prog.attempt (sys .tdbUnlink)
    match unlinked with
    | .error _ => return false
    | .ok () => return true
  else return scanned.1

def migrateRoots (m : Migration) (roots : Roots) : Mig Bool := do
  let scanned ← scanRoots m roots.paths (roots.complete, [])
  tcUnlinkTdb m scanned

/-- Whether a run ends without an error; one that cannot read the database raises it. -/
def migrate (phase : Phase) (metadata : LegacyMetadata) (withTdb : Bool) (roots : Roots) :
    Mig Bool := do
  let keys ← openTdb phase withTdb
  migrateRoots ⟨phase, metadata, withTdb, keys⟩ roots

end TimeCapsule.Migrate
