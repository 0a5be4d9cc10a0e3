import TimeCapsule.Lib.Prog
import TimeCapsule.Migrate.Xattr

/-!
# Volumes and system calls

A tree of names over inodes, so that a file can have several names, the database of attribute rows,
and the calls the migrator makes on them.  Any call may fail; reads and writes of forks may stop
short.
-/

namespace TimeCapsule.Migrate

open Lib

inductive Errno where
  | enoattr
  | enodata
  | enoent
  | eio
  | einval
  | eoverflow
  | erange
  | enotsup
  | other (code : Nat)
deriving DecidableEq, Repr

def tcMissingError (error : Errno) : Bool :=
  error = .enoattr || error = .enodata || error = .enoent

structure FileId where
  devid : UInt64
  inode : UInt64
deriving DecidableEq, Repr

/-- The components of an absolute path. -/
abbrev Path := List Name

inductive FileKind where
  | regular
  | directory
  | other
deriving DecidableEq, Repr

structure Stat where
  id : FileId
  kind : FileKind
  size : Nat
  mtime : Nat
  ctime : Nat
deriving DecidableEq, Repr

inductive Fork where
  | data
  | resource
deriving DecidableEq, Repr

/-- A file or directory.  `resource` is `none` until the fork has been created. -/
structure Inode where
  kind : FileKind
  data : Bytes
  resource : Option Bytes
  attrs : List (Name × Bytes)
  mtime : Nat
  ctime : Nat
deriving DecidableEq, Repr

def Inode.fork (inode : Inode) : Fork → Bytes
  | .data => inode.data
  | .resource => inode.resource.getD []

/-- The attributes of one file as the database has them. -/
abbrev Row := List (Name × Bytes)

/-- The records by their keys; a record that cannot be decoded is `none`. -/
abbrev Tdb := List (Bytes × Option Row)

/-- `writes` counts the calls that have changed something. -/
structure World where
  path : Path → Option FileId
  names : Path → List Name
  inode : FileId → Inode
  tdb : Option Tdb
  transaction : List Bytes
  writes : Nat

/-- `push_file_id_16` -/
def pushFileId16 (id : FileId) : Bytes :=
  let le64 (n : UInt64) : Bytes := (List.range 8).map fun i => (n >>> (8 * i).toUInt64).toUInt8
  le64 id.devid ++ le64 id.inode

def World.stat (w : World) (id : FileId) : Stat :=
  let inode := w.inode id
  ⟨id, inode.kind, inode.data.length, inode.mtime, inode.ctime⟩

/-- A change of one file. -/
def World.modify (w : World) (id : FileId) (f : Inode → Inode) : World :=
  { w with
    inode := fun id' => if id' = id then f (w.inode id') else w.inode id'
    writes := w.writes + 1 }

def World.unlink (w : World) (path : Path) : World :=
  { w with
    path := fun p => if p = path then none else w.path p
    names := fun p =>
      if p = path.dropLast then (w.names p).filter fun name => path ≠ p ++ [name] else w.names p
    writes := w.writes + 1 }

def Inode.setAttr (name : Name) (value : Bytes) (inode : Inode) : Inode :=
  { inode with attrs := dictSet inode.attrs name value }

def Inode.removeAttr (name : Name) (inode : Inode) : Inode :=
  { inode with attrs := inode.attrs.filter fun attr => attr.1 ≠ name }

def Inode.createResource (inode : Inode) : Inode :=
  { inode with resource := some (inode.resource.getD []) }

/-- `pwrite` at an offset, filling a gap with zeros. -/
def Inode.writeResource (offset : Nat) (bytes : Bytes) (inode : Inode) : Inode :=
  let fork := inode.resource.getD []
  let padded := fork ++ zeros (offset - fork.length)
  { inode with resource := some (setSlice padded offset (offset + bytes.length) bytes) }

/-- `ftruncate`, filling up with zeros. -/
def Inode.truncateResource (size : Nat) (inode : Inode) : Inode :=
  let fork := inode.resource.getD []
  { inode with resource := some (fork.take size ++ zeros (size - fork.length)) }

/-! ## System calls -/

inductive MigrateOp where
  | pathIsHfs (path : Path)
  | lstat (path : Path)
  | openNoFollow (path : Path)
  | fstat (id : FileId)
  | readDirectory (path : Path)
  | getxattrSize (id : FileId) (name : Name)
  | getxattr (id : FileId) (name : Name) (size : Nat)
  | flock (id : FileId)
  | unlock (id : FileId)
  | setxattr (id : FileId) (name : Name) (value : Bytes)
  | removexattr (id : FileId) (name : Name)
  | openResource (path : Path) (create : Bool)
  | forkSize (id : FileId)
  | pread (id : FileId) (fork : Fork) (offset size : Nat)
  | pwrite (id : FileId) (offset : Nat) (bytes : Bytes)
  | ftruncate (id : FileId) (size : Nat)
  | fsync (id : FileId)
  | openDirectory (path : Path)
  | fsyncDirectory (path : Path)
  | unlink (path : Path)
  | tdbOpen (write : Bool)
  | tdbKeys
  | tdbListattr (key : Bytes)
  | tdbGetattr (key : Bytes) (name : Name)
  | tdbTransactionStart
  | tdbDelete (key : Bytes)
  | tdbTransactionCancel
  | tdbTransactionCommit
  | tdbUnlink

/-- What a call returns.  A directory is read up to an error, if there is one. -/
abbrev MigrateRes : MigrateOp → Type
  | .lstat _ => Stat
  | .openNoFollow _ => FileId
  | .fstat _ => Stat
  | .readDirectory _ => List Name × Bool
  | .getxattrSize _ _ => Nat
  | .getxattr _ _ _ => Bytes
  | .openResource _ _ => FileId
  | .forkSize _ => Nat
  | .pread _ _ _ _ => Bytes
  | .pwrite _ _ _ => Nat
  | .tdbKeys => List Bytes
  | .tdbListattr _ => List Name
  | .tdbGetattr _ _ => Bytes
  | _ => Unit

abbrev MigrateAns (op : MigrateOp) : Type := Except Errno (MigrateRes op)

/-- What goes wrong at a call: an error, or an end after so many bytes or directory entries. -/
structure Fault where
  error : Option Errno
  cut : Option Nat
deriving DecidableEq, Repr

def quiet : Fault := ⟨none, none⟩

/-- `Fault.cut` as a number of items. -/
def Fault.allowed (fault : Fault) (size : Nat) : Nat := (fault.cut.map (min size)).getD size

/-- A call without an error answers and changes the world; with one it does neither. -/
def answer {α : Type} (fault : Fault) (w : World) (result : Except Errno α × World) :
    Except Errno α × World :=
  match fault.error with
  | some e => (.error e, w)
  | none => result

def World.row (w : World) (key : Bytes) : Except Errno Row :=
  match w.tdb.bind (·.lookup key) with
  | some (some row) => .ok row
  | some none => .error .einval
  | none => .ok []

def World.getxattr (w : World) (id : FileId) (name : Name) : Except Errno Bytes :=
  ((w.inode id).attrs.lookup name).elim (.error .enoattr) .ok

/-- A resource fork opened for a file that exists. -/
def World.openResource (w : World) (id : FileId) (create : Bool) : Except Errno FileId × World :=
  if (w.inode id).resource.isSome then (.ok id, w)
  else if create then (.ok id, w.modify id (·.createResource))
  else (.error .enoent, w)

def World.commit (w : World) : World :=
  { w with
    tdb := w.tdb.map (·.filter fun record => !w.transaction.contains record.1)
    transaction := []
    writes := w.writes + 1 }

/-- The calls, when nothing goes wrong apart from short reads and writes. -/
def World.perform (w : World) (fault : Fault) : (op : MigrateOp) → MigrateAns op × World
  | .pathIsHfs _ => answer fault w (.ok (), w)
  | .lstat path => answer fault w ((w.path path).elim (.error .enoent) fun id => .ok (w.stat id), w)
  | .openNoFollow path =>
      answer fault w ((w.path path).elim (.error .enoent) fun id =>
        if (w.inode id).kind = .other then .error (.other 62) else .ok id, w)
  | .fstat id => answer fault w (.ok (w.stat id), w)
  | .readDirectory path =>
      let names := w.names path
      let read := names.take (fault.allowed names.length)
      answer fault w (.ok (read, read.length ≠ names.length), w)
  | .getxattrSize id name => answer fault w ((w.getxattr id name).map (·.length), w)
  | .getxattr id name size =>
      answer fault w ((w.getxattr id name).bind fun value =>
        if size < value.length then .error .erange else .ok value, w)
  | .flock _ => answer fault w (.ok (), w)
  | .unlock _ => answer fault w (.ok (), w)
  | .setxattr id name value => answer fault w (.ok (), w.modify id (·.setAttr name value))
  | .removexattr id name =>
      answer fault w (((w.inode id).attrs.lookup name).elim (.error .enoattr, w) fun _ =>
        (.ok (), w.modify id (·.removeAttr name)))
  | .openResource path create =>
      answer fault w ((w.path path).elim (.error .enoent, w) fun id => w.openResource id create)
  | .forkSize id => answer fault w (.ok ((w.inode id).fork .resource).length, w)
  | .pread id fork offset size =>
      answer fault w (.ok ((((w.inode id).fork fork).drop offset).take (fault.allowed size)), w)
  | .pwrite id offset bytes =>
      let count := fault.allowed bytes.length
      answer fault w (.ok count, w.modify id (·.writeResource offset (bytes.take count)))
  | .ftruncate id size => answer fault w (.ok (), w.modify id (·.truncateResource size))
  | .fsync _ => answer fault w (.ok (), w)
  | .openDirectory path => answer fault w ((w.path path).elim (.error .enoent) fun _ => .ok (), w)
  | .fsyncDirectory _ => answer fault w (.ok (), w)
  | .unlink path =>
      answer fault w ((w.path path).elim (.error .enoent, w) fun _ => (.ok (), w.unlink path))
  | .tdbOpen _ => answer fault w (w.tdb.elim (.error .enoent) fun _ => .ok (), w)
  | .tdbKeys => answer fault w (.ok ((w.tdb.getD []).map Prod.fst), w)
  | .tdbListattr key => answer fault w ((w.row key).map (·.map Prod.fst), w)
  | .tdbGetattr key name =>
      answer fault w ((w.row key).bind fun row => (row.lookup name).elim (.error .enoattr) .ok, w)
  | .tdbTransactionStart => answer fault w (.ok (), { w with transaction := [] })
  | .tdbDelete key => answer fault w (.ok (), { w with transaction := key :: w.transaction })
  | .tdbTransactionCancel => answer fault w (.ok (), { w with transaction := [] })
  | .tdbTransactionCommit => answer fault w (.ok (), w.commit)
  | .tdbUnlink => answer fault w (.ok (), { w with tdb := none, writes := w.writes + 1 })

def migrateKernel : Kernel MigrateOp MigrateAns World Fault where
  step op fault w := w.perform fault op

/-- Any call may go wrong in any way. -/
abbrev anyFault : MigrateOp → Fault → World → Prop := fun _ _ _ => True

/-- Any call may fail, but none says that something is missing that is there. -/
abbrev systemFault : MigrateOp → Fault → World → Prop :=
  fun _ fault _ => ∀ e ∈ fault.error, tcMissingError e = false

/-- Nothing goes wrong. -/
abbrev noFault : MigrateOp → Fault → World → Prop := fun _ fault _ => fault = quiet

end TimeCapsule.Migrate
