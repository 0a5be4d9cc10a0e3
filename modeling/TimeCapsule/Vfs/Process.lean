import TimeCapsule.Lib.Namei

/-!
# A process and its system calls

The server's current directory, its descriptors and its `errno`, and the calls that the fallbacks for the
`*at` functions are made of.  Any of these calls may fail, and each one is recorded.
-/

namespace TimeCapsule.Vfs

open Lib

inductive Errno where
  | ebadf
  | einval
  | enosys
  | enoent
  | enotdir
  | eacces
  | enametoolong
  | eloop
  | erange
  | enomem
  | emfile
  | other (n : Nat)
deriving DecidableEq, Repr

def Errno.ofWalk : WalkError → Errno
  | .noEntry => .enoent
  | .notDir => .enotdir
  | .access => .eacces
  | .nameTooLong => .enametoolong
  | .loop => .eloop

/-- The calls that are not the operation itself. -/
inductive SysCall where
  | openDot
  | fchdir
  | close
  | getcwd (size : Nat)
  | fcntlGetfd
  | fcntlSetfd
  | fstat
  | alloc
deriving DecidableEq, Repr

structure Event where
  call : SysCall
  error : Option Errno
deriving DecidableEq, Repr

structure OpenFile (ν : Type) where
  node : ν
  cloexec : Bool
deriving DecidableEq

structure State (ν σ : Type) where
  fs : σ
  cwd : ν
  files : Nat → Option (OpenFile ν)
  errno : Errno
  trace : List Event

/-- The operations on one path. -/
inductive PathCall where
  | mkdir (mode : Nat)
  | stat
  | lstat
  | unlink
  | rmdir
  | symlink (target : PathText)
  | readlink (bufsiz : Nat)
  | mknod (mode dev : Nat)

inductive PairCall where
  | rename
  | link
deriving DecidableEq

/-- A link at the end of the path is followed. -/
def PathCall.follows : PathCall → Bool
  | .stat => true
  | _ => false

/-- The limits of NetBSD. -/
def netbsdLimits : WalkLimits := ⟨1024, 255, 32⟩

/-- What the system does: the file system that a path is looked up in, the operations on what was found,
the path that it gives for a directory, and the calls that it lets fail. -/
structure Kernel (ν σ ρ : Type) where
  tree : σ → FileTree ν
  readable : σ → ν → Bool
  act : PathCall → Found ν → σ → Except Errno ρ × σ
  actPair : PairCall → Found ν → Found ν → σ → Except Errno ρ × σ
  openFile : BitVec 32 → Nat → Found ν → σ → Except Errno ν × σ
  openFollows : BitVec 32 → Bool
  /-- Whether `link` follows a link at the end of the old path. -/
  linkFollows : Bool
  getcwd : σ → ν → Except Errno PathText
  getcwd_absolute : ∀ fs dir path, getcwd fs dir = .ok path → path.head? = some '/'
  getcwd_leads : ∀ fs dir path, getcwd fs dir = .ok path →
    (tree fs).Leads netbsdLimits (tree fs).root (components path) dir
  maxFiles : Nat
  /-- The error of the call after so many others. -/
  fault : Nat → Option Errno
  /-- The error of the operation itself, before it does anything. -/
  operationFault : Option Errno

namespace State

variable {ν σ : Type} (s : State ν σ)

def setErrno (errno : Errno) : State ν σ := { s with errno := errno }

def setFile (fd : Nat) (file : Option (OpenFile ν)) : State ν σ :=
  { s with files := fun n => if n = fd then file else s.files n }

def succeed (call : SysCall) : State ν σ := { s with trace := s.trace ++ [⟨call, none⟩] }

def fail (call : SysCall) (error : Errno) : State ν σ :=
  { s with errno := error, trace := s.trace ++ [⟨call, some error⟩] }

end State

namespace Kernel

variable {ν σ ρ : Type} (k : Kernel ν σ ρ)

/-- The lowest free descriptor. -/
def lowest (files : Nat → Option (OpenFile ν)) : Option Nat :=
  (List.range k.maxFiles).find? fun n => (files n).isNone

/-- The error of the next call, which has an error of its own or none. -/
def errorOf (s : State ν σ) (own : Option Errno) : Option Errno :=
  match k.fault s.trace.length with
  | some error => some error
  | none => own

/-! ## The calls of the fallbacks -/

/-- `open(".", O_RDONLY)` -/
def openDot (s : State ν σ) : Option Nat × State ν σ :=
  match k.errorOf s (if k.readable s.fs s.cwd then none else some .eacces) with
  | some error => (none, s.fail .openDot error)
  | none =>
      match k.lowest s.files with
      | none => (none, s.fail .openDot .emfile)
      | some fd => (some fd, (s.succeed .openDot).setFile fd (some ⟨s.cwd, false⟩))

/-- Why a file cannot become the current directory. -/
def fchdirError (s : State ν σ) (node : ν) : Option Errno :=
  if !(k.tree s.fs).isDir node then some .enotdir
  else if !(k.tree s.fs).searchable node then some .eacces
  else none

def fchdir (fd : Nat) (s : State ν σ) : Bool × State ν σ :=
  match s.files fd with
  | none => (false, s.fail .fchdir .ebadf)
  | some file =>
      match k.errorOf s (k.fchdirError s file.node) with
      | some error => (false, s.fail .fchdir error)
      | none => (true, { s.succeed .fchdir with cwd := file.node })

/-- The descriptor is gone behind a `close` that fails, too. -/
def close (fd : Nat) (s : State ν σ) : Bool × State ν σ :=
  match s.files fd with
  | none => (false, s.fail .close .ebadf)
  | some _ =>
      match k.fault s.trace.length with
      | some error => (false, (s.fail .close error).setFile fd none)
      | none => (true, (s.succeed .close).setFile fd none)

def getcwdCall (size : Nat) (s : State ν σ) : Option PathText × State ν σ :=
  match k.fault s.trace.length with
  | some error => (none, s.fail (.getcwd size) error)
  | none =>
      match k.getcwd s.fs s.cwd with
      | .error error => (none, s.fail (.getcwd size) error)
      | .ok path =>
          if path.length < size then (some path, s.succeed (.getcwd size))
          else (none, s.fail (.getcwd size) .erange)

/-- `talloc_array`, `talloc_asprintf` and `talloc_strdup`, as far as they may fail. -/
def alloc (s : State ν σ) : Bool × State ν σ :=
  match k.fault s.trace.length with
  | some _ => (false, s.fail .alloc .enomem)
  | none => (true, s.succeed .alloc)

/-- `fcntl(fd, F_GETFD)` -/
def fcntlGetfd (fd : Nat) (s : State ν σ) : Option Bool × State ν σ :=
  match s.files fd with
  | none => (none, s.fail .fcntlGetfd .ebadf)
  | some file =>
      match k.fault s.trace.length with
      | some error => (none, s.fail .fcntlGetfd error)
      | none => (some file.cloexec, s.succeed .fcntlGetfd)

/-- `fcntl(fd, F_SETFD, …)` -/
def fcntlSetfd (fd : Nat) (cloexec : Bool) (s : State ν σ) : Bool × State ν σ :=
  match s.files fd with
  | none => (false, s.fail .fcntlSetfd .ebadf)
  | some file =>
      match k.fault s.trace.length with
      | some error => (false, s.fail .fcntlSetfd error)
      | none => (true, (s.succeed .fcntlSetfd).setFile fd (some ⟨file.node, cloexec⟩))

/-- `sys_fstat`: whether the file is a directory. -/
def fstat (fd : Nat) (s : State ν σ) : Option Bool × State ν σ :=
  match s.files fd with
  | none => (none, s.fail .fstat .ebadf)
  | some file =>
      match k.fault s.trace.length with
      | some error => (none, s.fail .fstat error)
      | none => (some ((k.tree s.fs).isDir file.node), s.succeed .fstat)

/-! ## The operations -/

def lookup (follow : Bool) (start : ν) (path : PathText) (fs : σ) : Except Errno (Found ν) :=
  match (k.tree fs).namei netbsdLimits follow start path with
  | .ok found => .ok found
  | .error error => .error (Errno.ofWalk error)

/-- An operation whose path starts at a directory. -/
def perform (call : PathCall) (start : ν) (path : PathText) (fs : σ) : Except Errno ρ × σ :=
  match k.operationFault with
  | some error => (.error error, fs)
  | none =>
      match k.lookup call.follows start path fs with
      | .error error => (.error error, fs)
      | .ok found => k.act call found fs

def performPair (call : PairCall) (follow : Bool) (start : ν) (path : PathText) (start' : ν)
    (path' : PathText) (fs : σ) : Except Errno ρ × σ :=
  match k.operationFault with
  | some error => (.error error, fs)
  | none =>
      match k.lookup follow start path fs with
      | .error error => (.error error, fs)
      | .ok found =>
          match k.lookup false start' path' fs with
          | .error error => (.error error, fs)
          | .ok found' => k.actPair call found found' fs

def openNode (flags : BitVec 32) (mode : Nat) (start : ν) (path : PathText) (fs : σ) : Except Errno ν × σ :=
  match k.operationFault with
  | some error => (.error error, fs)
  | none =>
      match k.lookup (k.openFollows flags) start path fs with
      | .error error => (.error error, fs)
      | .ok found => k.openFile flags mode found fs

end Kernel

/-- The value of a call, and the state with the file system and the error behind it. -/
def State.after {ν σ α : Type} (s : State ν σ) (outcome : Except Errno α × σ) : Option α × State ν σ :=
  match outcome.1 with
  | .ok value => (some value, { s with fs := outcome.2 })
  | .error error => (none, { s with fs := outcome.2, errno := error })

namespace Kernel

variable {ν σ ρ : Type} (k : Kernel ν σ ρ)

/-- An operation on a path, without a directory to start from. -/
def pathCall (call : PathCall) (path : PathText) (s : State ν σ) : Option ρ × State ν σ :=
  s.after (k.perform call s.cwd path s.fs)

/-- `rename` and `link` -/
def pairCall (call : PairCall) (path path' : PathText) (s : State ν σ) : Option ρ × State ν σ :=
  s.after (k.performPair call (decide (call = .link) && k.linkFollows) s.cwd path s.cwd path' s.fs)

def openCall (path : PathText) (flags : BitVec 32) (mode : Nat) (s : State ν σ) : Option Nat × State ν σ :=
  match k.lowest s.files with
  | none => (none, s.setErrno .emfile)
  | some fd =>
      let opened := s.after (k.openNode flags mode s.cwd path s.fs)
      match opened.1 with
      | none => (none, opened.2)
      | some node => (some fd, opened.2.setFile fd (some ⟨node, false⟩))

end Kernel

end TimeCapsule.Vfs
