import TimeCapsule.Vfs.Compat

/-!
# The `*at` functions

What the calls on a handle do whose fallbacks are in the file server: each path starts at the handle's
directory, unless it is absolute.
-/

namespace TimeCapsule.Vfs

open Lib

/-- An absolute path needs no handle. -/
def handleOf (dirfd : DirFd) (path : PathText) : DirFd := if path.head? = some '/' then .atFdcwd else dirfd

namespace Kernel

variable {ν σ ρ : Type} (k : Kernel ν σ ρ)

/-- The directory of a handle. -/
def dirOf (dirfd : DirFd) (s : State ν σ) : Except Errno ν :=
  match dirfd with
  | .atFdcwd => .ok s.cwd
  | .invalid => .error .ebadf
  | .fd n =>
      match s.files n with
      | none => .error .ebadf
      | some file => if (k.tree s.fs).isDir file.node then .ok file.node else .error .enotdir

/-- `mkdirat`, `fstatat`, `unlinkat`, `symlinkat`, `readlinkat` and `mknodat` -/
def atCall (call : PathCall) (dirfd : DirFd) (path : PathText) (s : State ν σ) : Option ρ × State ν σ :=
  match k.dirOf (handleOf dirfd path) s with
  | .error error => (none, s.setErrno error)
  | .ok start => s.after (k.perform call start path s.fs)

/-- `renameat`, and `linkat` without flags -/
def atPairCall (call : PairCall) (srcDirfd : DirFd) (src : PathText) (dstDirfd : DirFd) (dst : PathText)
    (s : State ν σ) : Option ρ × State ν σ :=
  match k.dirOf (handleOf srcDirfd src) s with
  | .error error => (none, s.setErrno error)
  | .ok start =>
      match k.dirOf (handleOf dstDirfd dst) s with
      | .error error => (none, s.setErrno error)
      | .ok start' => s.after (k.performPair call false start src start' dst s.fs)

/-- The descriptors while the old directory is open, too. -/
def heldFiles (dirfd : DirFd) (s : State ν σ) : Nat → Option (OpenFile ν) :=
  match dirfd with
  | .fd _ =>
      match k.lowest s.files with
      | none => s.files
      | some saved => (s.setFile saved (some ⟨s.cwd, false⟩)).files
  | _ => s.files

/-- `openat` with the flags that the kernel knows, as long as the old directory has a descriptor.  What is
opened is closed on `exec` if that was asked for, and must be a directory if that was. -/
def atOpen (h : Headers) (dirfd : DirFd) (path : PathText) (isDirectory : Bool) (flags : BitVec 32)
    (mode : Nat) (s : State ν σ) : Option Nat × State ν σ :=
  let normalized := normalizeOpenFlags h flags
  match k.dirOf (handleOf dirfd path) s with
  | .error error => (none, s.setErrno error)
  | .ok start =>
      match k.lowest (k.heldFiles (handleOf dirfd path) s) with
      | none => (none, s.setErrno .emfile)
      | some fd =>
          let opened := s.after (k.openNode normalized.flags mode start path s.fs)
          match opened.1 with
          | none => (none, opened.2)
          | some node =>
              if (normalized.wantDirectory || isDirectory) && !(k.tree opened.2.fs).isDir node then
                (none, opened.2.setErrno .enotdir)
              else (some fd, opened.2.setFile fd (some ⟨node, normalized.wantCloexec⟩))

end Kernel

end TimeCapsule.Vfs
