import TimeCapsule.Vfs.Process

/-!
# The fallbacks for the `*at` functions

The patched file server makes each `*at` call out of an older one: it changes into the handle's directory
and back, or builds an absolute path from the name of that directory.
-/

namespace TimeCapsule.Vfs

open Lib

/-- `fsp_get_pathref_fd`: `AT_FDCWD`, `-1` or a descriptor. -/
inductive DirFd where
  | atFdcwd
  | invalid
  | fd (n : Nat)
deriving DecidableEq, Repr

/-- The flags of the headers, with no bit for those that they do not define. -/
structure Headers where
  oSearch : BitVec 32
  oDirectory : BitVec 32
  oCloexec : BitVec 32
  oPath : BitVec 32
  atSymlinkNofollow : BitVec 32
  atRemovedir : BitVec 32

structure NormalizedFlags where
  flags : BitVec 32
  wantDirectory : Bool
  wantCloexec : Bool

/-- `tc_netbsd_normalize_open_flags` -/
def normalizeOpenFlags (h : Headers) (flags : BitVec 32) : NormalizedFlags :=
  let flags := flags &&& ~~~h.oSearch
  let wantDirectory := flags &&& h.oDirectory != 0
  let flags := if wantDirectory then flags &&& ~~~h.oDirectory else flags
  let wantCloexec := flags &&& h.oCloexec != 0
  let flags := if wantCloexec then flags &&& ~~~h.oCloexec else flags
  ⟨flags &&& ~~~h.oPath, wantDirectory, wantCloexec⟩

namespace Kernel

variable {ν σ ρ : Type} (k : Kernel ν σ ρ)

/-! ## There and back -/

/-- `tc_netbsd_prepare_fd_cwd`: nothing for `-1`, and the saved directory, if the process went to another. -/
def prepareFdCwd (dirfd : DirFd) (s : State ν σ) : Option (Option Nat) × State ν σ :=
  match dirfd with
  | .atFdcwd => (some none, s)
  | .invalid => (none, s.setErrno .ebadf)
  | .fd dirfd =>
      let opened := k.openDot s
      match opened.1 with
      | none => (none, opened.2)
      | some fd =>
          let changed := k.fchdir dirfd opened.2
          if changed.1 then (some (some fd), changed.2)
          else
            let savedErrno := changed.2.errno
            (none, (k.close fd changed.2).2.setErrno savedErrno)

/-- `tc_netbsd_restore_cwd` -/
def restoreCwd (savedCwd : Option Nat) (savedErrno : Errno) (s : State ν σ) : Bool × State ν σ :=
  match savedCwd with
  | none => (true, s.setErrno savedErrno)
  | some fd =>
      let changed := k.fchdir fd s
      if changed.1 then
        let closed := k.close fd changed.2
        if closed.1 then (true, closed.2.setErrno savedErrno)
        else
          let restoreErrno := closed.2.errno
          (false, closed.2.setErrno restoreErrno)
      else
        let restoreErrno := changed.2.errno
        (false, (k.close fd changed.2).2.setErrno restoreErrno)

/-- `tc_netbsd_prepare_at_cwd`; a null pointer is `none`. -/
def prepareAtCwd (dirfsp : Option DirFd) (baseName : Option PathText) (s : State ν σ) :
    Option (PathText × Option Nat) × State ν σ :=
  match baseName with
  | none => (none, s.setErrno .einval)
  | some path =>
      if path.head? = some '/' then (some (path, none), s)
      else
        match dirfsp with
        | none => (none, s.setErrno .einval)
        | some dirfd =>
            let prepared := k.prepareFdCwd dirfd s
            (prepared.1.map fun saved => (path, saved), prepared.2)

/-- What the fallbacks for the operations on one path share. -/
def atCompat (call : PathCall) (dirfsp : Option DirFd) (baseName : Option PathText) (s : State ν σ) :
    Option ρ × State ν σ :=
  let prepared := k.prepareAtCwd dirfsp baseName s
  match prepared.1 with
  | none => (none, prepared.2)
  | some (path, savedCwd) =>
      let called := k.pathCall call path prepared.2
      let savedErrno := called.2.errno
      let restored := k.restoreCwd savedCwd savedErrno called.2
      if restored.1 then (called.1, restored.2) else (none, restored.2)

/-- `tc_netbsd_mkdirat_compat` -/
def mkdiratCompat (dirfsp : Option DirFd) (baseName : Option PathText) (mode : Nat) (s : State ν σ) :
    Option ρ × State ν σ :=
  k.atCompat (.mkdir mode) dirfsp baseName s

/-- `tc_netbsd_fstatat_compat` -/
def fstatatCompat (h : Headers) (dirfsp : Option DirFd) (baseName : Option PathText) (flags : BitVec 32)
    (s : State ν σ) : Option ρ × State ν σ :=
  if flags &&& ~~~h.atSymlinkNofollow != 0 then (none, s.setErrno .enosys)
  else
    k.atCompat (if flags &&& h.atSymlinkNofollow != 0 then .lstat else .stat) dirfsp baseName s

/-- `tc_netbsd_unlinkat_compat` -/
def unlinkatCompat (h : Headers) (dirfsp : Option DirFd) (baseName : Option PathText) (flags : BitVec 32)
    (s : State ν σ) : Option ρ × State ν σ :=
  if flags &&& ~~~h.atRemovedir != 0 then (none, s.setErrno .enosys)
  else k.atCompat (if flags &&& h.atRemovedir != 0 then .rmdir else .unlink) dirfsp baseName s

/-- `tc_netbsd_symlinkat_compat` -/
def symlinkatCompat (target : Option PathText) (dirfsp : Option DirFd) (baseName : Option PathText)
    (s : State ν σ) : Option ρ × State ν σ :=
  match target with
  | none => (none, s.setErrno .einval)
  | some target => k.atCompat (.symlink target) dirfsp baseName s

/-- `tc_netbsd_readlinkat_compat` -/
def readlinkatCompat (dirfsp : Option DirFd) (baseName : Option PathText) (bufsiz : Nat) (s : State ν σ) :
    Option ρ × State ν σ :=
  k.atCompat (.readlink bufsiz) dirfsp baseName s

/-- `tc_netbsd_mknodat_compat` -/
def mknodatCompat (dirfsp : Option DirFd) (baseName : Option PathText) (mode dev : Nat) (s : State ν σ) :
    Option ρ × State ν σ :=
  k.atCompat (.mknod mode dev) dirfsp baseName s

/-! ## Files -/

/-- `tc_netbsd_set_cloexec` -/
def setCloexec (fd : Nat) (s : State ν σ) : Bool × State ν σ :=
  let flags := k.fcntlGetfd fd s
  match flags.1 with
  | none => (false, flags.2)
  | some _ => k.fcntlSetfd fd true flags.2

/-- `tc_netbsd_validate_opened_file` -/
def validateOpenedFile (isDirectory : Bool) (fd : Option Nat) (wantDirectory wantCloexec : Bool)
    (s : State ν σ) : Option Nat × State ν σ :=
  match fd with
  | none => (none, s)
  | some fd =>
      let marked := if wantCloexec then k.setCloexec fd s else (true, s)
      if !marked.1 then
        let err := marked.2.errno
        (none, (k.close fd marked.2).2.setErrno err)
      else if !wantDirectory && !isDirectory then (some fd, marked.2)
      else
        let stat := k.fstat fd marked.2
        match stat.1 with
        | none =>
            let err := stat.2.errno
            (none, (k.close fd stat.2).2.setErrno err)
        | some isDir =>
            if !isDir then (none, (k.close fd stat.2).2.setErrno .enotdir) else (some fd, stat.2)

/-- `tc_netbsd_openat_compat`; `isDirectory` is the flag of the file structure. -/
def openatCompat (h : Headers) (dirfsp : Option DirFd) (baseName : Option PathText) (isDirectory : Bool)
    (flags : BitVec 32) (mode : Nat) (s : State ν σ) : Option Nat × State ν σ :=
  let normalized := normalizeOpenFlags h flags
  let prepared := k.prepareAtCwd dirfsp baseName s
  match prepared.1 with
  | none => (none, prepared.2)
  | some (path, savedCwd) =>
      let opened := k.openCall path normalized.flags mode prepared.2
      let savedErrno := opened.2.errno
      let restored := k.restoreCwd savedCwd savedErrno opened.2
      if restored.1 then
        k.validateOpenedFile isDirectory opened.1 normalized.wantDirectory normalized.wantCloexec restored.2
      else
        let restoreErrno := restored.2.errno
        match opened.1 with
        | none => (none, restored.2.setErrno restoreErrno)
        | some fd => (none, (k.close fd restored.2).2.setErrno restoreErrno)

/-! ## Paths -/

/-- The loop of `tc_netbsd_getcwd_talloc`, for so many sizes that are left. -/
def getcwdFrom : (left size : Nat) → State ν σ → Option PathText × State ν σ
  | 0, _, s => (none, s.setErrno .erange)
  | left + 1, size, s =>
      let room := k.alloc s
      if !room.1 then (none, room.2.setErrno .enomem)
      else
        let got := k.getcwdCall size room.2
        match got.1 with
        | some cwd => (some cwd, got.2)
        | none => if got.2.errno ≠ .erange then (none, got.2) else getcwdFrom left (size * 2) got.2

/-- `tc_netbsd_getcwd_talloc`: the sizes from 256 to 65536. -/
def getcwdTalloc (s : State ν σ) : Option PathText × State ν σ := k.getcwdFrom 9 256 s

/-- The path of a name in a directory. -/
def joined (cwd baseName : PathText) : PathText := if cwd = ['/'] then '/' :: baseName else cwd ++ '/' :: baseName

/-- The text, unless there is no room for it. -/
def allocPath (path : PathText) (s : State ν σ) : Option PathText × State ν σ :=
  let room := k.alloc s
  if room.1 then (some path, room.2) else (none, room.2.setErrno .enomem)

/-- `tc_netbsd_at_path_from_fd` -/
def atPathFromFd (dirfsp : Option DirFd) (baseName : Option PathText) (s : State ν σ) :
    Option PathText × State ν σ :=
  match baseName with
  | none => (none, s.setErrno .einval)
  | some baseName =>
      if baseName.head? = some '/' then k.allocPath baseName s
      else
        match dirfsp with
        | none => (none, s.setErrno .einval)
        | some dirfd =>
            let prepared := k.prepareFdCwd dirfd s
            match prepared.1 with
            | none => (none, prepared.2)
            | some savedCwd =>
                let cwd := k.getcwdTalloc prepared.2
                let savedErrno := cwd.2.errno
                let restored := k.restoreCwd savedCwd savedErrno cwd.2
                if !restored.1 then (none, restored.2)
                else
                  match cwd.1 with
                  | none => (none, restored.2)
                  | some cwd => k.allocPath (joined cwd baseName) restored.2

/-- The two paths, one after the other, and the call on them. -/
def pairCompat (call : PairCall) (srcDirfsp : Option DirFd) (src : Option PathText)
    (dstDirfsp : Option DirFd) (dst : Option PathText) (s : State ν σ) : Option ρ × State ν σ :=
  let srcPath := k.atPathFromFd srcDirfsp src s
  let dstPath := k.atPathFromFd dstDirfsp dst srcPath.2
  match srcPath.1, dstPath.1 with
  | some src, some dst => k.pairCall call src dst dstPath.2
  | _, _ => (none, dstPath.2)

/-- The fallback in `vfswrap_renameat` -/
def renameatCompat (srcDirfsp : Option DirFd) (src : Option PathText) (dstDirfsp : Option DirFd)
    (dst : Option PathText) (flags : BitVec 32) (s : State ν σ) : Option ρ × State ν σ :=
  if flags ≠ 0 then (none, s.setErrno .einval) else k.pairCompat .rename srcDirfsp src dstDirfsp dst s

/-- The fallback in `vfswrap_linkat` -/
def linkatCompat (srcDirfsp : Option DirFd) (src : Option PathText) (dstDirfsp : Option DirFd)
    (dst : Option PathText) (flags : BitVec 32) (s : State ν σ) : Option ρ × State ν σ :=
  if flags ≠ 0 then (none, s.setErrno .enosys) else k.pairCompat .link srcDirfsp src dstDirfsp dst s

end Kernel

end TimeCapsule.Vfs
