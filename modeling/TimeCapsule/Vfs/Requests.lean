import TimeCapsule.Vfs.Opened
import TimeCapsule.Vfs.Paths

/-!
# All operations

Every fallback cleans up behind itself on every exit, refuses the flags it does not have before it does
anything, and does otherwise what the `*at` call does, as long as its own steps succeed.
-/

namespace TimeCapsule.Vfs

open Lib State

inductive Request where
  | openat (dirfd : DirFd) (path : PathText) (isDirectory : Bool) (flags : BitVec 32) (mode : Nat)
  | mkdirat (dirfd : DirFd) (path : PathText) (mode : Nat)
  | fstatat (dirfd : DirFd) (path : PathText) (flags : BitVec 32)
  | unlinkat (dirfd : DirFd) (path : PathText) (flags : BitVec 32)
  | symlinkat (target : PathText) (dirfd : DirFd) (path : PathText)
  | readlinkat (dirfd : DirFd) (path : PathText) (bufsiz : Nat)
  | mknodat (dirfd : DirFd) (path : PathText) (mode dev : Nat)
  | renameat (srcDirfd : DirFd) (src : PathText) (dstDirfd : DirFd) (dst : PathText) (flags : BitVec 32)
  | linkat (srcDirfd : DirFd) (src : PathText) (dstDirfd : DirFd) (dst : PathText) (flags : BitVec 32)

inductive Reply (ρ : Type) where
  | descriptor (fd : Nat)
  | data (data : ρ)

variable {ν σ ρ : Type}

/-- A call that returns no descriptor. -/
def plain (call : Option ρ × State ν σ) : Option (Reply ρ) × State ν σ := (call.1.map .data, call.2)

def withDescriptor (call : Option Nat × State ν σ) : Option (Reply ρ) × State ν σ :=
  (call.1.map .descriptor, call.2)

def Reply.fd : Option (Reply ρ) → Option Nat
  | some (.descriptor fd) => some fd
  | _ => none

namespace Kernel

variable (k : Kernel ν σ ρ) (h : Headers)

/-- The fallback for a request. -/
def compat (request : Request) (s : State ν σ) : Option (Reply ρ) × State ν σ :=
  match request with
  | .openat dirfd path isDirectory flags mode =>
      withDescriptor (k.openatCompat h (some dirfd) (some path) isDirectory flags mode s)
  | .mkdirat dirfd path mode => plain (k.mkdiratCompat (some dirfd) (some path) mode s)
  | .fstatat dirfd path flags => plain (k.fstatatCompat h (some dirfd) (some path) flags s)
  | .unlinkat dirfd path flags => plain (k.unlinkatCompat h (some dirfd) (some path) flags s)
  | .symlinkat target dirfd path => plain (k.symlinkatCompat (some target) (some dirfd) (some path) s)
  | .readlinkat dirfd path bufsiz => plain (k.readlinkatCompat (some dirfd) (some path) bufsiz s)
  | .mknodat dirfd path mode dev => plain (k.mknodatCompat (some dirfd) (some path) mode dev s)
  | .renameat srcDirfd src dstDirfd dst flags =>
      plain (k.renameatCompat (some srcDirfd) (some src) (some dstDirfd) (some dst) flags s)
  | .linkat srcDirfd src dstDirfd dst flags =>
      plain (k.linkatCompat (some srcDirfd) (some src) (some dstDirfd) (some dst) flags s)

/-- The `*at` call of a request. -/
def atRequest (request : Request) (s : State ν σ) : Option (Reply ρ) × State ν σ :=
  match request with
  | .openat dirfd path isDirectory flags mode => withDescriptor (k.atOpen h dirfd path isDirectory flags mode s)
  | .mkdirat dirfd path mode => plain (k.atCall (.mkdir mode) dirfd path s)
  | .fstatat dirfd path flags =>
      plain (k.atCall (if flags &&& h.atSymlinkNofollow != 0 then .lstat else .stat) dirfd path s)
  | .unlinkat dirfd path flags =>
      plain (k.atCall (if flags &&& h.atRemovedir != 0 then .rmdir else .unlink) dirfd path s)
  | .symlinkat target dirfd path => plain (k.atCall (.symlink target) dirfd path s)
  | .readlinkat dirfd path bufsiz => plain (k.atCall (.readlink bufsiz) dirfd path s)
  | .mknodat dirfd path mode dev => plain (k.atCall (.mknod mode dev) dirfd path s)
  | .renameat srcDirfd src dstDirfd dst _ => plain (k.atPairCall .rename srcDirfd src dstDirfd dst s)
  | .linkat srcDirfd src dstDirfd dst _ => plain (k.atPairCall .link srcDirfd src dstDirfd dst s)

end Kernel

/-- The error for flags that a fallback does not have. -/
def Request.refused (h : Headers) : Request → Option Errno
  | .fstatat _ _ flags => if flags &&& ~~~h.atSymlinkNofollow != 0 then some .enosys else none
  | .unlinkat _ _ flags => if flags &&& ~~~h.atRemovedir != 0 then some .enosys else none
  | .renameat _ _ _ _ flags => if flags ≠ 0 then some .einval else none
  | .linkat _ _ _ _ flags => if flags ≠ 0 then some .enosys else none
  | _ => none

/-- The handles are open, and the paths for `rename` and `link` are ones that the kernel takes. -/
def Request.Supported (k : Kernel ν σ ρ) (s : State ν σ) : Request → Prop
  | .openat dirfd path _ _ _ => Open s (handleOf dirfd path)
  | .mkdirat dirfd path _ => Open s (handleOf dirfd path)
  | .fstatat dirfd path _ => Open s (handleOf dirfd path)
  | .unlinkat dirfd path _ => Open s (handleOf dirfd path)
  | .symlinkat _ dirfd path => Open s (handleOf dirfd path)
  | .readlinkat dirfd path _ => Open s (handleOf dirfd path)
  | .mknodat dirfd path _ _ => Open s (handleOf dirfd path)
  | .renameat srcDirfd src dstDirfd dst _ => PairSupported k s .rename srcDirfd src dstDirfd dst
  | .linkat srcDirfd src dstDirfd dst _ => PairSupported k s .link srcDirfd src dstDirfd dst

/-- Nothing has been done yet. -/
def State.fresh (s : State ν σ) : State ν σ := { s with trace := [] }

/-- What a fallback keeps to. -/
structure Faithful (k : Kernel ν σ ρ) (h : Headers) (request : Request) (s : State ν σ) : Prop where
  refused : ∀ errno, request.refused h = some errno → k.compat h request s = (none, s.setErrno errno)
  tidy : Tidy s (Reply.fd (k.compat h request s).1) (k.compat h request s).1.isNone (k.compat h request s).2
  same : request.refused h = none → request.Supported k s → (k.compat h request s).2.Smooth →
    Same (k.compat h request s) (k.atRequest h request s)

variable {k : Kernel ν σ ρ} {h : Headers} {request : Request} {s : State ν σ}

theorem fd_plain (call : Option ρ × State ν σ) : Reply.fd (plain call).1 = none := by
  rw [plain]
  cases call.1 <;> rfl

theorem Same.plain {call call' : Option ρ × State ν σ} (hsame : Same call call') :
    Same (plain call) (plain call') :=
  ⟨congrArg (Option.map Reply.data) hsame.value, hsame.fs, hsame.cwd, hsame.files,
    fun hnone => hsame.errno (Option.map_eq_none_iff.mp hnone)⟩

theorem fd_withDescriptor (call : Option Nat × State ν σ) :
    Reply.fd (withDescriptor (ρ := ρ) call).1 = call.1 := by
  rw [withDescriptor]
  cases call.1 <;> rfl

theorem Same.withDescriptor {call call' : Option Nat × State ν σ} (hsame : Same call call') :
    Same (withDescriptor (ρ := ρ) call) (withDescriptor call') :=
  ⟨congrArg (Option.map Reply.descriptor) hsame.value, hsame.fs, hsame.cwd, hsame.files,
    fun hnone => hsame.errno (Option.map_eq_none_iff.mp hnone)⟩

/-- A request on one path, or on two, that no flag refuses. -/
theorem faithful_plain {call call' : Option ρ × State ν σ} (hcompat : k.compat h request s = plain call)
    (hat : k.atRequest h request s = plain call') (hrefused : request.refused h = none)
    (hspec : Tidy s none call.1.isNone call.2 ∧
      (call.2.Smooth → request.Supported k s → Same call call')) : Faithful k h request s := by
  refine ⟨fun errno herrno => ?_, ?_, fun _ hsupported hsmooth => ?_⟩
  · rw [hrefused] at herrno
    exact nomatch herrno
  · rw [hcompat, fd_plain, plain, Option.isNone_map]
    exact hspec.1
  · rw [hcompat] at hsmooth ⊢
    rw [hat]
    exact (hspec.2 hsmooth hsupported).plain

theorem faithful_refused {errno : Errno} (hrefused : request.refused h = some errno)
    (hcompat : k.compat h request s = (none, s.setErrno errno)) : Faithful k h request s := by
  refine ⟨fun errno' herrno => ?_, ?_, fun hnone => ?_⟩
  · rw [hcompat, Option.some.inj (hrefused.symm.trans herrno)]
  · rw [hcompat]
    exact (still_setErrno errno).tidy _
  · rw [hrefused] at hnone
    exact nomatch hnone

/-- Each fallback, for every kernel and every failure of a call. -/
theorem compat_faithful (k : Kernel ν σ ρ) (h : Headers) (request : Request) (s : State ν σ) :
    Faithful k h request s.fresh := by
  cases request with
  | openat dirfd path isDirectory flags mode =>
    obtain ⟨htidy, hsame⟩ := openatCompat_spec (k := k) h dirfd path isDirectory flags mode s.fresh
    refine ⟨nofun, ?_, fun _ hsupported hsmooth => ?_⟩
    · rw [Kernel.compat, fd_withDescriptor, withDescriptor, Option.isNone_map]
      exact htidy
    · exact (hsame hsmooth hsupported).withDescriptor
  | mkdirat dirfd path mode => exact faithful_plain rfl rfl rfl (atCompat_spec _ _ _ _)
  | fstatat dirfd path flags =>
    by_cases hflags : (flags &&& ~~~h.atSymlinkNofollow != 0) = true
    · refine faithful_refused (if_pos hflags) ?_
      rw [Kernel.compat, Kernel.fstatatCompat, if_pos hflags]
      rfl
    · refine faithful_plain ?_ rfl (if_neg hflags) (atCompat_spec _ _ _ _)
      rw [Kernel.compat, Kernel.fstatatCompat, if_neg hflags]
  | unlinkat dirfd path flags =>
    by_cases hflags : (flags &&& ~~~h.atRemovedir != 0) = true
    · refine faithful_refused (if_pos hflags) ?_
      rw [Kernel.compat, Kernel.unlinkatCompat, if_pos hflags]
      rfl
    · refine faithful_plain ?_ rfl (if_neg hflags) (atCompat_spec _ _ _ _)
      rw [Kernel.compat, Kernel.unlinkatCompat, if_neg hflags]
  | symlinkat target dirfd path => exact faithful_plain rfl rfl rfl (atCompat_spec _ _ _ _)
  | readlinkat dirfd path bufsiz => exact faithful_plain rfl rfl rfl (atCompat_spec _ _ _ _)
  | mknodat dirfd path mode dev => exact faithful_plain rfl rfl rfl (atCompat_spec _ _ _ _)
  | renameat srcDirfd src dstDirfd dst flags =>
    by_cases hflags : flags ≠ 0
    · refine faithful_refused (if_pos hflags) ?_
      rw [Kernel.compat, Kernel.renameatCompat, if_pos hflags]
      rfl
    · refine faithful_plain ?_ rfl (if_neg hflags) (pairCompat_spec _ _ _ _ _ _)
      rw [Kernel.compat, Kernel.renameatCompat, if_neg hflags]
  | linkat srcDirfd src dstDirfd dst flags =>
    by_cases hflags : flags ≠ 0
    · refine faithful_refused (if_pos hflags) ?_
      rw [Kernel.compat, Kernel.linkatCompat, if_pos hflags]
      rfl
    · refine faithful_plain ?_ rfl (if_neg hflags) (pairCompat_spec _ _ _ _ _ _)
      rw [Kernel.compat, Kernel.linkatCompat, if_neg hflags]

/-! ## A deep directory -/

/-- A name as long as a name can be. -/
def longName : PathText := List.replicate 255 'a'

/-- Directories `0` to `4`, one in the other, and a file in the last. -/
def deepTree : FileTree Nat where
  root := 0
  isDir node := decide (node ≤ 4)
  searchable _ := true
  entry dir name :=
    if decide (dir < 4) && name == longName then some (dir + 1)
    else if dir == 4 && name == ['f'] then some 5
    else none
  link _ := none

def deepPath : Nat → PathText
  | 0 => []
  | node + 1 => deepPath node ++ '/' :: longName

def deepCwd (node : Nat) : Except Errno PathText :=
  if node = 0 then .ok ['/'] else if node ≤ 4 then .ok (deepPath node) else .error .enotdir

theorem components_deepPath (node : Nat) : components (deepPath node) = List.replicate node longName := by
  induction node with
  | zero => rfl
  | succ node ih =>
    have hname : components longName = [longName] := by
      decide +kernel
    rw [deepPath, components_append_slash, ih, hname, List.replicate_succ']

example : (deepPath 2).length = 2 * (longName.length + 1) := by decide +kernel

theorem leads_deepTree {dir count : Nat} (h : dir + count ≤ 4) :
    deepTree.Leads netbsdLimits dir (List.replicate count longName) (dir + count) := by
  induction count generalizing dir with
  | zero => rfl
  | succ count ih =>
    have hentry : deepTree.entry dir longName = some (dir + 1) := by
      have hdir : dir < 4 := by omega
      simp [deepTree, hdir]
    have hrest : deepTree.Leads netbsdLimits (dir + 1) (List.replicate count longName) (dir + 1 + count) :=
      ih (by omega)
    rw [show dir + 1 + count = dir + (count + 1) by omega] at hrest
    exact ⟨decide_eq_true (by omega), by decide +kernel, dir + 1, hentry, rfl, hrest⟩

theorem deepCwd_absolute {dir : Nat} {path : PathText} (h : deepCwd dir = .ok path) :
    path.head? = some '/' := by
  rw [deepCwd] at h
  split_ifs at h with hroot hdeep
  · rw [← Except.ok.inj h]
    rfl
  · rw [← Except.ok.inj h]
    obtain ⟨node, rfl⟩ := Nat.exists_eq_succ_of_ne_zero hroot
    clear h hroot hdeep
    induction node with
    | zero => rfl
    | succ node ih => rw [deepPath, List.head?_append, ih, Option.some_or]

theorem deepCwd_leads {dir : Nat} {path : PathText} (h : deepCwd dir = .ok path) :
    deepTree.Leads netbsdLimits deepTree.root (components path) dir := by
  rw [deepCwd] at h
  split_ifs at h with hroot hdeep
  · rw [← Except.ok.inj h, hroot]
    exact rfl
  · rw [← Except.ok.inj h, components_deepPath]
    have hleads := @leads_deepTree 0 dir (by omega)
    rwa [Nat.zero_add] at hleads

/-- A kernel with these directories, in which every operation works on what it finds. -/
def deepKernel : Kernel Nat Unit Unit where
  tree _ := deepTree
  readable _ _ := true
  act _ _ fs := (.ok (), fs)
  actPair _ _ _ fs := (.ok (), fs)
  openFile _ _ found fs := (found.node.elim (.error .enoent) .ok, fs)
  openFollows _ := true
  linkFollows := true
  getcwd _ := deepCwd
  getcwd_absolute _ _ _ := deepCwd_absolute
  getcwd_leads _ _ _ := deepCwd_leads
  maxFiles := 64
  fault _ := none
  operationFault := none

/-- The server in the root, with a handle for the last directory. -/
def deepState : State Nat Unit where
  fs := ()
  cwd := 0
  files n := if n = 3 then some ⟨4, false⟩ else none
  errno := .other 0
  trace := []

/-- The flags of NetBSD, which has no `O_PATH`. -/
def netbsdHeaders : Headers := ⟨0x00800000, 0x00200000, 0x00400000, 0, 0x200, 0x800⟩

theorem mkdirat_deep : Same (deepKernel.compat netbsdHeaders (.mkdirat (.fd 3) ['d'] 493) deepState.fresh)
    (deepKernel.atRequest netbsdHeaders (.mkdirat (.fd 3) ['d'] 493) deepState.fresh) := by
  refine (compat_faithful deepKernel netbsdHeaders (.mkdirat (.fd 3) ['d'] 493) deepState).same rfl ?_ ?_
  · intro n hn
    obtain rfl : 3 = n := DirFd.fd.inj hn
    exact nofun
  · have htrace : (deepKernel.compat netbsdHeaders (.mkdirat (.fd 3) ['d'] 493) deepState.fresh).2.trace.all
        (fun event => !event.failed) = true := by
      decide +kernel
    intro event he
    simpa using List.all_eq_true.mp htrace event he

/-- `rename` with the absolute path of a file that only a handle can reach. -/
theorem renameat_deep :
    ¬ (Open deepState.fresh (.fd 3) →
      (deepKernel.compat netbsdHeaders (.renameat (.fd 3) ['f'] (.fd 3) ['g'] 0) deepState.fresh).2.Smooth →
      Same (deepKernel.compat netbsdHeaders (.renameat (.fd 3) ['f'] (.fd 3) ['g'] 0) deepState.fresh)
        (deepKernel.atRequest netbsdHeaders (.renameat (.fd 3) ['f'] (.fd 3) ['g'] 0) deepState.fresh)) := by
  intro hclaim
  have hopen : Open deepState.fresh (.fd 3) := by
    intro n hn
    obtain rfl : 3 = n := DirFd.fd.inj hn
    exact nofun
  have htrace : (deepKernel.compat netbsdHeaders (.renameat (.fd 3) ['f'] (.fd 3) ['g'] 0)
      deepState.fresh).2.trace.all (fun event => !event.failed) = true := by
    decide +kernel
  have hsmooth : (deepKernel.compat netbsdHeaders (.renameat (.fd 3) ['f'] (.fd 3) ['g'] 0)
      deepState.fresh).2.Smooth := by
    intro event he
    simpa using List.all_eq_true.mp htrace event he
  have hcompat : (deepKernel.compat netbsdHeaders (.renameat (.fd 3) ['f'] (.fd 3) ['g'] 0)
      deepState.fresh).1.isSome = false := by
    decide +kernel
  have hat : (deepKernel.atRequest netbsdHeaders (.renameat (.fd 3) ['f'] (.fd 3) ['g'] 0)
      deepState.fresh).1.isSome = true := by
    decide +kernel
  rw [(hclaim hopen hsmooth).value, hat] at hcompat
  exact nomatch hcompat

end TimeCapsule.Vfs
