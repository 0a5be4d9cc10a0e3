import TimeCapsule.Vfs.Refines

/-!
# The fallbacks on two paths

`rename` and `link` get an absolute path for each name, from the path that the kernel gives for the handle's
directory.  That is the same file only for a path that is short enough, through directories that can be
searched.
-/

namespace TimeCapsule.Vfs

open Lib State

variable {ν σ ρ : Type} {k : Kernel ν σ ρ} {s s' : State ν σ} {dirfd : DirFd} {name path : PathText}

/-! ## The path of the directory -/

theorem alloc_cases (k : Kernel ν σ ρ) (s : State ν σ) :
    k.alloc s = (false, s.fail .alloc .enomem) ∨ k.alloc s = (true, s.succeed .alloc) := by
  rw [Kernel.alloc]
  cases k.fault s.trace.length with
  | some error => exact Or.inl rfl
  | none => exact Or.inr rfl

theorem getcwdCall_cases (k : Kernel ν σ ρ) (size : Nat) (s : State ν σ) :
    (∃ error, k.getcwdCall size s = (none, s.fail (.getcwd size) error)) ∨
    ∃ path, k.getcwd s.fs s.cwd = .ok path ∧ k.getcwdCall size s = (some path, s.succeed (.getcwd size)) := by
  rw [Kernel.getcwdCall]
  cases k.fault s.trace.length with
  | some error => exact Or.inl ⟨error, rfl⟩
  | none =>
    cases hpath : k.getcwd s.fs s.cwd with
    | error error => exact Or.inl ⟨error, rfl⟩
    | ok path =>
      by_cases hroom : path.length < size
      · exact Or.inr ⟨path, rfl, by simp only [if_pos hroom]⟩
      · exact Or.inl ⟨.erange, by simp only [if_neg hroom]⟩

/-- One size: a failure, the path, or a buffer that is too small. -/
theorem getcwdFrom_step (k : Kernel ν σ ρ) (left size : Nat) (s : State ν σ) :
    (∃ s', k.getcwdFrom (left + 1) size s = (none, s') ∧ s.Still s' ∧ ¬ s'.Smooth) ∨
    (∃ path s', k.getcwdFrom (left + 1) size s = (some path, s') ∧ s.Still s' ∧
      k.getcwd s.fs s.cwd = .ok path) ∨
    ∃ s', k.getcwdFrom (left + 1) size s = k.getcwdFrom left (size * 2) s' ∧ s.Still s' ∧
      ⟨.getcwd size, some .erange⟩ ∈ s'.trace := by
  rw [Kernel.getcwdFrom]
  rcases alloc_cases k s with hroom | hroom
  · rw [hroom]
    exact Or.inl ⟨_, rfl, (still_fail .alloc .enomem).trans (still_setErrno _),
      not_smooth_of_mem (mem_fail .alloc .enomem) rfl⟩
  · rw [hroom]
    have hstill : s.Still (s.succeed .alloc) := still_succeed _
    rcases getcwdCall_cases k size (s.succeed .alloc) with ⟨error, hgot⟩ | ⟨path, hpath, hgot⟩
    · simp only [hgot, Bool.not_true, Bool.false_eq_true, if_false]
      by_cases herror : error = .erange
      · subst herror
        refine Or.inr (Or.inr ⟨(s.succeed .alloc).fail (.getcwd size) .erange, if_neg (fun h => h rfl),
          hstill.trans (still_fail _ _), mem_fail _ _⟩)
      · refine Or.inl ⟨(s.succeed .alloc).fail (.getcwd size) error, if_pos herror,
          hstill.trans (still_fail _ _), not_smooth_of_mem (mem_fail _ _) ?_⟩
        simp [Event.failed, herror]
    · simp only [hgot, Bool.not_true, Bool.false_eq_true, if_false]
      exact Or.inr (Or.inl ⟨path, _, rfl, hstill.trans (still_succeed _), hpath⟩)

/-- Doubling a size so often takes it past the last one. -/
def PastLast : (left size : Nat) → Prop
  | 0, size => 131072 ≤ size
  | left + 1, size => PastLast left (size * 2)

/-- What `getcwd` gives for the directory, and nothing else is changed; without a failure the sizes are
enough. -/
structure Got (k : Kernel ν σ ρ) (s : State ν σ) (got : Option PathText × State ν σ) : Prop where
  still : s.Still got.2
  path : ∀ path, got.1 = some path → k.getcwd s.fs s.cwd = .ok path
  smooth : got.2.Smooth → ∃ path, got.1 = some path

theorem getcwdFrom_got (left size : Nat) (s : State ν σ) (hlast : PastLast (left + 1) size) :
    Got k s (k.getcwdFrom (left + 1) size s) := by
  induction left generalizing size s with
  | zero =>
    have hsize : 131072 ≤ size * 2 := hlast
    rcases getcwdFrom_step k 0 size s with ⟨s', h, hstill, hfailed⟩ | ⟨path, s', h, hstill, hpath⟩ |
      ⟨s', h, hstill, hevent⟩
    · rw [h]
      exact ⟨hstill, nofun, fun hsmooth => absurd hsmooth hfailed⟩
    · rw [h]
      exact ⟨hstill, fun _ heq => (Option.some.inj heq) ▸ hpath, fun _ => ⟨path, rfl⟩⟩
    · rw [h]
      -- The last size is not a buffer that is made larger.
      have hfailed : ¬ (s'.setErrno .erange).Smooth := by
        refine not_smooth_of_mem (s := s'.setErrno .erange) hevent ?_
        have hnot : ¬ size < 65536 := by omega
        simp [Event.failed, hnot]
      exact ⟨hstill.trans (still_setErrno _), nofun, fun hsmooth => absurd hsmooth hfailed⟩
  | succ left ih =>
    rcases getcwdFrom_step k (left + 1) size s with ⟨s', h, hstill, hfailed⟩ | ⟨path, s', h, hstill, hpath⟩ |
      ⟨s', h, hstill, -⟩
    · rw [h]
      exact ⟨hstill, nofun, fun hsmooth => absurd hsmooth hfailed⟩
    · rw [h]
      exact ⟨hstill, fun _ heq => (Option.some.inj heq) ▸ hpath, fun _ => ⟨path, rfl⟩⟩
    · rw [h]
      have hgot := ih (size * 2) s' hlast
      refine ⟨hstill.trans hgot.still, fun path hpath => ?_, hgot.smooth⟩
      rw [← hstill.fs, ← hstill.cwd]
      exact hgot.path path hpath

theorem getcwdTalloc_got (s : State ν σ) : Got k s (k.getcwdTalloc s) :=
  getcwdFrom_got 8 256 s (Nat.le_refl 131072)

/-! ## The path of a name -/

theorem allocPath_cases (k : Kernel ν σ ρ) (path : PathText) (s : State ν σ) :
    (∃ s', k.allocPath path s = (none, s') ∧ s.Still s' ∧ ¬ s'.Smooth) ∨
    ∃ s', k.allocPath path s = (some path, s') ∧ s.Still s' := by
  rw [Kernel.allocPath]
  rcases alloc_cases k s with hroom | hroom
  · rw [hroom]
    exact Or.inl ⟨_, rfl, (still_fail .alloc .enomem).trans (still_setErrno _),
      not_smooth_of_mem (mem_fail .alloc .enomem) rfl⟩
  · rw [hroom]
    exact Or.inr ⟨_, rfl, still_succeed _⟩

/-- The path that a name becomes. -/
def Names (k : Kernel ν σ ρ) (s : State ν σ) (dirfd : DirFd) (name path : PathText) : Prop :=
  (name.head? = some '/' ∧ path = name) ∨
  (name.head? ≠ some '/' ∧ ∃ dir cwd, k.dirOf dirfd s = .ok dir ∧ k.getcwd s.fs dir = .ok cwd ∧
    path = Kernel.joined cwd name)

/-- `tc_netbsd_at_path_from_fd` comes back to its directory with a path, or reports an error. -/
structure Built (k : Kernel ν σ ρ) (s : State ν σ) (dirfd : DirFd) (name : PathText)
    (built : Option PathText × State ν σ) : Prop where
  fs : built.2.fs = s.fs
  files : built.2.files = s.files
  later : s.Later built.2
  cwd : built.2.cwd = s.cwd ∨ built.1 = none ∧ built.2.ReturnFailed
  smooth : built.2.Smooth → Open s (handleOf dirfd name) → handleOf dirfd name ≠ .invalid →
    built.2.cwd = s.cwd ∧ ∃ path, built.1 = some path ∧ Names k s (handleOf dirfd name) name path

theorem built_failed (h : s.Still s') (hwhy : ¬ s'.Smooth ∨ handleOf dirfd name = .invalid) :
    Built k s dirfd name (none, s') :=
  ⟨h.fs, h.files, h.later, Or.inl h.cwd, fun hsmooth _ hvalid =>
    hwhy.elim (fun hfailed => absurd hsmooth hfailed) fun hinvalid => absurd hinvalid hvalid⟩

theorem atPathFromFd_built (dirfd : DirFd) (name : PathText) (s : State ν σ) :
    Built k s dirfd name (k.atPathFromFd (some dirfd) (some name) s) := by
  rw [Kernel.atPathFromFd]
  by_cases habsolute : name.head? = some '/'
  · simp only [if_pos habsolute]
    rcases allocPath_cases k name s with ⟨s', h, hstill, hfailed⟩ | ⟨s', h, hstill⟩
    · rw [h]
      exact built_failed hstill (Or.inl hfailed)
    · rw [h]
      exact ⟨hstill.fs, hstill.files, hstill.later, Or.inl hstill.cwd,
        fun _ _ _ => ⟨hstill.cwd, name, rfl, Or.inl ⟨habsolute, rfl⟩⟩⟩
  · have hhandle : handleOf dirfd name = dirfd := if_neg habsolute
    simp only [if_neg habsolute]
    rcases prepareFdCwd_cases k dirfd s with ⟨hinvalid, h⟩ | ⟨s', h, hstill, hfailed⟩ | ⟨saved, s', h, haway⟩
    · simp only [h]
      exact built_failed (still_setErrno _) (Or.inr (hhandle.trans hinvalid))
    · simp only [h]
      exact built_failed hstill (Or.inl hfailed)
    · simp only [h]
      have hgot := getcwdTalloc_got (k := k) s'
      have hreturned := restoreCwd_returned haway hgot.still.cwd
        (fun fd _ => congrFun hgot.still.files fd) hgot.still.later (k.getcwdTalloc s').2.errno
      have hfiles := hreturned.files_eq haway hgot.still.files
      have hfs := (hreturned.fs.trans hgot.still.fs).trans haway.fs
      have hlater := (haway.later.trans hgot.still.later).trans hreturned.later
      cases hrestored : (k.restoreCwd saved (k.getcwdTalloc s').2.errno (k.getcwdTalloc s').2).1 with
      | false =>
        simp only [Bool.not_false, if_true]
        obtain ⟨hfailed, hback⟩ := hreturned.failure hrestored
        exact ⟨hfs, hfiles, hlater, hback.imp id fun hreturn => ⟨rfl, hreturn⟩,
          fun hsmooth => absurd hsmooth hfailed⟩
      | true =>
        obtain ⟨hback, -⟩ := hreturned.success hrestored
        have hstill : s.Still (k.restoreCwd saved (k.getcwdTalloc s').2.errno (k.getcwdTalloc s').2).2 :=
          ⟨hfs, hback, hfiles, hlater⟩
        simp only [Bool.not_true, Bool.false_eq_true, if_false]
        cases hcwd : (k.getcwdTalloc s').1 with
        | none =>
          refine built_failed hstill (Or.inl fun hsmooth => ?_)
          obtain ⟨path, hpath⟩ := hgot.smooth (Smooth.of_later hreturned.later hsmooth)
          rw [hcwd] at hpath
          exact nomatch hpath
        | some cwd =>
          dsimp only
          rcases allocPath_cases k (Kernel.joined cwd name)
            (k.restoreCwd saved (k.getcwdTalloc s').2.errno (k.getcwdTalloc s').2).2 with
            ⟨t, halloc, ht, hfailed⟩ | ⟨t, halloc, ht⟩
          · rw [halloc]
            exact built_failed (hstill.trans ht) (Or.inl hfailed)
          · rw [halloc]
            have htotal := hstill.trans ht
            refine ⟨htotal.fs, htotal.files, htotal.later, Or.inl htotal.cwd, fun _ hopen _ =>
              ⟨htotal.cwd, _, rfl, Or.inr ⟨habsolute, s'.cwd, cwd, ?_, ?_, rfl⟩⟩⟩
            · rw [hhandle]
              exact haway.dirOf (hhandle ▸ hopen)
            · rw [← haway.fs]
              exact hgot.path cwd hcwd

/-! ## Two paths -/

/-- The path of a name in the handle's directory is short enough, and its directories can be searched. -/
structure Reachable (k : Kernel ν σ ρ) (s : State ν σ) (dirfd : DirFd) (name : PathText) : Prop where
  nonempty : name ≠ []
  short : ∀ dir cwd, k.dirOf dirfd s = .ok dir → k.getcwd s.fs dir = .ok cwd →
    (Kernel.joined cwd name).length < netbsdLimits.pathMax
  searchable : ∀ dir cwd, k.dirOf dirfd s = .ok dir → k.getcwd s.fs dir = .ok cwd →
    (k.tree s.fs).SearchableAlong (k.tree s.fs).root (components cwd)

theorem namei_joined {cwd : PathText} {dir start : ν} {fs : σ} (follow : Bool)
    (hcwd : k.getcwd fs dir = .ok cwd) (hne : name ≠ []) (hhead : name.head? ≠ some '/')
    (hshort : (Kernel.joined cwd name).length < netbsdLimits.pathMax)
    (hsearch : (k.tree fs).SearchableAlong (k.tree fs).root (components cwd)) :
    (k.tree fs).namei netbsdLimits follow start (Kernel.joined cwd name) =
      (k.tree fs).namei netbsdLimits follow dir name := by
  have hleads := k.getcwd_leads fs dir cwd hcwd
  by_cases hroot : cwd = ['/']
  · rw [Kernel.joined, if_pos hroot] at hshort ⊢
    have hnone : components cwd = components [] := by
      rw [hroot]
      rfl
    rw [hnone] at hleads hsearch
    exact @namei_append_slash _ _ _ _ start follow [] name (Or.inl rfl) hleads hsearch hne hhead hshort
  · rw [Kernel.joined, if_neg hroot] at hshort ⊢
    exact namei_append_slash (Or.inr (k.getcwd_absolute fs dir cwd hcwd)) hleads hsearch hne hhead hshort

theorem lookup_names {start : ν} (follow : Bool) (hnames : Names k s (handleOf dirfd name) name path)
    (hstart : k.dirOf (handleOf dirfd name) s = .ok start)
    (hreach : name.head? = some '/' ∨ Reachable k s (handleOf dirfd name) name) :
    k.lookup follow s.cwd path s.fs = k.lookup follow start name s.fs := by
  rcases hnames with ⟨habsolute, rfl⟩ | ⟨hrelative, dir, cwd, hdir, hcwd, rfl⟩
  · rw [handleOf, if_pos habsolute] at hstart
    rw [Except.ok.inj hstart]
  · obtain rfl : start = dir := Except.ok.inj (hstart.symm.trans hdir)
    rcases hreach with habsolute | hreach
    · exact absurd habsolute hrelative
    · rw [Kernel.lookup, Kernel.lookup, namei_joined follow hcwd hreach.nonempty hrelative
        (hreach.short _ _ hdir hcwd) (hreach.searchable _ _ hdir hcwd)]

/-- Following makes no difference for a path that does not end in a link. -/
theorem lookup_follow {start : ν} {fs : σ}
    (h : ∀ found, k.lookup false start name fs = .ok found → found.Plain (k.tree fs)) :
    k.lookup true start name fs = k.lookup false start name fs := by
  rw [Kernel.lookup, Kernel.lookup, namei_follow]
  intro found hfound
  exact h found (by rw [Kernel.lookup, hfound])

/-- What a fallback on two paths is for: open handles, and paths that the kernel takes. -/
structure PairSupported (k : Kernel ν σ ρ) (s : State ν σ) (call : PairCall) (srcDirfd : DirFd)
    (src : PathText) (dstDirfd : DirFd) (dst : PathText) : Prop where
  srcOpen : Open s (handleOf srcDirfd src)
  srcValid : handleOf srcDirfd src ≠ .invalid
  dstOpen : Open s (handleOf dstDirfd dst)
  dstValid : handleOf dstDirfd dst ≠ .invalid
  srcReachable : src.head? = some '/' ∨ Reachable k s (handleOf srcDirfd src) src
  dstReachable : dst.head? = some '/' ∨ Reachable k s (handleOf dstDirfd dst) dst
  /-- `link` follows a link at the end of the old path on some kernels. -/
  noLink : call = .link → k.linkFollows = true → ∀ start found,
    k.dirOf (handleOf srcDirfd src) s = .ok start → k.lookup false start src s.fs = .ok found →
      found.Plain (k.tree s.fs)

theorem dirOf_congr (hfs : s'.fs = s.fs) (hcwd : s'.cwd = s.cwd) (hfiles : s'.files = s.files) (dirfd : DirFd) :
    k.dirOf dirfd s' = k.dirOf dirfd s := by
  cases dirfd with
  | atFdcwd => rw [Kernel.dirOf, Kernel.dirOf, hcwd]
  | invalid => rfl
  | fd n => rw [Kernel.dirOf, Kernel.dirOf, hfiles, hfs]

theorem Names.dirOf (h : Names k s (handleOf dirfd name) name path) :
    ∃ start, k.dirOf (handleOf dirfd name) s = .ok start := by
  rcases h with ⟨habsolute, -⟩ | ⟨-, dir, -, hdir, -⟩
  · rw [handleOf, if_pos habsolute]
    exact ⟨s.cwd, rfl⟩
  · exact ⟨dir, hdir⟩

theorem performPair_names {call : PairCall} {srcDirfd dstDirfd : DirFd} {src dst srcPath dstPath : PathText}
    {start start' : ν} (hsupported : PairSupported k s call srcDirfd src dstDirfd dst)
    (hsrc : Names k s (handleOf srcDirfd src) src srcPath)
    (hdst : Names k s (handleOf dstDirfd dst) dst dstPath)
    (hstart : k.dirOf (handleOf srcDirfd src) s = .ok start)
    (hstart' : k.dirOf (handleOf dstDirfd dst) s = .ok start') :
    k.performPair call (decide (call = .link) && k.linkFollows) s.cwd srcPath s.cwd dstPath s.fs =
      k.performPair call false start src start' dst s.fs := by
  have hfollow : k.lookup (decide (call = .link) && k.linkFollows) start src s.fs =
      k.lookup false start src s.fs := by
    cases hlink : decide (call = .link) && k.linkFollows with
    | false => rfl
    | true =>
      obtain ⟨hcall, hkernel⟩ := Bool.and_eq_true_iff.mp hlink
      exact lookup_follow fun found hfound =>
        hsupported.noLink (of_decide_eq_true hcall) hkernel start found hstart hfound
  rw [Kernel.performPair, Kernel.performPair, lookup_names _ hsrc hstart hsupported.srcReachable, hfollow,
    lookup_names _ hdst hstart' hsupported.dstReachable]

theorem pairCompat_spec (call : PairCall) (srcDirfd : DirFd) (src : PathText) (dstDirfd : DirFd)
    (dst : PathText) (s : State ν σ) :
    Tidy s none (k.pairCompat call (some srcDirfd) (some src) (some dstDirfd) (some dst) s).1.isNone
        (k.pairCompat call (some srcDirfd) (some src) (some dstDirfd) (some dst) s).2 ∧
      ((k.pairCompat call (some srcDirfd) (some src) (some dstDirfd) (some dst) s).2.Smooth →
        PairSupported k s call srcDirfd src dstDirfd dst →
        Same (k.pairCompat call (some srcDirfd) (some src) (some dstDirfd) (some dst) s)
          (k.atPairCall call srcDirfd src dstDirfd dst s)) := by
  have hsrc := atPathFromFd_built (k := k) srcDirfd src s
  have hdst := atPathFromFd_built (k := k) dstDirfd dst (k.atPathFromFd (some srcDirfd) (some src) s).2
  rw [Kernel.pairCompat]
  generalize k.atPathFromFd (some srcDirfd) (some src) s = built at hsrc hdst ⊢
  generalize k.atPathFromFd (some dstDirfd) (some dst) built.2 = built' at hdst ⊢
  have hfiles : built'.2.files = s.files := hdst.files.trans hsrc.files
  have hfs : built'.2.fs = s.fs := hdst.fs.trans hsrc.fs
  have hback : built'.2.cwd = s.cwd ∨ (built.1 = none ∨ built'.1 = none) ∧ built'.2.ReturnFailed := by
    rcases hdst.cwd with hcwd | ⟨hnone, hreturn⟩
    · rcases hsrc.cwd with hcwd' | ⟨hnone, hreturn⟩
      · exact Or.inl (hcwd.trans hcwd')
      · exact Or.inr ⟨Or.inl hnone, hreturn.mono hdst.later⟩
    · exact Or.inr ⟨Or.inr hnone, hreturn⟩
  constructor
  · cases hsrcPath : built.1 with
    | none => exact ⟨fun n _ => congrFun hfiles n, nofun, hback.imp id fun h => ⟨rfl, h.2⟩⟩
    | some srcPath =>
      cases hdstPath : built'.1 with
      | none => exact ⟨fun n _ => congrFun hfiles n, nofun, hback.imp id fun h => ⟨rfl, h.2⟩⟩
      | some dstPath =>
        rw [hsrcPath, hdstPath] at hback
        have hcwd : built'.2.cwd = s.cwd := hback.elim id fun h => h.1.elim nofun nofun
        refine ⟨fun n _ => ?_, nofun, Or.inl ?_⟩
        · exact (congrFun (after_files _) n).trans (congrFun hfiles n)
        · exact (after_cwd _).trans hcwd
  · intro hsmooth hsupported
    have hlater : built'.2.Smooth := by
      cases hsrcPath : built.1 with
      | none =>
        rw [hsrcPath] at hsmooth
        exact hsmooth
      | some srcPath =>
        cases hdstPath : built'.1 with
        | none =>
          rw [hsrcPath, hdstPath] at hsmooth
          exact hsmooth
        | some dstPath =>
          rw [hsrcPath, hdstPath] at hsmooth
          exact Smooth.of_later (later_after _) hsmooth
    obtain ⟨hcwd, srcPath, hsrcPath, hsrcNames⟩ := hsrc.smooth (Smooth.of_later hdst.later hlater)
      hsupported.srcOpen hsupported.srcValid
    have hopen : Open built.2 (handleOf dstDirfd dst) := fun n hn => by
      rw [hsrc.files]
      exact hsupported.dstOpen n hn
    obtain ⟨hcwd', dstPath, hdstPath, hdstNames⟩ := hdst.smooth hlater hopen hsupported.dstValid
    have hdstNames : Names k s (handleOf dstDirfd dst) dst dstPath := by
      rwa [Names, dirOf_congr hsrc.fs hcwd hsrc.files, hsrc.fs] at hdstNames
    obtain ⟨start, hstart⟩ := hsrcNames.dirOf
    obtain ⟨start', hstart'⟩ := hdstNames.dirOf
    have hperform := performPair_names hsupported hsrcNames hdstNames hstart hstart'
    rw [Kernel.atPairCall, hstart, hsrcPath, hdstPath]
    simp only [hstart', Kernel.pairCall, hfs, hcwd', hcwd, hperform]
    refine ⟨by rw [after_value, after_value], by rw [after_fs, after_fs], ?_, ?_, fun hnone => ?_⟩
    · rw [after_cwd, after_cwd, hcwd', hcwd]
    · rw [after_files, after_files, hfiles]
    · rw [after_value] at hnone
      obtain ⟨error, herror⟩ := exists_error hnone
      rw [after_errno herror, after_errno herror]

end TimeCapsule.Vfs
