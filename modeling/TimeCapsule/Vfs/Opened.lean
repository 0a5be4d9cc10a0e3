import TimeCapsule.Vfs.Refines

/-!
# The fallback for `openat`

The file is opened first and looked at afterwards: marked to be closed on `exec`, and closed again if it
should have been a directory.
-/

namespace TimeCapsule.Vfs

open Lib State

variable {ν σ ρ : Type} {k : Kernel ν σ ρ} {s s' : State ν σ} {dirfd : DirFd} {path : PathText} {fd : Nat}
  {file : OpenFile ν}

theorem fcntlGetfd_cases (k : Kernel ν σ ρ) (h : s.files fd = some file) :
    (∃ error, k.fcntlGetfd fd s = (none, s.fail .fcntlGetfd error)) ∨
      k.fcntlGetfd fd s = (some file.cloexec, s.succeed .fcntlGetfd) := by
  rw [Kernel.fcntlGetfd, h]
  cases k.fault s.trace.length with
  | some error => exact Or.inl ⟨error, rfl⟩
  | none => exact Or.inr rfl

theorem fcntlSetfd_cases (k : Kernel ν σ ρ) (h : s.files fd = some file) (cloexec : Bool) :
    (∃ error, k.fcntlSetfd fd cloexec s = (false, s.fail .fcntlSetfd error)) ∨
      k.fcntlSetfd fd cloexec s = (true, (s.succeed .fcntlSetfd).setFile fd (some ⟨file.node, cloexec⟩)) := by
  rw [Kernel.fcntlSetfd, h]
  cases k.fault s.trace.length with
  | some error => exact Or.inl ⟨error, rfl⟩
  | none => exact Or.inr rfl

theorem fstat_cases (k : Kernel ν σ ρ) (h : s.files fd = some file) :
    (∃ error, k.fstat fd s = (none, s.fail .fstat error)) ∨
      k.fstat fd s = (some ((k.tree s.fs).isDir file.node), s.succeed .fstat) := by
  rw [Kernel.fstat, h]
  cases k.fault s.trace.length with
  | some error => exact Or.inl ⟨error, rfl⟩
  | none => exact Or.inr rfl

/-- The descriptor is marked as it should be, or that has failed. -/
structure Marked (s : State ν σ) (fd : Nat) (file : OpenFile ν) (cloexec : Bool)
    (marked : Bool × State ν σ) : Prop where
  fs : marked.2.fs = s.fs
  cwd : marked.2.cwd = s.cwd
  others : ∀ n, n ≠ fd → marked.2.files n = s.files n
  own : ∃ mark, marked.2.files fd = some ⟨file.node, mark⟩ ∧ (marked.1 = true → mark = cloexec)
  later : s.Later marked.2
  failure : marked.1 = false → ¬ marked.2.Smooth

theorem setCloexec_marked (k : Kernel ν σ ρ) (h : s.files fd = some file) :
    Marked s fd file true (k.setCloexec fd s) := by
  rw [Kernel.setCloexec]
  rcases fcntlGetfd_cases k h with ⟨error, hget⟩ | hget
  · rw [hget]
    exact ⟨rfl, rfl, fun _ _ => rfl, ⟨file.cloexec, h, nofun⟩, (still_fail _ _).later,
      fun _ => not_smooth_of_mem (mem_fail _ _) rfl⟩
  · rw [hget]
    have hfile : (s.succeed .fcntlGetfd).files fd = some file := h
    have hlater : s.Later (s.succeed .fcntlGetfd) := (still_succeed _).later
    dsimp only
    rcases fcntlSetfd_cases k hfile true with ⟨error, hset⟩ | hset
    · rw [hset]
      exact ⟨rfl, rfl, fun _ _ => rfl, ⟨file.cloexec, h, nofun⟩, hlater.trans (still_fail _ _).later,
        fun _ => not_smooth_of_mem (mem_fail _ _) rfl⟩
    · rw [hset]
      exact ⟨rfl, rfl, fun _ hn => if_neg hn, ⟨true, if_pos rfl, fun _ => rfl⟩,
        hlater.trans (still_succeed _).later, nofun⟩

/-- A file that was opened is returned or closed. -/
structure Validated (k : Kernel ν σ ρ) (s : State ν σ) (fd : Nat) (node : ν) (directory cloexec : Bool)
    (validated : Option Nat × State ν σ) : Prop where
  fs : validated.2.fs = s.fs
  cwd : validated.2.cwd = s.cwd
  others : ∀ n, n ≠ fd → validated.2.files n = s.files n
  returned : ∀ n, validated.1 = some n → n = fd ∧ validated.2.files fd = some ⟨node, cloexec⟩
  closed : validated.1 = none → validated.2.files fd = none
  later : s.Later validated.2
  refused : validated.2.Smooth → (directory && !(k.tree s.fs).isDir node) = true →
    validated.1 = none ∧ validated.2.errno = .enotdir
  accepted : validated.2.Smooth → (directory && !(k.tree s.fs).isDir node) = false → validated.1 = some fd

/-- The ways out that close the file again. -/
theorem validated_closed {node : ν} {directory cloexec : Bool} {t : State ν σ} {errno : Errno}
    (hfs : t.fs = s.fs) (hcwd : t.cwd = s.cwd) (hothers : ∀ n, n ≠ fd → t.files n = s.files n)
    (hfile : t.files fd = some file) (hlater : s.Later t)
    (hwhy : ¬ t.Smooth ∨ errno = .enotdir ∧ (directory && !(k.tree s.fs).isDir node) = true) :
    Validated k s fd node directory cloexec (none, (k.close fd t).2.setErrno errno) := by
  have hclosed := close_closed k hfile
  refine ⟨hclosed.fs.trans hfs, hclosed.cwd.trans hcwd, fun n hn => ?_, nofun, fun _ => ?_,
    hlater.trans hclosed.later, fun hsmooth _ => ⟨rfl, ?_⟩, fun hsmooth hdir => ?_⟩
  · exact ((hclosed.files n).trans (if_neg hn)).trans (hothers n hn)
  · exact (hclosed.files fd).trans (if_pos rfl)
  · rcases hwhy with hfailed | ⟨rfl, -⟩
    · exact absurd (Smooth.of_later hclosed.later hsmooth) hfailed
    · rfl
  · rcases hwhy with hfailed | ⟨-, h⟩
    · exact absurd (Smooth.of_later hclosed.later hsmooth) hfailed
    · rw [hdir] at h
      exact nomatch h

theorem validateOpenedFile_validated {node : ν} (h : s.files fd = some ⟨node, false⟩)
    (isDirectory wantDirectory wantCloexec : Bool) :
    Validated k s fd node (wantDirectory || isDirectory) wantCloexec
      (k.validateOpenedFile isDirectory (some fd) wantDirectory wantCloexec s) := by
  have hmarked : Marked s fd ⟨node, false⟩ wantCloexec
      (if wantCloexec then k.setCloexec fd s else (true, s)) := by
    cases wantCloexec with
    | true => exact setCloexec_marked k h
    | false =>
      exact ⟨rfl, rfl, fun _ _ => rfl, ⟨false, h, fun _ => rfl⟩, List.prefix_refl _, nofun⟩
  rw [Kernel.validateOpenedFile]
  dsimp only
  generalize hmark : (if wantCloexec then k.setCloexec fd s else (true, s)) = marked at hmarked ⊢
  obtain ⟨mark, hown, hwanted⟩ := hmarked.own
  cases hdone : marked.1 with
  | false =>
    simp only [Bool.not_false, if_true]
    exact validated_closed hmarked.fs hmarked.cwd hmarked.others hown hmarked.later
      (Or.inl (hmarked.failure hdone))
  | true =>
    obtain rfl := hwanted hdone
    simp only [Bool.not_true, Bool.false_eq_true, if_false]
    by_cases hplain : (!wantDirectory && !isDirectory) = true
    · rw [if_pos hplain]
      have hdirectory : (wantDirectory || isDirectory) = false := by
        simpa using hplain
      refine ⟨hmarked.fs, hmarked.cwd, hmarked.others, ?_, nofun, hmarked.later, ?_, fun _ _ => rfl⟩
      · exact fun n hn => ⟨(Option.some.inj hn).symm, hown⟩
      · intro _ hrefused
        rw [hdirectory] at hrefused
        exact nomatch hrefused
    · rw [if_neg hplain]
      have hdirectory : (wantDirectory || isDirectory) = true := by
        rw [← Bool.not_eq_false]
        exact fun hnone => hplain (by simpa using hnone)
      rcases fstat_cases k hown with ⟨error, hstat⟩ | hstat
      · rw [hstat]
        exact validated_closed hmarked.fs hmarked.cwd hmarked.others hown
          (hmarked.later.trans (still_fail _ _).later) (Or.inl (not_smooth_of_mem (mem_fail _ _) rfl))
      · rw [hstat, hmarked.fs]
        dsimp only
        have hlater : s.Later (marked.2.succeed .fstat) := hmarked.later.trans (still_succeed _).later
        by_cases hdir : (!(k.tree s.fs).isDir node) = true
        · rw [if_pos hdir]
          exact validated_closed hmarked.fs hmarked.cwd hmarked.others hown hlater
            (Or.inr ⟨rfl, by rw [hdirectory, hdir]; rfl⟩)
        · rw [if_neg hdir]
          refine ⟨hmarked.fs, hmarked.cwd, hmarked.others, ?_, nofun, hlater, ?_, fun _ _ => rfl⟩
          · exact fun n hn => ⟨(Option.some.inj hn).symm, hown⟩
          · intro _ hrefused
            rw [hdirectory, Bool.true_and] at hrefused
            exact absurd hrefused hdir

/-! ## The open call -/

/-- `open` fails with the descriptors as they are, or takes one. -/
theorem openCall_cases (k : Kernel ν σ ρ) (path : PathText) (flags : BitVec 32) (mode : Nat) (s : State ν σ) :
    (k.lowest s.files = none ∧ k.openCall path flags mode s = (none, s.setErrno .emfile)) ∨
    (∃ fd error, k.lowest s.files = some fd ∧ (k.openNode flags mode s.cwd path s.fs).1 = .error error ∧
      k.openCall path flags mode s = (none, (s.after (k.openNode flags mode s.cwd path s.fs)).2)) ∨
    ∃ fd node, k.lowest s.files = some fd ∧ (k.openNode flags mode s.cwd path s.fs).1 = .ok node ∧
      k.openCall path flags mode s = (some fd,
        (s.after (k.openNode flags mode s.cwd path s.fs)).2.setFile fd (some ⟨node, false⟩)) := by
  rw [Kernel.openCall]
  cases hlow : k.lowest s.files with
  | none => exact Or.inl ⟨rfl, rfl⟩
  | some fd =>
    cases hopen : (k.openNode flags mode s.cwd path s.fs).1 with
    | error error =>
      refine Or.inr (Or.inl ⟨fd, error, rfl, rfl, ?_⟩)
      simp only [after_value, hopen, Except.toOption]
    | ok node =>
      refine Or.inr (Or.inr ⟨fd, node, rfl, rfl, ?_⟩)
      simp only [after_value, hopen, Except.toOption]

/-- The descriptors while the process is away. -/
theorem Away.heldFiles {saved : Option Nat} (h : Away k s dirfd saved s') : s'.files = k.heldFiles dirfd s := by
  cases h with
  | stayed => rfl
  | entered h =>
    rw [Kernel.heldFiles, h.free]
    exact funext h.files

theorem openatCompat_some (h : Headers) (dirfd : DirFd) (path : PathText) (isDirectory : Bool)
    (flags : BitVec 32) (mode : Nat) (s : State ν σ) :
    (∃ s', k.openatCompat h (some dirfd) (some path) isDirectory flags mode s = (none, s') ∧ s.Still s' ∧
      (¬ s'.Smooth ∨ handleOf dirfd path = .invalid ∧ s' = s.setErrno .ebadf)) ∨
    ∃ saved s', Away k s (handleOf dirfd path) saved s' ∧
      k.openatCompat h (some dirfd) (some path) isDirectory flags mode s =
        let normalized := normalizeOpenFlags h flags
        let opened := k.openCall path normalized.flags mode s'
        let restored := k.restoreCwd saved opened.2.errno opened.2
        if restored.1 then
          k.validateOpenedFile isDirectory opened.1 normalized.wantDirectory normalized.wantCloexec restored.2
        else
          match opened.1 with
          | none => (none, restored.2.setErrno restored.2.errno)
          | some fd => (none, (k.close fd restored.2).2.setErrno restored.2.errno) := by
  rw [Kernel.openatCompat, prepareAtCwd_some]
  rcases prepareFdCwd_cases k (handleOf dirfd path) s with
    ⟨hinvalid, h⟩ | ⟨s', h, hstill, hfailed⟩ | ⟨saved, s', h, haway⟩
  · exact Or.inl ⟨s.setErrno .ebadf, by simp only [h, Option.map_none], still_setErrno _, Or.inr ⟨hinvalid, rfl⟩⟩
  · exact Or.inl ⟨s', by simp only [h, Option.map_none], hstill, Or.inl hfailed⟩
  · exact Or.inr ⟨saved, s', haway, by simp only [h, Option.map_some] <;> rfl⟩

/-- An open that fails leaves nothing behind. -/
theorem openatCompat_failed {saved : Option Nat} {t : State ν σ} {call : Option Nat × State ν σ}
    (haway : Away k s dirfd saved s') (hcwd : t.cwd = s'.cwd) (hfiles : t.files = s'.files)
    (hlater : s'.Later t) (hvalue : call.1 = none) (hfs : call.2.fs = t.fs) (hcallCwd : call.2.cwd = s.cwd)
    (hcallFiles : call.2.files = s.files) (herrno : call.2.errno = t.errno) :
    Tidy s none true (k.restoreCwd saved t.errno t).2 ∧
      ((k.restoreCwd saved t.errno t).2.Smooth →
        Same ((none : Option Nat), (k.restoreCwd saved t.errno t).2) call) := by
  have hreturned := restoreCwd_returned haway hcwd (fun fd _ => congrFun hfiles fd) hlater t.errno
  have hclean := hreturned.files_eq haway hfiles
  cases hrestored : (k.restoreCwd saved t.errno t).1 with
  | false =>
    obtain ⟨hfailed, hback⟩ := hreturned.failure hrestored
    refine ⟨⟨fun n _ => congrFun hclean n, nofun, ?_⟩, fun hsmooth => absurd hsmooth hfailed⟩
    exact hback.imp id fun hreturn => ⟨rfl, hreturn⟩
  | true =>
    obtain ⟨hback, hkept⟩ := hreturned.success hrestored
    refine ⟨⟨fun n _ => congrFun hclean n, nofun, Or.inl hback⟩, fun _ => ?_⟩
    exact ⟨hvalue.symm, hreturned.fs.trans hfs.symm, hback.trans hcallCwd.symm, hclean.trans hcallFiles.symm,
      fun _ => hkept.trans herrno.symm⟩

/-- The saved directory keeps its descriptor. -/
theorem Away.saved_ne {saved : Option Nat} (h : Away k s dirfd saved s') (hfree : s'.files fd = none) :
    saved ≠ some fd := by
  rintro rfl
  cases h with
  | entered hentered =>
    rw [hentered.files, if_pos rfl] at hfree
    exact nomatch hfree

/-- The descriptors behind the way back, with a file open. -/
theorem Returned.files_opened {saved : Option Nat} {errno : Errno} {node : ν} {t : State ν σ}
    {restored : Bool × State ν σ} (h : Returned s saved errno t restored) (haway : Away k s dirfd saved s')
    (hfree : s'.files fd = none) (hfiles : ∀ n, t.files n = if n = fd then some ⟨node, false⟩ else s'.files n) :
    s.files fd = none ∧
      ∀ n, restored.2.files n = if n = fd then some ⟨node, false⟩ else s.files n := by
  have hsaved := haway.saved_ne hfree
  constructor
  · rw [← haway.files fd, if_neg hsaved, hfree]
  · intro n
    rw [h.files, hfiles]
    by_cases hn : n = fd
    · rw [if_pos hn, if_pos hn, hn, if_neg hsaved]
    · rw [if_neg hn, if_neg hn]
      exact haway.files n

/-- What becomes of a file that is open when the process comes back. -/
def Kernel.opened (k : Kernel ν σ ρ) (fd : Nat) (isDirectory wantDirectory wantCloexec : Bool)
    (restored : Bool × State ν σ) : Option Nat × State ν σ :=
  if restored.1 then k.validateOpenedFile isDirectory (some fd) wantDirectory wantCloexec restored.2
  else (none, (k.close fd restored.2).2.setErrno restored.2.errno)

theorem opened_tidy {restored : Bool × State ν σ} {node : ν} (isDirectory wantDirectory wantCloexec : Bool)
    (hfree : s.files fd = none)
    (hfiles : ∀ n, restored.2.files n = if n = fd then some ⟨node, false⟩ else s.files n)
    (hsuccess : restored.1 = true → restored.2.cwd = s.cwd)
    (hfailure : restored.1 = false → restored.2.cwd = s.cwd ∨ restored.2.ReturnFailed) :
    Tidy s (k.opened fd isDirectory wantDirectory wantCloexec restored).1
      (k.opened fd isDirectory wantDirectory wantCloexec restored).1.isNone
      (k.opened fd isDirectory wantDirectory wantCloexec restored).2 := by
  have hfile : restored.2.files fd = some ⟨node, false⟩ := (hfiles fd).trans (if_pos rfl)
  rw [Kernel.opened]
  cases hrestored : restored.1 with
  | false =>
    rw [if_neg Bool.false_ne_true]
    have hclosed := close_closed k hfile
    refine ⟨fun n _ => ?_, nofun, ?_⟩
    · by_cases hn : n = fd
      · exact ((hclosed.files n).trans (if_pos hn)).trans (by rw [hn, hfree])
      · exact ((hclosed.files n).trans (if_neg hn)).trans ((hfiles n).trans (if_neg hn))
    · rcases hfailure hrestored with hback | hreturn
      · exact Or.inl (hclosed.cwd.trans hback)
      · exact Or.inr ⟨rfl, hreturn.mono hclosed.later⟩
  | true =>
    rw [if_pos rfl]
    have hvalid := validateOpenedFile_validated (k := k) hfile isDirectory wantDirectory wantCloexec
    refine ⟨fun n hn => ?_, fun n hn => ?_, Or.inl (hvalid.cwd.trans (hsuccess hrestored))⟩
    · by_cases hfd : n = fd
      · subst hfd
        cases hvalue : (k.validateOpenedFile isDirectory (some n) wantDirectory wantCloexec restored.2).1 with
        | none => rw [hvalid.closed hvalue, hfree]
        | some m =>
          rw [hvalue] at hn
          exact absurd (by rw [(hvalid.returned m hvalue).1]) hn
      · exact (hvalid.others n hfd).trans ((hfiles n).trans (if_neg hfd))
    · rw [(hvalid.returned n hn).1, hfree]

theorem opened_restored {restored : Bool × State ν σ} {isDirectory wantDirectory wantCloexec : Bool}
    (hfile : restored.2.files fd = some file) (hfailure : restored.1 = false → ¬ restored.2.Smooth)
    (hsmooth : (k.opened fd isDirectory wantDirectory wantCloexec restored).2.Smooth) :
    restored.1 = true := by
  cases hrestored : restored.1 with
  | true => rfl
  | false =>
    rw [Kernel.opened, hrestored, if_neg Bool.false_ne_true] at hsmooth
    exact absurd (Smooth.of_later (close_closed k hfile).later hsmooth) (hfailure hrestored)

theorem opened_same {restored call : _} {node : ν} {isDirectory wantDirectory wantCloexec : Bool}
    (hfree : s.files fd = none)
    (hfiles : ∀ n, restored.2.files n = if n = fd then some ⟨node, false⟩ else s.files n)
    (hrestored : restored.1 = true) (hback : restored.2.cwd = s.cwd)
    (hcall : call = if (wantDirectory || isDirectory) && !(k.tree restored.2.fs).isDir node then
      ((none : Option Nat), ({ s with fs := restored.2.fs, errno := .enotdir } : State ν σ))
      else (some fd, ({ s with fs := restored.2.fs } : State ν σ).setFile fd (some ⟨node, wantCloexec⟩)))
    (hsmooth : (k.opened fd isDirectory wantDirectory wantCloexec restored).2.Smooth) :
    Same (k.opened fd isDirectory wantDirectory wantCloexec restored) call := by
  have hfile : restored.2.files fd = some ⟨node, false⟩ := (hfiles fd).trans (if_pos rfl)
  have hvalid := validateOpenedFile_validated (k := k) hfile isDirectory wantDirectory wantCloexec
  rw [Kernel.opened, if_pos hrestored] at hsmooth ⊢
  rw [hcall]
  cases hdir : (wantDirectory || isDirectory) && !(k.tree restored.2.fs).isDir node with
  | true =>
    obtain ⟨hnone, herrno⟩ := hvalid.refused hsmooth hdir
    rw [if_pos rfl]
    refine ⟨hnone, hvalid.fs, hvalid.cwd.trans hback, funext fun n => ?_, fun _ => herrno⟩
    by_cases hn : n = fd
    · rw [hn, hvalid.closed hnone, hfree]
    · exact (hvalid.others n hn).trans ((hfiles n).trans (if_neg hn))
  | false =>
    have hsome := hvalid.accepted hsmooth hdir
    rw [if_neg Bool.false_ne_true]
    refine ⟨hsome, hvalid.fs, hvalid.cwd.trans hback, funext fun n => ?_, fun hnone => ?_⟩
    · by_cases hn : n = fd
      · rw [hn, (hvalid.returned fd hsome).2]
        exact (if_pos rfl).symm
      · exact ((hvalid.others n hn).trans ((hfiles n).trans (if_neg hn))).trans (if_neg hn).symm
    · rw [hsome] at hnone
      exact nomatch hnone

theorem validate_none (isDirectory wantDirectory wantCloexec : Bool) (restored : Bool × State ν σ) :
    (if restored.1 then k.validateOpenedFile isDirectory none wantDirectory wantCloexec restored.2
      else (none, restored.2.setErrno restored.2.errno)) = (none, restored.2) := by
  cases restored.1 <;> rfl

theorem atOpen_entered {saved : Option Nat} (h : Headers) (isDirectory : Bool) (flags : BitVec 32) (mode : Nat)
    (haway : Away k s (handleOf dirfd path) saved s') (hopen : Open s (handleOf dirfd path)) :
    k.atOpen h dirfd path isDirectory flags mode s =
      match k.lowest s'.files with
      | none => (none, s.setErrno .emfile)
      | some fd =>
          let opened := s.after (k.openNode (normalizeOpenFlags h flags).flags mode s'.cwd path s.fs)
          match opened.1 with
          | none => (none, opened.2)
          | some node =>
              if ((normalizeOpenFlags h flags).wantDirectory || isDirectory) &&
                  !(k.tree opened.2.fs).isDir node then
                (none, opened.2.setErrno .enotdir)
              else (some fd, opened.2.setFile fd (some ⟨node, (normalizeOpenFlags h flags).wantCloexec⟩)) := by
  rw [Kernel.atOpen, haway.dirOf hopen, haway.heldFiles] <;> rfl

theorem openatCompat_spec (h : Headers) (dirfd : DirFd) (path : PathText) (isDirectory : Bool)
    (flags : BitVec 32) (mode : Nat) (s : State ν σ) :
    Tidy s (k.openatCompat h (some dirfd) (some path) isDirectory flags mode s).1
        (k.openatCompat h (some dirfd) (some path) isDirectory flags mode s).1.isNone
        (k.openatCompat h (some dirfd) (some path) isDirectory flags mode s).2 ∧
      ((k.openatCompat h (some dirfd) (some path) isDirectory flags mode s).2.Smooth →
        Open s (handleOf dirfd path) →
        Same (k.openatCompat h (some dirfd) (some path) isDirectory flags mode s)
          (k.atOpen h dirfd path isDirectory flags mode s)) := by
  rcases openatCompat_some (k := k) h dirfd path isDirectory flags mode s with
    ⟨s', hcompat, hstill, hwhy⟩ | ⟨saved, s', haway, hcompat⟩
  · rw [hcompat]
    refine ⟨hstill.tidy _, fun hsmooth _ => ?_⟩
    rcases hwhy with hfailed | ⟨hinvalid, rfl⟩
    · exact absurd hsmooth hfailed
    · rw [Kernel.atOpen, hinvalid]
      exact ⟨rfl, rfl, rfl, rfl, fun _ => rfl⟩
  · rw [hcompat]
    dsimp only
    have hheld := haway.heldFiles
    rcases openCall_cases k path (normalizeOpenFlags h flags).flags mode s' with
      ⟨hlow, hopen⟩ | ⟨fd, error, hlow, hnode, hopen⟩ | ⟨fd, node, hlow, hnode, hopen⟩
    · rw [hopen, validate_none]
      have hfailed : ∀ call : Option Nat × State ν σ, call = (none, s.setErrno .emfile) → _ := fun call hcall =>
        @openatCompat_failed _ _ _ k s s' _ saved (s'.setErrno .emfile) call haway rfl rfl (List.prefix_refl _)
          (by rw [hcall]) (by rw [hcall]; exact haway.fs.symm) (by rw [hcall]; rfl) (by rw [hcall]; rfl)
          (by rw [hcall]; rfl)
      refine ⟨(hfailed _ rfl).1, fun hsmooth hhandle => (hfailed _ ?_).2 hsmooth⟩
      rw [atOpen_entered h isDirectory flags mode haway hhandle, hlow]
    · rw [hopen, validate_none]
      have hfailed : ∀ call : Option Nat × State ν σ,
          call = (none, (s.after (k.openNode (normalizeOpenFlags h flags).flags mode s'.cwd path s.fs)).2) → _ :=
        fun call hcall =>
          @openatCompat_failed _ _ _ k s s' _ saved
            (s'.after (k.openNode (normalizeOpenFlags h flags).flags mode s'.cwd path s'.fs)).2 call haway
            (after_cwd _) (after_files _) (later_after _) (by rw [hcall])
            (by rw [hcall, after_fs, after_fs, haway.fs]) (by rw [hcall, after_cwd]) (by rw [hcall, after_files])
            (by rw [hcall, after_errno hnode, haway.fs.symm, after_errno hnode])
      refine ⟨(hfailed _ rfl).1, fun hsmooth hhandle => (hfailed _ ?_).2 hsmooth⟩
      rw [atOpen_entered h isDirectory flags mode haway hhandle, hlow]
      rw [haway.fs] at hnode
      simp only [after_value, hnode, Except.toOption]
    · rw [hopen]
      have hfree := lowest_free hlow
      generalize ht : (s'.after (k.openNode (normalizeOpenFlags h flags).flags mode s'.cwd path s'.fs)).2.setFile
        fd (some ⟨node, false⟩) = t
      have hcwd : t.cwd = s'.cwd := by
        rw [← ht, setFile_cwd, after_cwd]
      have hfiles : ∀ n, t.files n = if n = fd then some ⟨node, false⟩ else s'.files n := by
        intro n
        rw [← ht, setFile_files, after_files]
      have hfs : t.fs = (k.openNode (normalizeOpenFlags h flags).flags mode s'.cwd path s.fs).2 := by
        rw [← ht, setFile_fs, after_fs, haway.fs]
      have hlater : s'.Later t := by
        rw [← ht]
        exact later_after _
      have hkept : ∀ n, saved = some n → t.files n = s'.files n := by
        intro n hn
        rw [hfiles, if_neg]
        rintro rfl
        exact haway.saved_ne hfree hn
      have hreturned := restoreCwd_returned haway hcwd hkept hlater t.errno
      obtain ⟨hnew, hopened⟩ := hreturned.files_opened haway hfree hfiles
      constructor
      · exact opened_tidy isDirectory _ _ hnew hopened (fun hrestored => (hreturned.success hrestored).1)
          fun hrestored => (hreturned.failure hrestored).2
      · intro hsmooth hhandle
        have hrestored := opened_restored ((hopened fd).trans (if_pos rfl))
          (fun hfailed => (hreturned.failure hfailed).1) hsmooth
        refine opened_same hnew hopened hrestored (hreturned.success hrestored).1 ?_ hsmooth
        rw [haway.fs] at hnode
        have hafter : s.after (k.openNode (normalizeOpenFlags h flags).flags mode s'.cwd path s.fs) =
            (some node, { s with fs := t.fs }) := by
          rw [State.after, hnode, hfs]
        rw [atOpen_entered h isDirectory flags mode haway hhandle, hlow, hreturned.fs]
        simp only [hafter]
        rfl

end TimeCapsule.Vfs
