import TimeCapsule.Vfs.Compat

/-!
# There and back again

The directory and the descriptors behind each exit of the fallbacks: a step that fails is recorded, and
what it leaves behind is closed and undone.
-/

namespace TimeCapsule.Vfs

open Lib

/-- A call that failed.  A buffer that is too small for `getcwd` is made larger, up to the last one. -/
def Event.failed (event : Event) : Bool :=
  match event.call with
  | .getcwd size => event.error.isSome && !(event.error == some .erange && decide (size < 65536))
  | _ => event.error.isSome

variable {ν σ ρ : Type} {k : Kernel ν σ ρ} {s s' s'' : State ν σ}

namespace State

/-- No step has failed. -/
def Smooth (s : State ν σ) : Prop := ∀ event ∈ s.trace, event.failed = false

/-- The process came back with an error from the directory that it went to. -/
def ReturnFailed (s : State ν σ) : Prop :=
  ∃ error, List.Sublist [⟨.fchdir, none⟩, ⟨.fchdir, some error⟩] s.trace

/-- One state is reached from another. -/
def Later (s s' : State ν σ) : Prop := List.IsPrefix s.trace s'.trace

/-- Nothing has changed but the error and the trace. -/
structure Still (s s' : State ν σ) : Prop where
  fs : s'.fs = s.fs
  cwd : s'.cwd = s.cwd
  files : s'.files = s.files
  later : s.Later s'

@[simp] theorem setErrno_fs (errno : Errno) : (s.setErrno errno).fs = s.fs := rfl
@[simp] theorem setErrno_cwd (errno : Errno) : (s.setErrno errno).cwd = s.cwd := rfl
@[simp] theorem setErrno_files (errno : Errno) : (s.setErrno errno).files = s.files := rfl
@[simp] theorem setErrno_errno (errno : Errno) : (s.setErrno errno).errno = errno := rfl
@[simp] theorem setErrno_trace (errno : Errno) : (s.setErrno errno).trace = s.trace := rfl
@[simp] theorem setFile_fs (fd : Nat) (file : Option (OpenFile ν)) : (s.setFile fd file).fs = s.fs := rfl
@[simp] theorem setFile_cwd (fd : Nat) (file : Option (OpenFile ν)) : (s.setFile fd file).cwd = s.cwd := rfl
@[simp] theorem setFile_trace (fd : Nat) (file : Option (OpenFile ν)) : (s.setFile fd file).trace = s.trace :=
  rfl

@[simp] theorem setFile_files (fd n : Nat) (file : Option (OpenFile ν)) :
    (s.setFile fd file).files n = if n = fd then file else s.files n := rfl

theorem Still.refl (s : State ν σ) : s.Still s := ⟨rfl, rfl, rfl, List.prefix_refl _⟩

theorem Still.trans (h : s.Still s') (h' : s'.Still s'') : s.Still s'' :=
  ⟨h'.fs.trans h.fs, h'.cwd.trans h.cwd, h'.files.trans h.files, h.later.trans h'.later⟩

theorem Smooth.of_later (h : s.Later s') (hs : s'.Smooth) : s.Smooth := fun event he => hs event (h.subset he)

theorem ReturnFailed.mono (h : s.Later s') (hs : s.ReturnFailed) : s'.ReturnFailed := by
  obtain ⟨error, hs⟩ := hs
  exact ⟨error, hs.trans h.sublist⟩

theorem still_setErrno (errno : Errno) : s.Still (s.setErrno errno) := ⟨rfl, rfl, rfl, List.prefix_refl _⟩

theorem still_succeed (call : SysCall) : s.Still (s.succeed call) := ⟨rfl, rfl, rfl, List.prefix_append _ _⟩

theorem still_fail (call : SysCall) (error : Errno) : s.Still (s.fail call error) :=
  ⟨rfl, rfl, rfl, List.prefix_append _ _⟩

theorem not_smooth_of_mem {event : Event} (h : event ∈ s.trace) (hfailed : event.failed = true) :
    ¬ s.Smooth := by
  intro hs
  rw [hs event h] at hfailed
  exact nomatch hfailed

theorem mem_fail (call : SysCall) (error : Errno) : ⟨call, some error⟩ ∈ (s.fail call error).trace :=
  List.mem_append_right _ List.mem_cons_self

end State

open State

/-! ## One call -/

theorem lowest_free {files : Nat → Option (OpenFile ν)} {fd : Nat} (h : k.lowest files = some fd) :
    files fd = none := by
  have := List.find?_some h
  simpa using this

theorem errorOf_eq_none {own : Option Errno} (h : k.errorOf s own = none) : own = none := by
  unfold Kernel.errorOf at h
  split at h
  · exact nomatch h
  · exact h

theorem openDot_cases (k : Kernel ν σ ρ) (s : State ν σ) :
    (∃ s', k.openDot s = (none, s') ∧ s.Still s' ∧ ¬ s'.Smooth) ∨
    ∃ fd, k.lowest s.files = some fd ∧
      k.openDot s = (some fd, (s.succeed .openDot).setFile fd (some ⟨s.cwd, false⟩)) := by
  rw [Kernel.openDot]
  cases k.errorOf s (if k.readable s.fs s.cwd then none else some .eacces) with
  | some error => exact Or.inl ⟨_, rfl, still_fail _ _, not_smooth_of_mem (mem_fail _ _) rfl⟩
  | none =>
    cases hlow : k.lowest s.files with
    | none => exact Or.inl ⟨_, rfl, still_fail _ _, not_smooth_of_mem (mem_fail _ _) rfl⟩
    | some fd => exact Or.inr ⟨fd, rfl, rfl⟩

theorem fchdir_cases (k : Kernel ν σ ρ) (fd : Nat) (s : State ν σ) :
    (∃ error, k.fchdir fd s = (false, s.fail .fchdir error)) ∨
    ∃ file, s.files fd = some file ∧ k.fchdirError s file.node = none ∧
      k.fchdir fd s = (true, { s.succeed .fchdir with cwd := file.node }) := by
  rw [Kernel.fchdir]
  cases hfile : s.files fd with
  | none => exact Or.inl ⟨_, rfl⟩
  | some file =>
    cases herror : k.errorOf s (k.fchdirError s file.node) with
    | some error => exact Or.inl ⟨error, by simp only [herror]⟩
    | none => exact Or.inr ⟨file, rfl, errorOf_eq_none herror, by simp only [herror]⟩

theorem not_smooth_fchdir (s : State ν σ) (error : Errno) : ¬ (s.fail .fchdir error).Smooth :=
  not_smooth_of_mem (mem_fail _ _) rfl

/-- A close frees the descriptor and nothing else. -/
structure Closed (fd : Nat) (s : State ν σ) (closed : Bool × State ν σ) : Prop where
  fs : closed.2.fs = s.fs
  cwd : closed.2.cwd = s.cwd
  files : ∀ n, closed.2.files n = if n = fd then none else s.files n
  later : s.Later closed.2
  smooth : closed.1 = false → ¬ closed.2.Smooth

theorem close_closed (k : Kernel ν σ ρ) {fd : Nat} {file : OpenFile ν} (h : s.files fd = some file) :
    Closed fd s (k.close fd s) := by
  rw [Kernel.close, h]
  cases k.fault s.trace.length with
  | some error =>
    exact ⟨rfl, rfl, fun _ => rfl, (still_fail _ _).later, fun _ => not_smooth_of_mem (mem_fail _ _) rfl⟩
  | none => exact ⟨rfl, rfl, fun _ => rfl, (still_succeed _).later, nofun⟩

/-! ## The saved directory -/

/-- The process with a descriptor for its old directory, in a directory that it can search. -/
structure Entered (k : Kernel ν σ ρ) (s : State ν σ) (dirfd fd : Nat) (file : OpenFile ν)
    (s' : State ν σ) : Prop where
  /-- A descriptor that is not open may be the one that the old directory gets. -/
  handle : s.files dirfd = some file ∨ s.files dirfd = none
  usable : k.fchdirError s file.node = none
  free : k.lowest s.files = some fd
  fs : s'.fs = s.fs
  cwd : s'.cwd = file.node
  files : ∀ n, s'.files n = if n = fd then some ⟨s.cwd, false⟩ else s.files n
  later : s.Later s'
  changed : ⟨.fchdir, none⟩ ∈ s'.trace

/-- The process where `tc_netbsd_prepare_fd_cwd` leaves it with a saved directory, or with none. -/
inductive Away (k : Kernel ν σ ρ) (s : State ν σ) : DirFd → Option Nat → State ν σ → Prop
  | stayed : Away k s .atFdcwd none s
  | entered {dirfd fd : Nat} {file : OpenFile ν} {s' : State ν σ} (h : Entered k s dirfd fd file s') :
      Away k s (.fd dirfd) (some fd) s'

/-- `tc_netbsd_prepare_fd_cwd` fails and changes nothing, or succeeds. -/
theorem prepareFdCwd_cases (k : Kernel ν σ ρ) (dirfd : DirFd) (s : State ν σ) :
    (dirfd = .invalid ∧ k.prepareFdCwd dirfd s = (none, s.setErrno .ebadf)) ∨
    (∃ s', k.prepareFdCwd dirfd s = (none, s') ∧ s.Still s' ∧ ¬ s'.Smooth) ∨
    ∃ saved s', k.prepareFdCwd dirfd s = (some saved, s') ∧ Away k s dirfd saved s' := by
  cases dirfd with
  | atFdcwd => exact Or.inr (Or.inr ⟨none, s, rfl, .stayed⟩)
  | invalid => exact Or.inl ⟨rfl, rfl⟩
  | fd dirfd =>
    refine Or.inr ?_
    rw [Kernel.prepareFdCwd]
    rcases openDot_cases k s with ⟨s', hopen, hstill, hfailed⟩ | ⟨fd, hlow, hopen⟩
    · exact Or.inl ⟨s', by simp only [hopen], hstill, hfailed⟩
    · have hfree := lowest_free hlow
      simp only [hopen]
      have hheld : ((s.succeed .openDot).setFile fd (some ⟨s.cwd, false⟩)).files fd = some ⟨s.cwd, false⟩ :=
        if_pos rfl
      rcases fchdir_cases k dirfd ((s.succeed .openDot).setFile fd (some ⟨s.cwd, false⟩)) with
        ⟨error, hfail⟩ | ⟨file, hfile, husable, hsucceed⟩
      · have hclosed : Closed fd (((s.succeed .openDot).setFile fd (some ⟨s.cwd, false⟩)).fail .fchdir error)
            (k.close fd (((s.succeed .openDot).setFile fd (some ⟨s.cwd, false⟩)).fail .fchdir error)) :=
          close_closed k hheld
        refine Or.inl ⟨(k.close fd (((s.succeed .openDot).setFile fd (some ⟨s.cwd, false⟩)).fail .fchdir
          error)).2.setErrno error, ?_, ⟨hclosed.fs, hclosed.cwd, ?_, ?_⟩, ?_⟩
        · simp only [hfail, Bool.false_eq_true, if_false]
          rfl
        · funext n
          refine (hclosed.files n).trans ?_
          by_cases hn : n = fd
          · rw [if_pos hn, hn, hfree]
          · rw [if_neg hn]
            exact if_neg hn
        · exact ((still_succeed _).later.trans (still_fail _ _).later).trans hclosed.later
        · exact fun hs => not_smooth_fchdir _ _ (Smooth.of_later hclosed.later hs)
      · refine Or.inr ⟨some fd, _, by simp only [hsucceed, if_true]; rfl, @Away.entered _ _ _ k s _ _ file _ ?_⟩
        refine ⟨?_, husable, hlow, rfl, rfl, fun _ => rfl, ?_, ?_⟩
        · by_cases hdirfd : dirfd = fd
          · exact Or.inr (by rw [hdirfd, hfree])
          · refine Or.inl ?_
            rw [← hfile]
            exact (if_neg hdirfd).symm
        · exact (still_succeed _).later.trans (still_succeed _).later
        · exact List.mem_append_right _ List.mem_cons_self

/-- The process behind `tc_netbsd_restore_cwd`, which is in its old directory or has an error to report. -/
structure Returned (s : State ν σ) (saved : Option Nat) (errno : Errno) (s' : State ν σ)
    (restored : Bool × State ν σ) : Prop where
  fs : restored.2.fs = s'.fs
  files : ∀ n, restored.2.files n = if saved = some n then none else s'.files n
  later : s'.Later restored.2
  success : restored.1 = true → restored.2.cwd = s.cwd ∧ restored.2.errno = errno
  failure : restored.1 = false →
    ¬ restored.2.Smooth ∧ (restored.2.cwd = s.cwd ∨ restored.2.ReturnFailed)

theorem restoreCwd_returned {dirfd : DirFd} {saved : Option Nat} (haway : Away k s dirfd saved s')
    (hcwd : s''.cwd = s'.cwd) (hfiles : ∀ fd, saved = some fd → s''.files fd = s'.files fd)
    (hlater : s'.Later s'') (errno : Errno) :
    Returned s saved errno s'' (k.restoreCwd saved errno s'') := by
  cases haway with
  | stayed =>
    exact ⟨rfl, fun _ => rfl, List.prefix_refl _, fun _ => ⟨hcwd, rfl⟩, nofun⟩
  | @entered dirfd fd file _ hentered =>
    have hheld : s''.files fd = some ⟨s.cwd, false⟩ := by
      rw [hfiles fd rfl, hentered.files, if_pos rfl]
    have hif : ∀ (n : Nat) (file : Option (OpenFile ν)),
        (if n = fd then none else file) = if some fd = some n then none else file := by
      intro n file
      by_cases hn : n = fd
      · rw [if_pos hn, if_pos (by rw [hn])]
      · rw [if_neg hn, if_neg (fun h => hn (Option.some.inj h).symm)]
    rw [Kernel.restoreCwd]
    rcases fchdir_cases k fd s'' with ⟨error, hfail⟩ | ⟨file', hfile, -, hsucceed⟩
    · have hclosed : Closed fd (s''.fail .fchdir error) (k.close fd (s''.fail .fchdir error)) :=
        close_closed k hheld
      simp only [hfail, Bool.false_eq_true, if_false]
      refine ⟨hclosed.fs, fun n => (hclosed.files n).trans (hif n _), ?_, nofun, fun _ => ⟨?_, ?_⟩⟩
      · exact (still_fail _ _).later.trans hclosed.later
      · exact fun hs => not_smooth_fchdir _ _ (Smooth.of_later hclosed.later hs)
      · have hchanged : ⟨.fchdir, none⟩ ∈ s''.trace := hlater.subset hentered.changed
        have hreturn : (s''.fail .fchdir error).ReturnFailed :=
          ⟨error, (List.singleton_sublist.mpr hchanged).append (List.Sublist.refl _)⟩
        exact Or.inr (hreturn.mono hclosed.later)
    · obtain rfl : file' = ⟨s.cwd, false⟩ := Option.some.inj (hfile.symm.trans hheld)
      have hclosed : Closed fd { s''.succeed .fchdir with cwd := s.cwd }
          (k.close fd { s''.succeed .fchdir with cwd := s.cwd }) := close_closed k hheld
      simp only [hsucceed, if_true]
      cases hclose : (k.close fd { s''.succeed .fchdir with cwd := s.cwd }).1 with
      | true =>
        simp only [if_true]
        exact ⟨hclosed.fs, fun n => (hclosed.files n).trans (hif n _),
          (still_succeed _).later.trans hclosed.later, fun _ => ⟨hclosed.cwd, rfl⟩, nofun⟩
      | false =>
        simp only [Bool.false_eq_true, if_false]
        exact ⟨hclosed.fs, fun n => (hclosed.files n).trans (hif n _),
          (still_succeed _).later.trans hclosed.later, nofun,
          fun _ => ⟨hclosed.smooth hclose, Or.inl hclosed.cwd⟩⟩

end TimeCapsule.Vfs
