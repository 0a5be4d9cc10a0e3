import TimeCapsule.Vfs.AtCalls
import TimeCapsule.Vfs.Restored

/-!
# The fallbacks on one path

Each of them leaves the process as it was and, if none of its steps fails, does what the `*at` call does.
-/

namespace TimeCapsule.Vfs

open Lib State

variable {ν σ ρ α : Type} {k : Kernel ν σ ρ} {s s' : State ν σ} {dirfd : DirFd} {path : PathText}

/-- The process has its directory and its descriptors, and the one that is returned; if it could not return
to its directory, that is reported. -/
structure Tidy (s : State ν σ) (returned : Option Nat) (failed : Bool) (s' : State ν σ) : Prop where
  files : ∀ n, returned ≠ some n → s'.files n = s.files n
  fresh : ∀ n, returned = some n → s.files n = none
  cwd : s'.cwd = s.cwd ∨ failed = true ∧ s'.ReturnFailed

/-- Two calls have the same effect, result and error. -/
structure Same (call call' : Option α × State ν σ) : Prop where
  value : call.1 = call'.1
  fs : call.2.fs = call'.2.fs
  cwd : call.2.cwd = call'.2.cwd
  files : call.2.files = call'.2.files
  errno : call.1 = none → call.2.errno = call'.2.errno

/-- A descriptor that is a handle is open. -/
def Open (s : State ν σ) (dirfd : DirFd) : Prop := ∀ n, dirfd = .fd n → s.files n ≠ none

@[simp] theorem after_cwd (outcome : Except Errno α × σ) : (s.after outcome).2.cwd = s.cwd := by
  unfold State.after
  split <;> rfl

@[simp] theorem after_files (outcome : Except Errno α × σ) : (s.after outcome).2.files = s.files := by
  unfold State.after
  split <;> rfl

theorem later_after (outcome : Except Errno α × σ) : s.Later (s.after outcome).2 := by
  unfold State.after
  split <;> exact List.prefix_refl _

@[simp] theorem after_fs (outcome : Except Errno α × σ) : (s.after outcome).2.fs = outcome.2 := by
  unfold State.after
  split <;> rfl

@[simp] theorem after_value (outcome : Except Errno α × σ) : (s.after outcome).1 = outcome.1.toOption := by
  unfold State.after
  split
  · next h => rw [h]; rfl
  · next h => rw [h]; rfl

theorem after_errno {outcome : Except Errno α × σ} {error : Errno} (h : outcome.1 = .error error) :
    (s.after outcome).2.errno = error := by
  rw [State.after, h]

theorem exists_error {outcome : Except Errno α × σ} (h : outcome.1.toOption = none) :
    ∃ error, outcome.1 = .error error := by
  cases hvalue : outcome.1 with
  | error error => exact ⟨error, rfl⟩
  | ok value =>
    rw [hvalue] at h
    exact nomatch h

theorem State.Still.tidy (h : s.Still s') (failed : Bool) : Tidy s none failed s' :=
  ⟨fun n _ => congrFun h.files n, nofun, Or.inl h.cwd⟩

/-! ## The directory of the handle -/

theorem prepareAtCwd_some (dirfd : DirFd) (path : PathText) (s : State ν σ) :
    k.prepareAtCwd (some dirfd) (some path) s =
      ((k.prepareFdCwd (handleOf dirfd path) s).1.map fun saved => (path, saved),
        (k.prepareFdCwd (handleOf dirfd path) s).2) := by
  rw [Kernel.prepareAtCwd, handleOf]
  by_cases h : path.head? = some '/'
  · simp only [if_pos h]
    rfl
  · simp only [if_neg h]

theorem Away.later {saved : Option Nat} (h : Away k s dirfd saved s') : s.Later s' := by
  cases h with
  | stayed => exact List.prefix_refl _
  | entered h => exact h.later

theorem Away.fs {saved : Option Nat} (h : Away k s dirfd saved s') : s'.fs = s.fs := by
  cases h with
  | stayed => rfl
  | entered h => exact h.fs

/-- The directory in which the process is now. -/
theorem Away.dirOf {saved : Option Nat} (h : Away k s dirfd saved s') (hopen : Open s dirfd) :
    k.dirOf dirfd s = .ok s'.cwd := by
  cases h with
  | stayed => rfl
  | @entered n fd file s' h =>
    have hfile : s.files n = some file := by
      rcases h.handle with hfile | hclosed
      · exact hfile
      · exact absurd hclosed (hopen n rfl)
    have hdir : (k.tree s.fs).isDir file.node = true := by
      have husable := h.usable
      rw [Kernel.fchdirError] at husable
      by_contra hdir
      rw [if_pos (by simpa using hdir)] at husable
      exact nomatch husable
    rw [Kernel.dirOf]
    simp only [hfile, hdir, if_true, h.cwd]

/-- Descriptors that are as they were once the saved one is closed. -/
theorem Away.files {saved : Option Nat} (h : Away k s dirfd saved s') (n : Nat) :
    (if saved = some n then none else s'.files n) = s.files n := by
  cases h with
  | stayed => rfl
  | @entered dirfd fd file s' h =>
    by_cases hn : n = fd
    · rw [if_pos (by rw [hn]), hn, lowest_free h.free]
    · rw [if_neg fun heq => hn (Option.some.inj heq).symm, h.files, if_neg hn]

/-- Descriptors that the operation leaves alone. -/
theorem Returned.files_eq {saved : Option Nat} {errno : Errno} {t : State ν σ} {restored : Bool × State ν σ}
    (h : Returned s saved errno t restored) (haway : Away k s dirfd saved s') (hfiles : t.files = s'.files) :
    restored.2.files = s.files := by
  funext n
  rw [h.files, hfiles]
  exact haway.files n

/-! ## One path -/

/-- The fallback on one path, with the handle that it uses. -/
theorem atCompat_some (call : PathCall) (dirfd : DirFd) (path : PathText) (s : State ν σ) :
    (∃ s', k.atCompat call (some dirfd) (some path) s = (none, s') ∧ s.Still s' ∧
      (¬ s'.Smooth ∨ handleOf dirfd path = .invalid ∧ s' = s.setErrno .ebadf)) ∨
    ∃ saved s', Away k s (handleOf dirfd path) saved s' ∧
      k.atCompat call (some dirfd) (some path) s =
        let called := k.pathCall call path s'
        let restored := k.restoreCwd saved called.2.errno called.2
        if restored.1 then (called.1, restored.2) else (none, restored.2) := by
  rw [Kernel.atCompat, prepareAtCwd_some]
  rcases prepareFdCwd_cases k (handleOf dirfd path) s with
    ⟨hinvalid, h⟩ | ⟨s', h, hstill, hfailed⟩ | ⟨saved, s', h, haway⟩
  · exact Or.inl ⟨s.setErrno .ebadf, by simp only [h, Option.map_none], still_setErrno _, Or.inr ⟨hinvalid, rfl⟩⟩
  · exact Or.inl ⟨s', by simp only [h, Option.map_none], hstill, Or.inl hfailed⟩
  · exact Or.inr ⟨saved, s', haway, by simp only [h, Option.map_some]⟩

theorem atCompat_spec (call : PathCall) (dirfd : DirFd) (path : PathText) (s : State ν σ) :
    Tidy s none (k.atCompat call (some dirfd) (some path) s).1.isNone
        (k.atCompat call (some dirfd) (some path) s).2 ∧
      ((k.atCompat call (some dirfd) (some path) s).2.Smooth → Open s (handleOf dirfd path) →
        Same (k.atCompat call (some dirfd) (some path) s) (k.atCall call dirfd path s)) := by
  rcases atCompat_some (k := k) call dirfd path s with ⟨s', h, hstill, hwhy⟩ | ⟨saved, s', haway, h⟩
  · rw [h]
    refine ⟨hstill.tidy _, fun hsmooth _ => ?_⟩
    rcases hwhy with hfailed | ⟨hinvalid, rfl⟩
    · exact absurd hsmooth hfailed
    · rw [Kernel.atCall, hinvalid]
      exact ⟨rfl, rfl, rfl, rfl, fun _ => rfl⟩
  · have hreturned : Returned s saved (k.pathCall call path s').2.errno (k.pathCall call path s').2
        (k.restoreCwd saved (k.pathCall call path s').2.errno (k.pathCall call path s').2) :=
      restoreCwd_returned haway (after_cwd _) (fun fd _ => congrFun (after_files _) fd) (later_after _) _
    have hfiles : (k.restoreCwd saved (k.pathCall call path s').2.errno (k.pathCall call path s').2).2.files =
        s.files := hreturned.files_eq haway (after_files _)
    rw [h]
    dsimp only
    cases hrestored : (k.restoreCwd saved (k.pathCall call path s').2.errno (k.pathCall call path s').2).1 with
    | false =>
      rw [if_neg Bool.false_ne_true]
      obtain ⟨hfailed, hcwd⟩ := hreturned.failure hrestored
      refine ⟨⟨fun n _ => congrFun hfiles n, nofun, ?_⟩, fun hsmooth _ => absurd hsmooth hfailed⟩
      exact hcwd.imp id fun hreturn => ⟨rfl, hreturn⟩
    | true =>
      rw [if_pos rfl]
      obtain ⟨hcwd, herrno⟩ := hreturned.success hrestored
      refine ⟨⟨fun n _ => congrFun hfiles n, nofun, Or.inl hcwd⟩, fun _ hopen => ?_⟩
      have hfs : (k.pathCall call path s').2.fs = (k.perform call s'.cwd path s.fs).2 := by
        rw [Kernel.pathCall, after_fs, haway.fs]
      rw [Kernel.atCall, haway.dirOf hopen]
      refine ⟨?_, ?_, hcwd.trans (after_cwd _).symm, hfiles.trans (after_files _).symm, fun hnone => ?_⟩
      · rw [Kernel.pathCall, after_value, after_value, haway.fs]
      · rw [hreturned.fs, hfs, after_fs]
      · rw [Kernel.pathCall, after_value, haway.fs] at hnone
        obtain ⟨error, herror⟩ := exists_error hnone
        rw [herrno, Kernel.pathCall, haway.fs, after_errno herror, after_errno herror]

end TimeCapsule.Vfs
