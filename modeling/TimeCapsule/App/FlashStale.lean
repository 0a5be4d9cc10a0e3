import TimeCapsule.App.FlashStore
import TimeCapsule.Lib.Runs

/-!
# Backups that no longer match

Once a write may have modified the device, nothing must be planned or written from the backup that was
made before.  The store remembers this in `backupSnapshotStale`, which only some of the endings of a
write set.
-/

namespace TimeCapsule.App

open Lib

/-! ## Clients -/

namespace BackendClient

variable {b : BackendClient} {event : BackendEvent}

@[simp] theorem isRunning_clear (b : BackendClient) :
    (b.settled b.clear).isRunning = b.isRunning := by
  unfold settled clear
  split
  · rfl
  · rfl

theorem pendingConfirmation_clear (h : b.isRunning = false) :
    (b.settled b.clear).pendingConfirmation = none := by
  simp [settled, clear, h]

@[simp] theorem isRunning_appendEvent (b : BackendClient) (event : BackendEvent) :
    (b.settled (b.appendEvent event)).isRunning = b.isRunning := by
  unfold settled appendEvent
  dsimp only
  split <;> simp only [List.getLastD_cons, List.getLastD_nil] <;> split <;> rfl

theorem isRunning_run (operation id : String) (params : JsonObject)
    (context : Option DeviceRuntimeContext) (b : BackendClient) :
    (b.settled (b.run operation params context id)).isRunning = true := by
  unfold run
  split
  · assumption
  · rfl

@[simp] theorem isRunning_finishRun (b : BackendClient) (exitCode : Int) :
    (b.settled (b.finishRun exitCode)).isRunning = false := rfl

@[simp] theorem pendingConfirmation_finishRun (b : BackendClient) (exitCode : Int) :
    (b.settled (b.finishRun exitCode)).pendingConfirmation = b.pendingConfirmation := rfl

/-- Who confirms what waits has it run. -/
theorem busy_confirmPending (h : (b.isRunning || b.pendingConfirmation.isSome) = true) :
    ((b.settled b.confirmPending).isRunning ||
      (b.settled b.confirmPending).pendingConfirmation.isSome) = true := by
  cases hpending : b.pendingConfirmation with
  | none =>
    rw [hpending, Option.isSome_none, Bool.or_false] at h
    simp [confirmPending, settled, hpending, h]
  | some confirmation =>
    cases hrunning : b.isRunning with
    | true => simp [confirmPending, settled, hpending, hrunning]
    | false => simp [confirmPending, settled, run, hpending, hrunning]

end BackendClient

namespace FlashWorkflowStore

variable {p : Platform} {s s' : FlashWorkflowStore} {mode : FlashPlanMode} {start : FlashStart}
  {event : FlashEvent}

/-! ## What is refused -/

/-- Nothing can be planned or written, and no helper is started for it. -/
structure Refuses (p : Platform) (s : FlashWorkflowStore) : Prop where
  canPlan : s.canPlan = false
  canWritePatch : s.canWritePatch p = false
  canWriteRestore : s.canWriteRestore p = false
  planFlash : ∀ mode start, (s.planFlash p mode start).2 = false
  write : ∀ mode start, (s.write p mode start).2 = false

theorem planFlash_refused (h : s.canPlan = false) : s.planFlash p mode start = (s.reject, false) := by
  rw [planFlash, h]
  rfl

theorem write_busy (h : s.isBusy = true) : s.write p mode start = (s.reject, false) := by
  unfold write
  rw [if_pos h, ite_self]

theorem write_without_plan (h : s.plan = none) : s.write p mode start = (s.reject, false) := by
  unfold write
  rw [h, ite_self, ite_self]

theorem refuses_of_busy (h : s.isBusy = true) : Refuses p s where
  canPlan := by simp [canPlan, h]
  canWritePatch := by simp [canWritePatch, canWrite, h]
  canWriteRestore := by simp [canWriteRestore, canWrite, h]
  planFlash mode start := by rw [planFlash_refused (by simp [canPlan, h])]
  write mode start := by rw [write_busy h]

/-- A store without a plan, whose backup is stale or missing, and which runs a backup at most. -/
structure Locked (s : FlashWorkflowStore) : Prop where
  plan : s.plan = none
  backup : s.backupSnapshotStale = true ∨ s.backup = none
  action : ∀ action ∈ s.activeAction, action = .backupAndInspect

theorem Locked.canPlan (h : Locked s) : s.canPlan = false := by
  rcases h.backup with hstale | hnone
  · simp [FlashWorkflowStore.canPlan, hstale]
  · simp [FlashWorkflowStore.canPlan, hnone]

def writing (s : FlashWorkflowStore) : Bool := s.activeAction.any (·.isWrite)

/-- The store hears of the event. -/
def hears (event : FlashEvent) (s : FlashWorkflowStore) : Bool :=
  s.activeOperation.any (·.accepts event.toBackendEvent) && event.operation = "flash"

/-- A write says that the device may have been modified. -/
def reports (event : FlashEvent) (s : FlashWorkflowStore) : Bool :=
  s.hears event && s.writing &&
    (event.type = "stage" && event.stage.any modifyingStages.contains ||
      event.type = "result" && event.write.any writeMayHaveModifiedFirmware)

/-- A backup has been made, and decodes. -/
def backsUp (event : FlashEvent) (s : FlashWorkflowStore) : Bool :=
  s.hears event && s.activeAction = some .backupAndInspect && event.type = "result" &&
    event.ok != some false && event.backup.isSome

/-- The endings of a write that are seen to have modified the device: an error right after a stage that
modifies it, and a result that says so. -/
structure EndsSeen (event : FlashEvent) (s : FlashWorkflowStore) : Prop where
  error : event.type = "error" → event.code ≠ some "confirmation_required" →
    event.code ≠ some "confirmation_cancelled" ∧ s.currentStageMayHaveModifiedFirmware = true
  result : event.type = "result" →
    event.ok ≠ some false ∧ event.write.any writeMayHaveModifiedFirmware = true

/-! ## Events -/

theorem process_unheard (h : s.hears event = false) : s.process p event = s := by
  unfold process
  cases hop : s.activeOperation with
  | none => rfl
  | some op =>
    simp only
    cases haccepts : op.accepts event.toBackendEvent with
    | false => rfl
    | true =>
      rw [hears, hop, Option.any_some, haccepts, Bool.true_and, decide_eq_false_iff_not] at h
      rw [if_pos rfl, handle, if_pos h]

theorem process_heard (h : s.hears event = true) :
    s.process p event = s.handle p event ∧ event.operation = "flash" := by
  unfold process
  rw [hears, Bool.and_eq_true, decide_eq_true_eq] at h
  cases hop : s.activeOperation with
  | none =>
    rw [hop] at h
    simp at h
  | some op =>
    rw [hop, Option.any_some] at h
    exact ⟨if_pos h.1, h.2⟩

/-- What an event does: nothing, a stage, an error, or a result. -/
theorem process_cases (p : Platform) (event : FlashEvent) (s : FlashWorkflowStore) :
    s.process p event = s ∨
    (s.hears event = true ∧ event.type = "stage" ∧ ∃ stage, event.stage = some stage ∧
      s.process p event =
        { s with currentStage := some (event.operation, stage), state := s.stateForStage stage }) ∨
    (s.hears event = true ∧ event.type = "error" ∧ s.process p event = s.applyError event) ∨
    (s.hears event = true ∧ event.type = "result" ∧ event.ok = some false ∧
      s.process p event = s.applyFalseResult) ∨
    (s.hears event = true ∧ event.type = "result" ∧ event.ok ≠ some false ∧
      s.process p event = s.applyResult p event) := by
  cases hheard : s.hears event with
  | false => exact .inl (process_unheard hheard)
  | true =>
    obtain ⟨hprocess, hflash⟩ := process_heard (p := p) hheard
    rw [hprocess, handle, if_neg (not_not.mpr hflash)]
    by_cases hstage : event.type = "stage"
    · rw [if_pos hstage]
      cases hname : event.stage with
      | some stage => exact .inr (.inl ⟨rfl, hstage, stage, rfl, rfl⟩)
      | none =>
        left
        simp [hstage]
    · rw [if_neg hstage]
      by_cases herror : event.type = "error"
      · exact .inr (.inr (.inl ⟨rfl, herror, if_pos herror⟩))
      · simp only [if_neg herror]
        by_cases hresult : event.type = "result"
        · rw [if_neg (not_not.mpr hresult)]
          by_cases hok : event.ok = some false
          · exact .inr (.inr (.inr (.inl ⟨trivial, hresult, hok, if_pos hok⟩)))
          · exact .inr (.inr (.inr (.inr ⟨trivial, hresult, hok, if_neg hok⟩)))
        · exact .inl (if_pos hresult)

/-- The end of an operation with a result. -/
def completed (s : FlashWorkflowStore) : FlashWorkflowStore := { s with currentStage := none }.finish

theorem applyResult_backup (event : FlashEvent) (h : s.activeAction = some .backupAndInspect) :
    (event.backup = none ∧ s.applyResult p event = s.contractDecodeFailed) ∨
      ∃ backup, event.backup = some backup ∧
        s.applyResult p event = (s.applyBackup backup).completed := by
  unfold applyResult
  rw [h]
  cases event.backup with
  | none => exact .inl ⟨rfl, rfl⟩
  | some backup => exact .inr ⟨backup, rfl, rfl⟩

theorem applyResult_write (event : FlashEvent) (h : s.writing = true) :
    (event.write = none ∧ s.applyResult p event = s.contractDecodeFailed) ∨
      ∃ result, event.write = some result ∧
        s.applyResult p event = (s.applyWrite result).completed := by
  obtain ⟨action, haction, hwrite⟩ := (Option.any_eq_true _ _).mp h
  have hkind : action = .writePatch ∨ action = .writeRestore := by
    simpa [FlashUserAction.isWrite] using hwrite
  unfold applyResult
  rcases hkind with rfl | rfl <;> rw [haction] <;> cases event.write with
  | none => exact .inl ⟨rfl, rfl⟩
  | some result => exact .inr ⟨result, rfl, rfl⟩

theorem applyResult_plan (event : FlashEvent) {action : FlashUserAction} (h : s.activeAction = some action)
    (hmode : action.planned = some mode) :
    (event.plan = none ∧ s.applyResult p event = s.contractDecodeFailed) ∨
      ∃ plan, event.plan = some plan ∧
        s.applyResult p event = (s.applyPlan p plan).completed := by
  unfold applyResult
  rw [h]
  cases action with
  | backupAndInspect | writePatch | writeRestore => cases hmode
  | planPatch | planRestore | checkApple | downloadApple =>
    cases event.plan with
    | none => exact .inl ⟨rfl, rfl⟩
    | some plan => exact .inr ⟨plan, rfl, rfl⟩

theorem applyResult_none (h : s.activeAction = none) : s.applyResult p event = s.completed := by
  unfold applyResult
  rw [h]
  rfl

/-- An action is the backup, a write or a plan. -/
theorem action_cases (s : FlashWorkflowStore) : s.activeAction = none ∨
    s.activeAction = some .backupAndInspect ∨ s.writing = true ∨
    ∃ action mode, s.activeAction = some action ∧ action.planned = some mode := by
  cases haction : s.activeAction with
  | none => exact .inl rfl
  | some action =>
    cases action with
    | backupAndInspect => exact .inr (.inl rfl)
    | writePatch | writeRestore => exact .inr (.inr (.inl (by rw [writing, haction]; rfl)))
    | planPatch => exact .inr (.inr (.inr ⟨_, .patch, rfl, rfl⟩))
    | planRestore => exact .inr (.inr (.inr ⟨_, .restore, rfl, rfl⟩))
    | checkApple => exact .inr (.inr (.inr ⟨_, .checkApple, rfl, rfl⟩))
    | downloadApple => exact .inr (.inr (.inr ⟨_, .downloadOnly, rfl, rfl⟩))

/-! ### What events leave alone -/

theorem backend_completed (s : FlashWorkflowStore) : s.completed.backend = s.backend := rfl

theorem backend_applyPlan (plan : FlashPlanPayload) : (s.applyPlan p plan).backend = s.backend := by
  unfold applyPlan
  dsimp only
  split <;> rfl

theorem backend_applyWrite (result : FlashWritePayload) :
    (s.applyWrite result).backend = s.backend := by
  unfold applyWrite
  dsimp only
  split <;> rfl

theorem backend_applyResult : (s.applyResult p event).backend = s.backend := by
  rcases action_cases s with h | h | h | ⟨action, mode, h, hmode⟩
  · rw [applyResult_none h]
    rfl
  · rcases applyResult_backup event h with ⟨-, h⟩ | ⟨backup, -, h⟩ <;> rw [h] <;> rfl
  · rcases applyResult_write event h with ⟨-, h⟩ | ⟨result, -, h⟩ <;> rw [h]
    · rfl
    · rw [backend_completed, backend_applyWrite]
  · rcases applyResult_plan event h hmode with ⟨-, h⟩ | ⟨plan, -, h⟩ <;> rw [h]
    · rfl
    · rw [backend_completed, backend_applyPlan]

theorem backend_applyError : (s.applyError event).backend = s.backend := by
  unfold applyError
  dsimp only
  split
  · rfl
  · split
    · rfl
    · split <;> rfl

/-- Events of the helper reach the client before the store, which does not touch it. -/
theorem backend_process : (s.process p event).backend = s.backend := by
  rcases process_cases p event s with h | ⟨-, -, stage, -, h⟩ | ⟨-, -, h⟩ | ⟨-, -, -, h⟩ | ⟨-, -, -, h⟩
  · rw [h]
  · rw [h]
  · rw [h, backend_applyError]
  · rw [h]
    rfl
  · rw [h, backend_applyResult]

/-! ## A write that has modified the device -/

/-- After an event of a write that is seen to have modified the device, when it ends, the write goes on
or the store is locked. -/
theorem process_writing (hwriting : s.writing = true)
    (hseen : s.hears event = true → EndsSeen event s) :
    (s.process p event).writing = true ∨ Locked (s.process p event) := by
  rcases process_cases p event s with h | ⟨-, -, stage, -, h⟩ | ⟨hheard, herror, h⟩ |
    ⟨hheard, hresult, hok, -⟩ | ⟨hheard, hresult, hok, h⟩
  · rw [h]
    exact .inl hwriting
  · rw [h]
    exact .inl hwriting
  · rw [h]
    by_cases hrequired : event.code = some "confirmation_required"
    · rw [applyError, if_pos hrequired]
      exact .inl hwriting
    · obtain ⟨hcancelled, hstage⟩ := (hseen hheard).error herror hrequired
      rw [applyError, if_neg hrequired, if_neg hcancelled]
      have hmarks : (s.activeAction.any (·.isWrite) && s.currentStageMayHaveModifiedFirmware) =
          true := by
        rw [hstage, Bool.and_true]
        exact hwriting
      rw [if_pos hmarks]
      exact .inr ⟨rfl, .inl rfl, by simp [finish]⟩
  · exact absurd hok ((hseen hheard).result hresult).1
  · obtain ⟨-, hmodified⟩ := (hseen hheard).result hresult
    rw [h]
    rcases applyResult_write event hwriting with ⟨hnone, -⟩ | ⟨result, hsome, happly⟩
    · rw [hnone] at hmodified
      cases hmodified
    · rw [hsome, Option.any_some] at hmodified
      rw [happly, applyWrite, if_pos hmodified]
      exact .inr ⟨rfl, .inl rfl, by simp [completed, finish]⟩

/-- A locked store stays so until a backup has been made. -/
theorem Locked.process (h : Locked s) (hbackup : s.backsUp event = false) :
    Locked (s.process p event) := by
  have hnot : s.writing = false := by
    unfold writing
    cases haction : s.activeAction with
    | none => rfl
    | some action =>
      rw [h.action action haction]
      rfl
  rcases process_cases p event s with h' | ⟨-, -, stage, -, h'⟩ | ⟨-, -, h'⟩ | ⟨-, -, -, h'⟩ |
    ⟨hheard, hresult, hok, h'⟩ <;> rw [h']
  · exact h
  · exact ⟨h.plan, h.backup, h.action⟩
  · unfold applyError
    rw [show s.activeAction.any (·.isWrite) = false from hnot, Bool.false_and]
    split
    · exact ⟨h.plan, h.backup, h.action⟩
    · split
      · exact ⟨h.plan, h.backup, by simp [finish]⟩
      · exact ⟨h.plan, h.backup, by simp [finish]⟩
  · exact ⟨h.plan, h.backup, by simp [applyFalseResult]⟩
  · rcases action_cases s with haction | haction | haction | ⟨action, mode, haction, hmode⟩
    · rw [applyResult_none haction]
      exact ⟨h.plan, h.backup, by simp [completed, finish]⟩
    · rcases applyResult_backup event haction with ⟨-, happly⟩ | ⟨backup, hsome, -⟩
      · rw [happly]
        exact ⟨h.plan, h.backup, by simp [contractDecodeFailed, finish]⟩
      · simp [backsUp, hheard, haction, hresult, hok, hsome] at hbackup
    · rw [hnot] at haction
      cases haction
    · rw [h.action action haction] at hmode
      cases hmode

/-! ## Actions -/

theorem startRun_cases (p : Platform) (action : FlashUserAction) (params : JsonObject)
    (start : FlashStart) (s : FlashWorkflowStore) :
    s.startRun p action params start = (s.reject, false) ∨
    s.startRun p action params start = (s.resetRunState.reject, false) ∨
    (s.isBusy = false ∧ s.startRun p action params start =
      ({ s.resetRunState with
        backend := s.resetRunState.backend.settled (s.resetRunState.backend.run "flash"
          (injectingPassword p start.password params) start.context start.id)
        activeOperation := some ⟨start.id, "flash", start.profileID, start.context⟩
        activeAction := some action }, true)) := by
  unfold startRun
  by_cases hbusy : s.isBusy = true
  · exact .inl (if_pos hbusy)
  · rw [if_neg hbusy]
    by_cases hconflict : start.conflict = true
    · exact .inr (.inl (if_pos hconflict))
    · exact .inr (.inr ⟨Bool.not_eq_true _ ▸ hbusy, if_neg hconflict⟩)

theorem Locked.reject (h : Locked s) : Locked s.reject := ⟨h.plan, h.backup, h.action⟩

theorem Locked.resetRunState (h : Locked s) : Locked s.resetRunState :=
  ⟨h.plan, h.backup, fun action haction => absurd haction (by simp [FlashWorkflowStore.resetRunState])⟩

theorem Locked.backupAndInspect (h : Locked s) : Locked (s.backupAndInspect p start).1 := by
  unfold FlashWorkflowStore.backupAndInspect
  split
  · exact h.reject
  · rcases startRun_cases p .backupAndInspect flashBackupParams start s with hrun | hrun | ⟨-, hrun⟩
    · rw [hrun]
      exact h.reject
    · rw [hrun]
      exact h.resetRunState.reject
    · rw [hrun]
      exact ⟨rfl, .inr rfl, fun action haction => (Option.some.inj haction).symm⟩

theorem Locked.invalidate (h : Locked s) :
    Locked (s.invalidatePlanIfFirmwareSelectionChanged p) := by
  unfold invalidatePlanIfFirmwareSelectionChanged
  simp only [h.plan, Option.isSome_none, Bool.and_false, Bool.false_and, Bool.false_eq_true,
    if_false]
  exact h

theorem Locked.refresh (h : Locked s) (supportsFlashBootHook : Bool) :
    Locked (s.refresh supportsFlashBootHook) := by
  unfold FlashWorkflowStore.refresh
  dsimp only
  split
  · exact ⟨h.plan, h.backup, h.action⟩
  · exact ⟨h.plan, h.backup, h.action⟩

theorem backsUp_cancelled (confirmation : PendingConfirmation) :
    s.backsUp (cancelled confirmation) = false := by
  simp [backsUp, cancelled]

theorem Locked.cancelPendingConfirmation (h : Locked s) : Locked (s.cancelPendingConfirmation p) := by
  have hsettled : Locked { s with
      backend := s.backend.settled s.backend.cancelPendingConfirmation } :=
    ⟨h.plan, h.backup, h.action⟩
  unfold FlashWorkflowStore.cancelPendingConfirmation
  dsimp only
  split
  · exact hsettled.process (backsUp_cancelled _)
  · exact hsettled

/-! ### While a write goes on -/

/-- A write goes on: its helper runs or waits for a confirmation. -/
def GoesOn (s : FlashWorkflowStore) : Prop := s.writing = true ∧ s.isBusy = true

theorem GoesOn.backupAndInspect (h : GoesOn s) : GoesOn (s.backupAndInspect p start).1 := by
  have hno : s.canBackup = false := by simp [canBackup, h.2]
  rw [FlashWorkflowStore.backupAndInspect, hno]
  exact h

theorem GoesOn.planFlash (h : GoesOn s) : GoesOn (s.planFlash p mode start).1 := by
  rw [planFlash_refused (refuses_of_busy (p := p) h.2).canPlan]
  exact h

theorem GoesOn.write (h : GoesOn s) : GoesOn (s.write p mode start).1 := by
  rw [write_busy h.2]
  exact h

theorem GoesOn.invalidate (h : GoesOn s) :
    GoesOn (s.invalidatePlanIfFirmwareSelectionChanged p) := by
  unfold invalidatePlanIfFirmwareSelectionChanged
  simp only [h.2, Bool.not_true, Bool.false_and, Bool.false_eq_true, if_false]
  exact h

theorem GoesOn.refresh (h : GoesOn s) (supportsFlashBootHook : Bool) :
    GoesOn (s.refresh supportsFlashBootHook) := by
  unfold FlashWorkflowStore.refresh
  dsimp only
  split
  · exact h
  · exact h

theorem GoesOn.confirmPending (h : GoesOn s) : GoesOn s.confirmPending :=
  ⟨h.1, BackendClient.busy_confirmPending h.2⟩

/-! ## Runs -/

end FlashWorkflowStore

open FlashWorkflowStore

/-- A store, and whether a write has said since the last backup that the device may have been
modified. -/
structure WatchedFlash where
  store : FlashWorkflowStore
  modified : Bool

namespace WatchedFlash

variable {p : Platform} {w w' : WatchedFlash}

def after (p : Platform) (w : WatchedFlash) (step : Step) : WatchedFlash where
  store := w.store.after p step
  modified :=
    match step with
    | .helperEvent event =>
        !w.store.backsUp event && (w.modified || w.store.reports event)
    | .clear => false
    | _ => w.modified

/-- When a write ends that may have modified the device, this is seen: it ends with an event that says
so, and not with its helper, or a confirmation that is not given. -/
def EndingSeen (w : WatchedFlash) : Step → Prop
  | .helperEvent event =>
      (w.modified || w.store.reports event) = true → w.store.writing = true →
        w.store.hears event = true → EndsSeen event w.store
  | .helperFinished _ =>
      w.modified = true → w.store.writing = true →
        w.store.backend.pendingConfirmation.isSome = true
  | .cancelPendingConfirmation =>
      w.modified = true → w.store.writing = true →
        w.store.backend.pendingConfirmation.isSome = true → w.store.backend.isRunning = true
  | _ => True

/-- What has been modified is being written, or locked. -/
def Inv (w : WatchedFlash) : Prop := w.modified = true → GoesOn w.store ∨ Locked w.store

theorem Inv.helperEvent {event : FlashEvent} (h : w.Inv)
    (hrunning : w.store.backend.isRunning = true) (hseen : w.EndingSeen (.helperEvent event)) :
    (w.after p (.helperEvent event)).Inv := by
  intro hmodified
  have hmodified : (!w.store.backsUp event && (w.modified || w.store.reports event)) = true :=
    hmodified
  rw [Bool.and_eq_true, Bool.not_eq_true'] at hmodified
  obtain ⟨hbackup, hreported⟩ := hmodified
  have hbusy : w.store.isBusy = true := by rw [isBusy, hrunning, Bool.true_or]
  have hcases : GoesOn w.store ∨ Locked w.store := by
    rcases Bool.or_eq_true_iff.mp hreported with hold | hnew
    · exact h hold
    · rw [reports, Bool.and_eq_true, Bool.and_eq_true] at hnew
      exact .inl ⟨hnew.1.2, hbusy⟩
  rcases hcases with hon | hlocked
  · have hends : w.store.hears event = true → EndsSeen event w.store := hseen hreported hon.1
    rcases process_writing (p := p) (s := { w.store with
      backend := w.store.backend.settled (w.store.backend.appendEvent event.toBackendEvent) }) hon.1
      (fun hheard => ⟨(hends hheard).error, (hends hheard).result⟩) with hwriting | hlocked
    · refine .inl ⟨hwriting, ?_⟩
      show FlashWorkflowStore.isBusy (FlashWorkflowStore.process p event _) = true
      rw [isBusy, backend_process, BackendClient.isRunning_appendEvent, hrunning, Bool.true_or]
    · exact .inr hlocked
  · exact .inr (Locked.process ⟨hlocked.plan, hlocked.backup, hlocked.action⟩ hbackup)

theorem Inv.after {step : Step} (h : w.Inv) (henabled : w.store.Enabled step)
    (hseen : w.EndingSeen step) : (w.after p step).Inv := by
  cases step with
  | backupAndInspect start => exact fun hm => (h hm).imp (·.backupAndInspect) (·.backupAndInspect)
  | planFlash mode start =>
    refine fun hm => (h hm).imp (·.planFlash) fun hlocked => ?_
    show Locked (w.store.planFlash p mode start).1
    rw [planFlash_refused hlocked.canPlan]
    exact hlocked.reject
  | write mode start =>
    refine fun hm => (h hm).imp (·.write) fun hlocked => ?_
    show Locked (w.store.write p mode start).1
    rw [write_without_plan hlocked.plan]
    exact hlocked.reject
  | setFirmwareVersion text =>
    refine fun hm => (h hm).imp (fun hon => GoesOn.invalidate hon) fun hlocked => ?_
    exact Locked.invalidate ⟨hlocked.plan, hlocked.backup, hlocked.action⟩
  | setFirmwareTemplatePath text =>
    refine fun hm => (h hm).imp (fun hon => GoesOn.invalidate hon) fun hlocked => ?_
    exact Locked.invalidate ⟨hlocked.plan, hlocked.backup, hlocked.action⟩
  | refresh supports => exact fun hm => (h hm).imp (·.refresh supports) (·.refresh supports)
  | confirmPending =>
    refine fun hm => (h hm).imp (·.confirmPending) fun hlocked => ?_
    exact ⟨hlocked.plan, hlocked.backup, hlocked.action⟩
  | cancelPendingConfirmation =>
    refine fun hm => (h hm).imp (fun hon => ?_) (·.cancelPendingConfirmation)
    have hnothing := hseen hm hon.1
    show GoesOn (w.store.cancelPendingConfirmation p)
    unfold FlashWorkflowStore.cancelPendingConfirmation
    cases hpending : w.store.backend.pendingConfirmation with
    | none =>
      simp only [BackendClient.cancelPendingConfirmation, hpending]
      exact hon
    | some confirmation =>
      have hrunning : w.store.backend.isRunning = true := hnothing (by rw [hpending]; rfl)
      simp only [BackendClient.cancelPendingConfirmation, hpending, hrunning]
      exact hon
  | clear => exact fun hm => absurd hm Bool.false_ne_true
  | helperEvent event => exact h.helperEvent henabled hseen
  | helperFinished exitCode =>
    refine fun hm => (h hm).imp (fun hon => ⟨hon.1, ?_⟩) fun hlocked => ?_
    · have hpending := hseen hm hon.1
      show (false || w.store.backend.pendingConfirmation.isSome) = true
      rw [hpending]
      rfl
    · exact ⟨hlocked.plan, hlocked.backup, hlocked.action⟩

end WatchedFlash

end TimeCapsule.App
