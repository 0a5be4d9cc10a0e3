import TimeCapsule.App.DeployStore
import TimeCapsule.App.Distinct
import TimeCapsule.App.FlashStale

/-!
# What a profile keeps of an installation

When an installation is over, its profile should tell how it has ended.  The store says so to its
dashboard, and this to a task; both can be overtaken by what happens next.
-/

namespace TimeCapsule.App

open Lib DeployDashboard

/-! ## What is told -/

/-- What an event says of the installation that it ends. -/
def DeployEvent.ending (event : DeployEvent) : Option DeviceDeployStateStatus :=
  if event.operation ≠ "deploy" then none
  else if event.type = "error" then
    if event.code = some "confirmation_required" then none else some .failed
  else if event.type ≠ "result" then none
  else if event.ok = some false then some .failed
  else if event.result.isOk then some .succeeded
  else some .failed

/-- A dashboard, the installation started last, what its helper has said of its end, and whether that
has been written. -/
structure TrackedDeploy where
  dashboard : DeployDashboard
  last : Option ActiveOperation
  outcome : Option DeviceDeployStateStatus
  persisted : Bool

namespace TrackedDeploy

variable {p : Platform} {w : TrackedDeploy} {d : DeployDashboard} {operation : ActiveOperation}

def after (p : Platform) (w : TrackedDeploy) (step : Step) : TrackedDeploy :=
  let d := w.dashboard.after p step
  match step with
  | .runDeploy start _ =>
      match (w.dashboard.store.runDeploy p w.dashboard.profile.id start).2 with
      | some operation => ⟨d, some operation, none, false⟩
      | none => { w with dashboard := d }
  | .helperEvent event =>
      { w with
        dashboard := d
        outcome := w.outcome.or
          (if w.last.any (·.accepts event.toBackendEvent) then event.ending else none) }
  | .runTask task _ =>
      { w with
        dashboard := d
        persisted := w.persisted ||
          match task with
          | .persistFailed operation => w.last = some operation
          | .persistSucceeded operation _ _ => w.last = some operation
          | _ => false }
  | _ => { w with dashboard := d }

/-- The last installation goes on, as far as its helper has said. -/
def Following (w : TrackedDeploy) : Prop := w.last.isSome = true ∧ w.outcome = none

/-- The profile names no other operation. -/
def Names (profile : DeviceProfile) (operation : ActiveOperation) : Prop :=
  (profile.lastDeployState.bind (·.operationID)).getD operation.id = operation.id

/-- A step that can happen. -/
def Enabled (w : TrackedDeploy) : Step → Prop
  | .runDeploy start _ => ∀ task ∈ w.dashboard.tasks, ∀ operation ∈ task.operation?, operation.id ≠ start.id
  | .helperEvent _ => w.dashboard.store.backend.isRunning = true
  | .helperFinished _ => w.dashboard.store.backend.isRunning = true
  | .runTask task _ => task ∈ w.dashboard.tasks
  | _ => True

/-- A task that writes or sees an ending does so in its turn: what the store has published is seen while
its operation is followed, and an outcome is written to the profile of its operation, as the last
thing. -/
def OrderlyTask (w : TrackedDeploy) : DashboardTask → Prop
  | .updateDeployState .deployed =>
      ∀ operation ∈ w.dashboard.activeDeployOperation, w.outcome = some .succeeded ∧
        w.dashboard.store.result.isSome = true ∧ Names w.dashboard.profile operation
  | .updateDeployState .deployFailed =>
      w.dashboard.activeDeployOperation.isSome = true → w.outcome = some .failed
  | .persistStarted _ _ => w.persisted = false
  | .persistFailed operation =>
      if w.last = some operation then Names w.dashboard.profile operation
      else w.persisted = true → w.outcome = some .failed
  | .persistSucceeded operation _ _ => w.last = some operation ∨ w.persisted = false
  | _ => True

/-- While an installation goes on, none is refused and no plan is asked for; its confirmation is not
cancelled; and its helper ends only when it has said how the installation has ended, or waits to be
confirmed.  The tasks run in their turn. -/
def Orderly (w : TrackedDeploy) : Step → Prop
  | .runPlan _ => ¬w.Following
  | .runDeploy _ _ => ¬w.Following
  | .cancelPendingConfirmation =>
      w.Following → w.dashboard.store.backend.pendingConfirmation.isSome = true →
        w.dashboard.store.backend.isRunning = true
  | .helperEvent event =>
      w.Following → event.type = "error" → event.code ≠ some "confirmation_cancelled"
  | .helperFinished _ =>
      w.Following → w.dashboard.store.backend.pendingConfirmation.isSome = true
  | .runTask task _ => OrderlyTask w task
  | _ => True

/-- The profile tells how the operation has ended. -/
structure Told (profile : DeviceProfile) (operation : ActiveOperation)
    (outcome : DeviceDeployStateStatus) : Prop where
  ended : outcome.isInProgress = false
  deployState : ∃ current, profile.lastDeployState = some current ∧
    current.operationID = some operation.id ∧ current.status = outcome
  runtimeState : ∃ runtime, profile.runtimeState = some runtime ∧ runtime.state ≠ .installing

/-- Once the installation started last is over, and no task waits, the profile tells how it has
ended. -/
def Kept (w : TrackedDeploy) : Prop :=
  w.dashboard.tasks = [] → w.dashboard.store.isBusy = false → ∀ operation ∈ w.last,
    ∃ outcome, w.outcome = some outcome ∧ Told w.dashboard.profile operation outcome

/-! ## Where an ending is -/

/-- The store follows an installation. -/
structure Follows (store : DeployWorkflowStore) (operation : ActiveOperation) : Prop where
  active : store.activeOperation = some operation
  state : store.state = .deploying ∨ store.state = .awaitingConfirmation
  busy : store.isBusy = true

/-- What the store has published of an ending. -/
def publishedState : DeviceDeployStateStatus → DeployWorkflowState
  | .succeeded => .deployed
  | _ => .deployFailed

/-- A task that writes an outcome of the operation. -/
def Writes (operation : ActiveOperation) (outcome : DeviceDeployStateStatus) (task : DashboardTask) :
    Prop :=
  (outcome = .failed ∧ task = .persistFailed operation) ∨
    (outcome = .succeeded ∧ ∃ profile result, Names profile operation ∧
      task = .persistSucceeded operation profile result)

/-- The ending of the last installation is still to come, published, seen, or written. -/
inductive Phase (w : TrackedDeploy) (operation : ActiveOperation) : Prop where
  | going (hnone : w.outcome = none)
      (hactive : w.dashboard.activeDeployOperation = some operation) (hpersisted : w.persisted = false)
      (hfollows : Follows w.dashboard.store operation)
  | published (outcome : DeviceDeployStateStatus) (hsome : w.outcome = some outcome)
      (hended : outcome = .succeeded ∨ outcome = .failed)
      (hactive : w.dashboard.activeDeployOperation = some operation) (hpersisted : w.persisted = false)
      (htask : .updateDeployState (publishedState outcome) ∈ w.dashboard.tasks)
  | seen (outcome : DeviceDeployStateStatus) (hsome : w.outcome = some outcome)
      (hactive : w.dashboard.activeDeployOperation = none) (hpersisted : w.persisted = false)
      (task : DashboardTask) (hmem : task ∈ w.dashboard.tasks) (hwrites : Writes operation outcome task)
  | written (outcome : DeviceDeployStateStatus) (hsome : w.outcome = some outcome)
      (hactive : w.dashboard.activeDeployOperation = none) (hpersisted : w.persisted = true)
      (htold : Told w.dashboard.profile operation outcome)

/-- The tasks that write an outcome of the operation write the one that its helper has told. -/
structure Own (w : TrackedDeploy) (operation : ActiveOperation) : Prop where
  profileID : operation.profileID.isSome = true
  failed : .persistFailed operation ∈ w.dashboard.tasks →
    w.outcome = some .failed ∧ w.dashboard.activeDeployOperation = none
  succeeded : ∀ profile result, .persistSucceeded operation profile result ∈ w.dashboard.tasks →
    Names profile operation ∧ w.outcome = some .succeeded ∧ w.dashboard.activeDeployOperation = none

structure Inv (w : TrackedDeploy) : Prop where
  idle : w.last = none → w.dashboard.activeDeployOperation = none
  phase : ∀ operation ∈ w.last, Phase w operation
  own : ∀ operation ∈ w.last, Own w operation

theorem Inv.kept (h : w.Inv) : Kept w := by
  intro htasks hidle operation hmem
  cases h.phase operation hmem with
  | going _ _ _ hfollows =>
    rw [hfollows.busy] at hidle
    cases hidle
  | published outcome _ _ _ _ htask =>
    rw [htasks] at htask
    cases htask
  | seen outcome _ _ _ task hmem _ =>
    rw [htasks] at hmem
    cases hmem
  | written outcome hsome _ _ htold => exact ⟨outcome, hsome, htold⟩

/-! ## What the store does -/

theorem mem_observe {store : DeployWorkflowStore} {task : DashboardTask} (h : task ∈ d.tasks) :
    task ∈ (d.observe store).tasks := List.mem_append_left _ h

/-- What the store publishes is not a task that writes an outcome. -/
theorem mem_of_mem_observe {store : DeployWorkflowStore} {task : DashboardTask}
    (h : task ∈ (d.observe store).tasks) (hop : task.operation? ≠ none) : task ∈ d.tasks := by
  rcases List.mem_append.mp h with h | h
  · exact h
  · obtain ⟨published, -, rfl⟩ := List.mem_map.mp h
    cases published <;> exact absurd rfl hop

/-- A store that changes leaves an installation alone that it does not follow any more. -/
theorem Inv.observe (h : w.Inv) {store : DeployWorkflowStore}
    (hfollows : w.Following → ∀ operation ∈ w.last, Follows store operation) :
    Inv { w with dashboard := w.dashboard.observe store } where
  idle := h.idle
  own operation hmem := by
    have hown := h.own operation hmem
    exact ⟨hown.profileID, fun hfailed => hown.failed (mem_of_mem_observe hfailed (by simp [DashboardTask.operation?])),
      fun profile result hsucceeded => hown.succeeded profile result
        (mem_of_mem_observe hsucceeded (by simp [DashboardTask.operation?]))⟩
  phase operation hmem := by
    have hlast : w.last.isSome = true := by rw [Option.mem_def.mp hmem]; rfl
    cases h.phase operation hmem with
    | going hnone hactive hpersisted _ =>
      have hstore := hfollows ⟨hlast, hnone⟩ operation hmem
      exact .going hnone hactive hpersisted ⟨hstore.active, hstore.state, hstore.busy⟩
    | published outcome hsome hended hactive hpersisted htask =>
      exact .published outcome hsome hended hactive hpersisted (mem_observe htask)
    | seen outcome hsome hactive hpersisted task hmem hwrites =>
      exact .seen outcome hsome hactive hpersisted task (mem_observe hmem) hwrites
    | written outcome hsome hactive hpersisted htold =>
      exact .written outcome hsome hactive hpersisted htold

section Store

variable {s : DeployWorkflowStore} {event : DeployEvent}

theorem Follows.setOptions (h : Follows s operation) (options : Except String DeployOptions) :
    Follows { s with currentOptions := options }.reconcilePlanFreshness operation := by
  have hno : (s.state = .planReady || s.state = .planStale : Bool) = false := by
    rcases h.state with hstate | hstate <;> rw [hstate] <;> rfl
  unfold DeployWorkflowStore.reconcilePlanFreshness
  simp only [hno, Bool.not_false, Bool.or_true, if_true]
  exact ⟨h.active, h.state, h.busy⟩

theorem Follows.confirmPending (h : Follows s operation) : Follows s.confirmPending operation :=
  ⟨h.active, h.state, BackendClient.busy_confirmPending h.busy⟩

theorem Follows.cancelPendingConfirmation (h : Follows s operation)
    (hnothing : s.backend.pendingConfirmation.isSome = true → s.backend.isRunning = true) :
    Follows s.cancelPendingConfirmation operation := by
  unfold DeployWorkflowStore.cancelPendingConfirmation
  cases hpending : s.backend.pendingConfirmation with
  | none =>
    simp only [BackendClient.cancelPendingConfirmation, hpending]
    exact h
  | some confirmation =>
    have hrunning : s.backend.isRunning = true := hnothing (by rw [hpending]; rfl)
    simp only [BackendClient.cancelPendingConfirmation, hpending, hrunning]
    exact h

theorem Follows.finishRun (h : Follows s operation)
    (hpending : s.backend.pendingConfirmation.isSome = true) (exitCode : Int) :
    Follows { s with backend := s.backend.settled (s.backend.finishRun exitCode) } operation := by
  refine ⟨h.active, h.state, ?_⟩
  show (false || s.backend.pendingConfirmation.isSome) = true
  rw [hpending]
  rfl

theorem Follows.appendEvent (h : Follows s operation) (hrunning : s.backend.isRunning = true)
    (event : BackendEvent) :
    Follows { s with backend := s.backend.settled (s.backend.appendEvent event) } operation := by
  refine ⟨h.active, h.state, ?_⟩
  show (BackendClient.isRunning _ || _) = true
  rw [BackendClient.isRunning_appendEvent, hrunning, Bool.true_or]

/-- What an event ends is published. -/
def Publishes (event : DeployEvent) (s : DeployWorkflowStore) : Prop :=
  ∃ outcome, event.ending = some outcome ∧ (outcome = .succeeded ∨ outcome = .failed) ∧
    .state (publishedState outcome) ∈ s.published

theorem published_failed (hstate : s.state = .deploying ∨ s.state = .awaitingConfirmation)
    (error : DeployError) : .state .deployFailed ∈ (s.failed error).published := by
  have hno : s.state ≠ .planning := by
    rcases hstate with hstate | hstate <;> rw [hstate] <;> decide
  unfold DeployWorkflowStore.failed
  simp only [if_neg hno]
  exact List.mem_append_right _ List.mem_cons_self

theorem Follows.applyError (h : Follows s operation) (herror : event.type = "error")
    (hoperation : event.operation = "deploy")
    (hcancelled : event.code ≠ some "confirmation_cancelled") :
    (Follows (s.applyError event) operation ∧ event.ending = none) ∨
      Publishes event (s.applyError event) := by
  unfold DeployWorkflowStore.applyError
  by_cases hrequired : event.code = some "confirmation_required"
  · left
    rw [if_pos hrequired]
    refine ⟨⟨h.active, .inr rfl, h.busy⟩, ?_⟩
    simp [DeployEvent.ending, hoperation, herror, hrequired]
  · right
    rw [if_neg hrequired, if_neg hcancelled]
    refine ⟨.failed, ?_, .inr rfl, published_failed h.state _⟩
    simp [DeployEvent.ending, hoperation, herror, hrequired]

theorem publishes_applyDeployResult (hresult : event.type = "result")
    (hoperation : event.operation = "deploy") (hok : event.ok ≠ some false) :
    Publishes event (s.applyDeployResult event) := by
  unfold DeployWorkflowStore.applyDeployResult
  cases hdecoded : event.result with
  | ok result =>
    refine ⟨.succeeded, ?_, .inl rfl, List.mem_append_right _ List.mem_cons_self⟩
    simp [DeployEvent.ending, hoperation, hresult, hok, hdecoded, Except.isOk, Except.toBool]
  | error message =>
    refine ⟨.failed, ?_, .inr rfl, List.mem_append_right _ List.mem_cons_self⟩
    simp [DeployEvent.ending, hoperation, hresult, hok, hdecoded, Except.isOk, Except.toBool]

theorem Follows.handle (h : Follows s operation) (hoperation : event.operation = "deploy")
    (hcancelled : event.type = "error" → event.code ≠ some "confirmation_cancelled") :
    (Follows (s.handle event) operation ∧ event.ending = none) ∨ Publishes event (s.handle event) := by
  unfold DeployWorkflowStore.handle
  rw [if_neg (not_not.mpr hoperation)]
  by_cases hstage : event.type = "stage"
  · left
    have hending : event.ending = none := by simp [DeployEvent.ending, hoperation, hstage]
    refine ⟨?_, hending⟩
    rw [if_pos hstage]
    cases event.stage with
    | none =>
      simp only [hstage]
      exact h
    | some stage =>
      dsimp only
      split
      · exact ⟨h.active, .inl rfl, h.busy⟩
      · exact ⟨h.active, h.state, h.busy⟩
  · rw [if_neg hstage]
    by_cases herror : event.type = "error"
    · simp only [if_pos herror]
      exact h.applyError herror hoperation (hcancelled herror)
    · simp only [if_neg herror]
      by_cases hresult : event.type = "result"
      · rw [if_neg (not_not.mpr hresult)]
        by_cases hok : event.ok = some false
        · right
          rw [if_pos hok]
          refine ⟨.failed, ?_, .inr rfl, published_failed h.state _⟩
          simp [DeployEvent.ending, hoperation, hresult, hok]
        · right
          rw [if_neg hok]
          rcases h.state with hstate | hstate <;> rw [hstate]
          · exact publishes_applyDeployResult hresult hoperation hok
          · exact publishes_applyDeployResult hresult hoperation hok
      · left
        rw [if_pos hresult]
        exact ⟨h, by simp [DeployEvent.ending, hoperation, herror, hresult]⟩

/-- An event leaves the installation going on, or ends it. -/
theorem Follows.process (h : Follows s operation)
    (hcancelled : event.type = "error" → event.code ≠ some "confirmation_cancelled") :
    (Follows (s.process event) operation ∧
        (if operation.accepts event.toBackendEvent then event.ending else none) = none) ∨
      operation.accepts event.toBackendEvent = true ∧ Publishes event (s.process event) := by
  unfold DeployWorkflowStore.process
  rw [h.active]
  dsimp only
  cases haccepts : operation.accepts event.toBackendEvent with
  | false => exact .inl ⟨h, rfl⟩
  | true =>
    by_cases hoperation : event.operation = "deploy"
    · exact (h.handle hoperation hcancelled).imp id fun hpublishes => ⟨rfl, hpublishes⟩
    · left
      rw [if_pos rfl, if_pos rfl, DeployWorkflowStore.handle, if_pos hoperation, DeployEvent.ending,
        if_pos hoperation]
      exact ⟨h, rfl⟩

/-- An installation that starts is followed. -/
theorem follows_runDeploy {profileID : ProfileID} {start : DeployStart}
    (h : (s.runDeploy p profileID start).2 = some operation) :
    operation.profileID = some profileID ∧ operation.id = start.id ∧
      Follows (s.runDeploy p profileID start).1 operation := by
  unfold DeployWorkflowStore.runDeploy DeployWorkflowStore.run at h ⊢
  cases hoptions : s.currentOptions with
  | error code =>
    rw [hoptions] at h
    cases h
  | ok options =>
    rw [hoptions] at h
    dsimp only at h ⊢
    by_cases hbusy : s.isBusy = true
    · rw [if_pos hbusy] at h
      cases h
    · rw [if_neg hbusy] at h ⊢
      cases hconflict : start.conflict with
      | some message =>
        rw [hconflict] at h
        cases h
      | none =>
        rw [hconflict] at h
        obtain rfl := Option.some.inj h
        exact ⟨rfl, rfl, rfl, .inl rfl,
          Bool.or_eq_true_iff.mpr (.inl (BackendClient.isRunning_run ..))⟩

end Store

/-! ## Steps of the user and of the helper -/

theorem Inv.runPlan (h : w.Inv) {start : DeployStart} (horderly : ¬w.Following) :
    (w.after p (.runPlan start)).Inv := h.observe fun hfollowing => absurd hfollowing horderly

theorem after_runDeploy_refused {start : DeployStart} {now : Date}
    (h : (w.dashboard.store.runDeploy p w.dashboard.profile.id start).2 = none) :
    w.after p (.runDeploy start now) = { w with
      dashboard := w.dashboard.observe
        (w.dashboard.store.runDeploy p w.dashboard.profile.id start).1 } := by
  simp only [TrackedDeploy.after, DeployDashboard.after, runInstall, h]

theorem after_runDeploy_started {start : DeployStart} {now : Date}
    (h : (w.dashboard.store.runDeploy p w.dashboard.profile.id start).2 = some operation) :
    w.after p (.runDeploy start now) =
      ⟨(w.dashboard.observe
        (w.dashboard.store.runDeploy p w.dashboard.profile.id start).1).trackDeployStart operation now,
        some operation, none, false⟩ := by
  simp only [TrackedDeploy.after, DeployDashboard.after, runInstall, h]

/-- An installation that starts has no task but the first. -/
theorem Inv.runDeploy (h : w.Inv) {start : DeployStart} {now : Date}
    (henabled : w.Enabled (.runDeploy start now)) (horderly : ¬w.Following) :
    (w.after p (.runDeploy start now)).Inv := by
  cases hstarted : (w.dashboard.store.runDeploy p w.dashboard.profile.id start).2 with
  | none =>
    rw [after_runDeploy_refused hstarted]
    exact h.observe fun hfollowing => absurd hfollowing horderly
  | some operation =>
    obtain ⟨hprofile, hid, hfollows⟩ := follows_runDeploy hstarted
    rw [after_runDeploy_started hstarted]
    have hfresh : ∀ task ∈ ((w.dashboard.observe (w.dashboard.store.runDeploy p
          w.dashboard.profile.id start).1).trackDeployStart operation now).tasks,
        task.operation? = some operation → ∃ snapshots, task = .persistStarted operation snapshots := by
      intro task hmem hoperation
      rcases List.mem_append.mp hmem with hmem | hmem
      · have hold := mem_of_mem_observe hmem (by rw [hoperation]; simp)
        exact absurd hid (henabled task hold operation hoperation)
      · exact ⟨_, List.mem_singleton.mp hmem⟩
    refine ⟨(fun hnone => by cases hnone), ?_, ?_⟩
    · rintro _ ⟨⟩
      exact .going rfl rfl rfl ⟨hfollows.active, hfollows.state, hfollows.busy⟩
    · rintro _ ⟨⟩
      refine ⟨by rw [hprofile]; rfl, fun hfailed => ?_, fun profile result hsucceeded => ?_⟩
      · obtain ⟨snapshots, hcases⟩ := hfresh _ hfailed rfl
        cases hcases
      · obtain ⟨snapshots, hcases⟩ := hfresh _ hsucceeded rfl
        cases hcases

/-- What the store has made of an event. -/
def heard (event : DeployEvent) (s : DeployWorkflowStore) : DeployWorkflowStore :=
  { s with backend := s.backend.settled (s.backend.appendEvent event.toBackendEvent) }.process event

theorem after_helperEvent {event : DeployEvent} :
    w.after p (.helperEvent event) = { w with
      dashboard := w.dashboard.observe (heard event w.dashboard.store)
      outcome := w.outcome.or
        (if w.last.any (·.accepts event.toBackendEvent) then event.ending else none) } := rfl

/-- The own tasks of an operation are those that it had. -/
theorem Own.observe (h : Own w operation) {store : DeployWorkflowStore}
    {outcome : Option DeviceDeployStateStatus} (houtcome : w.outcome ≠ none → outcome = w.outcome) :
    Own { w with dashboard := w.dashboard.observe store, outcome := outcome } operation where
  profileID := h.profileID
  failed hmem := by
    obtain ⟨hsome, hactive⟩ := h.failed (mem_of_mem_observe hmem (by simp [DashboardTask.operation?]))
    exact ⟨(houtcome (by simp [hsome])).trans hsome, hactive⟩
  succeeded profile result hmem := by
    obtain ⟨hnames, hsome, hactive⟩ := h.succeeded profile result
      (mem_of_mem_observe hmem (by simp [DashboardTask.operation?]))
    exact ⟨hnames, (houtcome (by simp [hsome])).trans hsome, hactive⟩

theorem Inv.helperEvent (h : w.Inv) {event : DeployEvent}
    (hrunning : w.dashboard.store.backend.isRunning = true)
    (horderly : w.Orderly (.helperEvent event)) : (w.after p (.helperEvent event)).Inv := by
  rw [after_helperEvent]
  refine ⟨h.idle, fun operation hmem => ?_, fun operation hmem => (h.own operation hmem).observe ?_⟩
  · have hlast : w.last = some operation := hmem
    have hsame : ∀ {outcome : DeviceDeployStateStatus} (later : Option DeviceDeployStateStatus),
        w.outcome = some outcome → w.outcome.or later = some outcome := by
      intro outcome later hsome
      rw [hsome, Option.some_or]
    cases h.phase operation hmem with
    | going hnone hactive hpersisted hfollows =>
      have hfollowing : w.Following := ⟨by rw [hlast]; rfl, hnone⟩
      have hheard := hfollows.appendEvent hrunning event.toBackendEvent
      rcases hheard.process (horderly hfollowing) with ⟨hstill, hending⟩ |
        ⟨haccepts, outcome, hending, hended, hpublished⟩
      · refine .going ?_ hactive hpersisted ⟨hstill.active, hstill.state, hstill.busy⟩
        rw [hnone, Option.none_or, hlast, Option.any_some]
        exact hending
      · refine .published outcome ?_ hended hactive hpersisted
          (List.mem_append_right _ (List.mem_map.mpr ⟨_, hpublished, rfl⟩))
        rw [hnone, Option.none_or, hlast, Option.any_some, if_pos haccepts, hending]
    | published outcome hsome hended hactive hpersisted htask =>
      exact .published outcome (hsame _ hsome) hended hactive hpersisted (mem_observe htask)
    | seen outcome hsome hactive hpersisted task hmem hwrites =>
      exact .seen outcome (hsame _ hsome) hactive hpersisted task (mem_observe hmem) hwrites
    | written outcome hsome hactive hpersisted htold =>
      exact .written outcome (hsame _ hsome) hactive hpersisted htold
  · intro hne
    obtain ⟨outcome, hsome⟩ := Option.ne_none_iff_exists'.mp hne
    rw [hsome, Option.some_or]

/-! ## Tasks -/

theorem ne_of_publishedState {outcome : DeviceDeployStateStatus} {state : DeployWorkflowState}
    (hfailed : state ≠ .deployFailed) (hdeployed : state ≠ .deployed) :
    DashboardTask.updateDeployState (publishedState outcome) ≠ .updateDeployState state := by
  intro heq
  have hstate : publishedState outcome = state := DashboardTask.updateDeployState.inj heq
  cases outcome
  case succeeded => exact hdeployed hstate.symm
  all_goals exact hfailed hstate.symm

/-- A task that is not about the ending of the last installation leaves it where it is. -/
structure Beside (w : TrackedDeploy) (task : DashboardTask) (d : DeployDashboard) : Prop where
  store : d.store = w.dashboard.store
  active : d.activeDeployOperation = w.dashboard.activeDeployOperation
  keeps : ∀ other ∈ w.dashboard.tasks, other ≠ task → other ∈ d.tasks
  only : ∀ other ∈ d.tasks, other ∈ w.dashboard.tasks ∨ other = .persistAwaitingConfirmation ∨
    ∃ operation observedAt, other = .persistStage operation observedAt
  publishes : ∀ outcome, task ≠ .updateDeployState (publishedState outcome)
  writes : ∀ operation ∈ w.last, ∀ outcome, ¬Writes operation outcome task
  told : ∀ operation ∈ w.last, ∀ outcome ∈ w.outcome, w.persisted = true →
    Told w.dashboard.profile operation outcome → Told d.profile operation outcome

theorem Own.beside (h : Own w operation)
    (honly : ∀ other ∈ d.tasks, other ∈ w.dashboard.tasks ∨ other = .persistAwaitingConfirmation ∨
      ∃ operation observedAt, other = .persistStage operation observedAt)
    (hactive : d.activeDeployOperation = w.dashboard.activeDeployOperation) (persisted : Bool) :
    Own { w with dashboard := d, persisted := persisted } operation where
  profileID := h.profileID
  failed hmem := by
    rcases honly _ hmem with hmem | hmem | ⟨_, _, hmem⟩
    · exact ⟨(h.failed hmem).1, hactive.trans (h.failed hmem).2⟩
    · cases hmem
    · cases hmem
  succeeded profile result hmem := by
    rcases honly _ hmem with hmem | hmem | ⟨_, _, hmem⟩
    · obtain ⟨hnames, hsome, hnone⟩ := h.succeeded profile result hmem
      exact ⟨hnames, hsome, hactive.trans hnone⟩
    · cases hmem
    · cases hmem

theorem Inv.beside (h : w.Inv) {task : DashboardTask} (hbeside : Beside w task d) :
    Inv { w with dashboard := d } where
  idle hnone := hbeside.active.trans (h.idle hnone)
  own operation hmem := (h.own operation hmem).beside hbeside.only hbeside.active w.persisted
  phase operation hmem := by
    cases h.phase operation hmem with
    | going hnone hactive hpersisted hfollows =>
      refine .going hnone (hbeside.active.trans hactive) hpersisted ?_
      rw [show ({ w with dashboard := d } : TrackedDeploy).dashboard.store = w.dashboard.store from
        hbeside.store]
      exact hfollows
    | published outcome hsome hended hactive hpersisted htask =>
      exact .published outcome hsome hended (hbeside.active.trans hactive) hpersisted
        (hbeside.keeps _ htask (hbeside.publishes outcome).symm)
    | seen outcome hsome hactive hpersisted task' hmem' hwrites =>
      refine .seen outcome hsome (hbeside.active.trans hactive) hpersisted task'
        (hbeside.keeps _ hmem' ?_) hwrites
      rintro rfl
      exact hbeside.writes operation hmem outcome hwrites
    | written outcome hsome hactive hpersisted htold =>
      exact .written outcome hsome (hbeside.active.trans hactive) hpersisted
        (hbeside.told operation hmem outcome hsome hpersisted htold)

/-- What a task leaves when it has run. -/
def without (d : DeployDashboard) (task : DashboardTask) : DeployDashboard :=
  { d with tasks := d.tasks.erase task }

theorem mem_without {task other : DashboardTask} (h : other ∈ d.tasks) (hne : other ≠ task) :
    other ∈ (without d task).tasks := (List.mem_erase_of_ne hne).mpr h

theorem mem_of_mem_without {task other : DashboardTask} (h : other ∈ (without d task).tasks) :
    other ∈ d.tasks := List.mem_of_mem_erase h

/-- A task that writes the profile, but not the ending of the last installation. -/
theorem Inv.besidePersist (h : w.Inv) (task : DashboardTask) (profile : DeviceProfile)
    (hpublishes : ∀ state, task ≠ .updateDeployState state)
    (hwrites : ∀ operation ∈ w.last, ∀ outcome, ¬Writes operation outcome task)
    (htold : ∀ operation ∈ w.last, ∀ outcome ∈ w.outcome, w.persisted = true →
      Told w.dashboard.profile operation outcome → Told profile operation outcome) :
    Inv { w with dashboard := { without w.dashboard task with profile := profile } } :=
  h.beside ⟨rfl, rfl, fun _ hmem hne => mem_without hmem hne, fun _ hmem => .inl (mem_of_mem_without hmem),
    fun _ => hpublishes _, hwrites, htold⟩

theorem not_writes {task : DashboardTask} {outcome : DeviceDeployStateStatus}
    (hfailed : ∀ operation, task ≠ .persistFailed operation)
    (hsucceeded : ∀ operation profile result, task ≠ .persistSucceeded operation profile result) :
    ¬Writes operation outcome task := by
  rintro (⟨-, htask⟩ | ⟨-, profile, result, -, htask⟩)
  · exact hfailed _ htask
  · exact hsucceeded _ _ _ htask

/-- A profile that tells an ending is not in progress. -/
theorem Told.not_inProgress {profile : DeviceProfile} {outcome : DeviceDeployStateStatus}
    {current : DeviceDeployStateSnapshot} (h : Told profile operation outcome)
    (hcurrent : profile.lastDeployState = some current) : current.status.isInProgress = false := by
  obtain ⟨current', hcurrent', -, rfl⟩ := h.deployState
  rw [hcurrent] at hcurrent'
  obtain rfl : current = current' := Option.some.inj hcurrent'
  exact h.ended

/-- The profile tells a failure that is written to it, of the operation that it names. -/
theorem told_failed {profile : DeviceProfile} {operation' : ActiveOperation}
    {stage payloadFamily : Option String} {error : Option DeployError} {failedAt : Date}
    {updated : DeviceProfile}
    (hnames : (profile.lastDeployState.bind (·.operationID)).or (some operation'.id) = some operation.id)
    (hstate : updated.lastDeployState = some
      (failedDeploySnapshots operation' profile stage payloadFamily error failedAt).deployState)
    (hruntime : updated.runtimeState = some
      (failedDeploySnapshots operation' profile stage payloadFamily error failedAt).runtimeState) :
    Told updated operation .failed :=
  ⟨rfl, ⟨_, hstate, hnames, rfl⟩, ⟨_, hruntime, by simp [failedDeploySnapshots]⟩⟩

theorem or_of_names {profile : DeviceProfile} (h : Names profile operation) :
    (profile.lastDeployState.bind (·.operationID)).or (some operation.id) = some operation.id := by
  unfold Names at h
  cases hid : profile.lastDeployState.bind (·.operationID) with
  | none => rfl
  | some id =>
    rw [hid] at h
    rw [Option.some_or]
    exact congrArg some h

theorem Inv.persistStarted (h : w.Inv) {snapshots : Snapshots} {now : Date}
    (horderly : w.OrderlyTask (.persistStarted operation snapshots)) :
    (w.after p (.runTask (.persistStarted operation snapshots) now)).Inv := by
  have hpersisted : w.persisted = false := horderly
  have hbeside := h.besidePersist (.persistStarted operation snapshots)
    ((without w.dashboard (.persistStarted operation snapshots)).persist snapshots none now).profile (fun _ heq => by cases heq)
    (fun _ _ _ => not_writes (fun _ heq => by cases heq) (fun _ _ _ heq => by cases heq))
    (fun _ _ _ _ hyes => absurd (hpersisted.symm.trans hyes) Bool.false_ne_true)
  rw [← Bool.or_false w.persisted] at hbeside
  exact hbeside

theorem Inv.persistInProgress (h : w.Inv) {task : DashboardTask} {now observedAt : Date}
    {current : DeviceDeployStateSnapshot} {status : DeviceDeployStateStatus}
    (hcurrent : w.dashboard.profile.lastDeployState = some current)
    (hprogress : current.status.isInProgress = true)
    (hpublishes : ∀ state, task ≠ .updateDeployState state)
    (hwrites : ∀ operation outcome, ¬Writes operation outcome task) :
    Inv { w with dashboard := (without w.dashboard task).persistInProgress current status observedAt now } :=
  h.besidePersist _ _ hpublishes (fun operation _ outcome => hwrites operation outcome)
    fun _ _ _ _ _ htold => absurd ((htold.not_inProgress hcurrent).symm.trans hprogress)
      Bool.false_ne_true

theorem Inv.noTask (h : w.Inv) {task : DashboardTask}
    (hpublishes : ∀ outcome, task ≠ .updateDeployState (publishedState outcome))
    (hwrites : ∀ operation ∈ w.last, ∀ outcome, ¬Writes operation outcome task) :
    Inv { w with dashboard := without w.dashboard task } :=
  h.beside ⟨rfl, rfl, fun _ hmem hne => mem_without hmem hne, fun _ hmem => .inl (mem_of_mem_without hmem),
    hpublishes, hwrites, fun _ _ _ _ _ htold => htold⟩

theorem Inv.persistStage (h : w.Inv) {observedAt now : Date} :
    (w.after p (.runTask (.persistStage operation observedAt) now)).Inv := by
  have hpublishes : ∀ state, DashboardTask.persistStage operation observedAt ≠ .updateDeployState state :=
    fun _ heq => by cases heq
  have hwrites : ∀ operation' outcome,
      ¬Writes operation' outcome (.persistStage operation observedAt) := fun _ _ =>
    not_writes (fun _ heq => by cases heq) (fun _ _ _ heq => by cases heq)
  show Inv { w with
    dashboard := (without w.dashboard (.persistStage operation observedAt)).runTask
      (.persistStage operation observedAt) now
    persisted := w.persisted || false }
  rw [Bool.or_false, DeployDashboard.runTask]
  cases hcurrent : w.dashboard.profile.lastDeployState with
  | none =>
    rw [show (without w.dashboard (.persistStage operation observedAt)).profile.lastDeployState = none
      from hcurrent]
    exact h.noTask (fun _ => hpublishes _) (fun operation _ outcome => hwrites operation outcome)
  | some current =>
    rw [show (without w.dashboard (.persistStage operation observedAt)).profile.lastDeployState =
      some current from hcurrent]
    dsimp only
    split
    · rename_i hprogress
      rw [Bool.and_eq_true] at hprogress
      exact h.persistInProgress hcurrent hprogress.2 hpublishes hwrites
    · exact h.noTask (fun _ => hpublishes _) (fun operation _ outcome => hwrites operation outcome)

theorem Inv.persistAwaitingConfirmation (h : w.Inv) {now : Date} :
    (w.after p (.runTask .persistAwaitingConfirmation now)).Inv := by
  have hpublishes : ∀ state, DashboardTask.persistAwaitingConfirmation ≠ .updateDeployState state :=
    fun _ heq => by cases heq
  have hwrites : ∀ operation' outcome, ¬Writes operation' outcome .persistAwaitingConfirmation :=
    fun _ _ => not_writes (fun _ heq => by cases heq) (fun _ _ _ heq => by cases heq)
  show Inv { w with
    dashboard := (without w.dashboard .persistAwaitingConfirmation).runTask .persistAwaitingConfirmation
      now
    persisted := w.persisted || false }
  rw [Bool.or_false, DeployDashboard.runTask]
  cases hcurrent : w.dashboard.profile.lastDeployState with
  | none =>
    rw [show (without w.dashboard .persistAwaitingConfirmation).profile.lastDeployState = none from
      hcurrent]
    exact h.noTask (fun _ => hpublishes _) (fun operation _ outcome => hwrites operation outcome)
  | some current =>
    rw [show (without w.dashboard .persistAwaitingConfirmation).profile.lastDeployState = some current
      from hcurrent]
    dsimp only
    split
    · rename_i hprogress
      exact h.persistInProgress hcurrent hprogress hpublishes hwrites
    · exact h.noTask (fun _ => hpublishes _) (fun operation _ outcome => hwrites operation outcome)

/-- The task that writes the ending of the last installation has run. -/
theorem Inv.written (h : w.Inv) {task : DashboardTask} {profile : DeviceProfile}
    {outcome : DeviceDeployStateStatus} (hlast : w.last = some operation)
    (hsome : w.outcome = some outcome) (hactive : w.dashboard.activeDeployOperation = none)
    (htold : Told profile operation outcome) :
    Inv { w with dashboard := { without w.dashboard task with profile := profile }, persisted := true } where
  idle _ := hactive
  phase operation' hmem := by
    obtain rfl : operation = operation' := Option.some.inj (hlast.symm.trans hmem)
    exact .written outcome hsome hactive rfl htold
  own operation' hmem := Own.beside (d := { without w.dashboard task with profile := profile })
    (h.own operation' hmem) (fun _ hmem => .inl (mem_of_mem_without hmem)) rfl true

theorem Inv.persistFailed (h : w.Inv) {now : Date}
    (hmem : .persistFailed operation ∈ w.dashboard.tasks)
    (horderly : w.OrderlyTask (.persistFailed operation)) :
    (w.after p (.runTask (.persistFailed operation) now)).Inv := by
  by_cases hlast : w.last = some operation
  · have horderly : Names w.dashboard.profile operation := by
      rw [OrderlyTask, if_pos hlast] at horderly
      exact horderly
    obtain ⟨hfailed, hactive⟩ := (h.own operation hlast).failed hmem
    show Inv { w with
      dashboard := (without w.dashboard (.persistFailed operation)).runTask (.persistFailed operation) now
      persisted := w.persisted || decide (w.last = some operation) }
    rw [decide_eq_true hlast, Bool.or_true]
    exact h.written hlast hfailed hactive (told_failed (or_of_names horderly) rfl rfl)
  · have horderly : w.persisted = true → w.outcome = some .failed := by
      rw [OrderlyTask, if_neg hlast] at horderly
      exact horderly
    show Inv { w with
      dashboard := (without w.dashboard (.persistFailed operation)).runTask (.persistFailed operation) now
      persisted := w.persisted || decide (w.last = some operation) }
    rw [decide_eq_false hlast, Bool.or_false]
    refine h.besidePersist _ _ (fun _ heq => by cases heq) ?_ ?_
    · rintro operation' hmem' outcome (⟨-, htask⟩ | ⟨-, _, _, -, htask⟩)
      · cases htask
        exact hlast hmem'
      · cases htask
    · intro operation' _ outcome hsome hpersisted htold
      obtain rfl : .failed = outcome := Option.some.inj ((horderly hpersisted).symm.trans hsome)
      obtain ⟨current, hcurrent, hid, -⟩ := htold.deployState
      refine told_failed ?_ rfl rfl
      rw [show (without w.dashboard (.persistFailed operation)).profile.lastDeployState = some current from
        hcurrent, Option.bind_some, hid, Option.some_or]

theorem Inv.persistSucceeded (h : w.Inv) {profile : DeviceProfile} {result : DeployResultPayload}
    {now : Date} (hmem : .persistSucceeded operation profile result ∈ w.dashboard.tasks)
    (horderly : w.OrderlyTask (.persistSucceeded operation profile result)) :
    (w.after p (.runTask (.persistSucceeded operation profile result) now)).Inv := by
  by_cases hlast : w.last = some operation
  · obtain ⟨hnames, hsucceeded, hactive⟩ := (h.own operation hlast).succeeded profile result hmem
    show Inv { w with
      dashboard := (without w.dashboard (.persistSucceeded operation profile result)).runTask
        (.persistSucceeded operation profile result) now
      persisted := w.persisted || decide (w.last = some operation) }
    rw [decide_eq_true hlast, Bool.or_true]
    refine h.written hlast hsucceeded hactive ⟨rfl, ⟨_, rfl, or_of_names hnames, rfl⟩, ⟨_, rfl, ?_⟩⟩
    simp only [succeededDeploySnapshots]
    split <;> decide
  · have hpersisted : w.persisted = false := horderly.resolve_left hlast
    show Inv { w with
      dashboard := (without w.dashboard (.persistSucceeded operation profile result)).runTask
        (.persistSucceeded operation profile result) now
      persisted := w.persisted || decide (w.last = some operation) }
    rw [decide_eq_false hlast, Bool.or_false]
    refine h.besidePersist _ _ (fun _ heq => by cases heq) ?_ fun _ _ _ _ hyes _ =>
      absurd (hpersisted.symm.trans hyes) Bool.false_ne_true
    rintro operation' hmem' outcome (⟨-, htask⟩ | ⟨-, _, _, -, htask⟩)
    · cases htask
    · cases htask
      exact hlast hmem'

theorem Inv.updateCurrentDeployStage (h : w.Inv) {now : Date} :
    (w.after p (.runTask .updateCurrentDeployStage now)).Inv := by
  have hpublishes : ∀ outcome,
      DashboardTask.updateCurrentDeployStage ≠ .updateDeployState (publishedState outcome) :=
    fun _ heq => by cases heq
  have hwrites : ∀ operation ∈ w.last, ∀ outcome, ¬Writes operation outcome .updateCurrentDeployStage :=
    fun _ _ _ => not_writes (fun _ heq => by cases heq) (fun _ _ _ heq => by cases heq)
  show Inv { w with
    dashboard := (without w.dashboard .updateCurrentDeployStage).updateCurrentDeployStage now
    persisted := w.persisted || false }
  rw [Bool.or_false]
  unfold DeployDashboard.updateCurrentDeployStage
  split
  · exact h.noTask hpublishes hwrites
  · rename_i operation _
    split
    · refine h.beside ⟨rfl, rfl, fun _ hmem hne => List.mem_append_left _ (mem_without hmem hne),
        fun other hmem => ?_, hpublishes, hwrites, fun _ _ _ _ _ htold => htold⟩
      rcases List.mem_append.mp hmem with hmem | hmem
      · exact .inl (mem_of_mem_without hmem)
      · exact .inr (.inr ⟨operation, now, List.mem_singleton.mp hmem⟩)
    · exact h.noTask hpublishes hwrites

/-- The ending that has been published is seen, and makes the task that writes it. -/
theorem Inv.seen (h : w.Inv) {task new : DashboardTask} {outcome : DeviceDeployStateStatus}
    (hlast : w.last = some operation) (hsome : w.outcome = some outcome)
    (hpersisted : w.persisted = false) (hactive : w.dashboard.activeDeployOperation = some operation)
    (hwrites : Writes operation outcome new) :
    Inv { w with
      dashboard := { without w.dashboard task with activeDeployOperation := none }.addTask new } where
  idle _ := rfl
  phase operation' hmem := by
    obtain rfl : operation = operation' := Option.some.inj (hlast.symm.trans hmem)
    exact .seen outcome hsome rfl hpersisted new (List.mem_append_right _ List.mem_cons_self) hwrites
  own operation' hmem := by
    obtain rfl : operation = operation' := Option.some.inj (hlast.symm.trans hmem)
    have hown := h.own operation hlast
    refine ⟨hown.profileID, fun hmem => ?_, fun profile result hmem => ?_⟩
    · rcases List.mem_append.mp hmem with hmem | hmem
      · have hnone := (hown.failed (mem_of_mem_without hmem)).2
        rw [hactive] at hnone
        cases hnone
      · rcases hwrites with ⟨rfl, -⟩ | ⟨-, _, _, -, htask⟩
        · exact ⟨hsome, rfl⟩
        · rw [htask] at hmem
          cases List.mem_singleton.mp hmem
    · rcases List.mem_append.mp hmem with hmem | hmem
      · have hnone := (hown.succeeded profile result (mem_of_mem_without hmem)).2.2
        rw [hactive] at hnone
        cases hnone
      · rcases hwrites with ⟨-, htask⟩ | ⟨rfl, _, _, hnames, htask⟩
        · rw [htask] at hmem
          cases List.mem_singleton.mp hmem
        · rw [htask] at hmem
          cases List.mem_singleton.mp hmem
          exact ⟨hnames, hsome, rfl⟩

/-- The operation that the dashboard follows is the last one, and nothing of it is written. -/
theorem Inv.last_of_active (h : w.Inv) (hactive : w.dashboard.activeDeployOperation = some operation) :
    w.last = some operation ∧ w.persisted = false := by
  cases hlast : w.last with
  | none =>
    rw [h.idle hlast] at hactive
    cases hactive
  | some last =>
    cases h.phase last hlast with
    | going _ hactive' hpersisted _ => exact ⟨hactive'.symm.trans hactive, hpersisted⟩
    | published _ _ _ hactive' hpersisted _ => exact ⟨hactive'.symm.trans hactive, hpersisted⟩
    | seen _ _ hnone | written _ _ hnone =>
      rw [hactive] at hnone
      cases hnone

/-- When the dashboard follows no operation, a state that has been published is nothing to it. -/
theorem Inv.unseen (h : w.Inv) {task : DashboardTask}
    (hactive : w.dashboard.activeDeployOperation = none)
    (hwrites : ∀ operation ∈ w.last, ∀ outcome, ¬Writes operation outcome task) :
    Inv { w with dashboard := without w.dashboard task } where
  idle := h.idle
  own operation hmem := (h.own operation hmem).beside
    (fun _ hmem => .inl (mem_of_mem_without hmem)) rfl w.persisted
  phase operation hmem := by
    cases h.phase operation hmem with
    | going _ hsome | published _ _ _ hsome =>
      rw [hactive] at hsome
      cases hsome
    | seen outcome hsome hnone hpersisted task' hmem' hwrites' =>
      refine .seen outcome hsome hnone hpersisted task' (mem_without hmem' ?_) hwrites'
      rintro rfl
      exact hwrites operation hmem outcome hwrites'
    | written outcome hsome hnone hpersisted htold => exact .written outcome hsome hnone hpersisted htold

theorem Inv.updateDeployState (h : w.Inv) {state : DeployWorkflowState} {now : Date}
    (horderly : w.OrderlyTask (.updateDeployState state)) :
    (w.after p (.runTask (.updateDeployState state) now)).Inv := by
  have hwrites : ∀ operation ∈ w.last, ∀ outcome,
      ¬Writes operation outcome (.updateDeployState state) :=
    fun _ _ _ => not_writes (fun _ heq => by cases heq) (fun _ _ _ heq => by cases heq)
  show Inv { w with
    dashboard := (without w.dashboard (.updateDeployState state)).updateDeployState state
    persisted := w.persisted || false }
  rw [Bool.or_false]
  unfold DeployDashboard.updateDeployState
  cases hactive : w.dashboard.activeDeployOperation with
  | none =>
    rw [show (without w.dashboard (.updateDeployState state)).activeDeployOperation = none from hactive]
    exact h.unseen hactive hwrites
  | some operation =>
    obtain ⟨hlast, hpersisted⟩ := h.last_of_active hactive
    have hprofile : operation.profileID.isNone = false := by
      rw [← Option.not_isSome, (h.own operation hlast).profileID]
      rfl
    rw [show (without w.dashboard (.updateDeployState state)).activeDeployOperation = some operation
      from hactive]
    simp only [hprofile, Bool.false_eq_true, if_false]
    cases state with
    | awaitingConfirmation =>
      refine h.beside ⟨rfl, rfl, fun _ hmem hne => List.mem_append_left _ (mem_without hmem hne),
        fun other hmem => ?_, fun _ => (ne_of_publishedState (by decide) (by decide)).symm, hwrites,
        fun _ _ _ _ _ htold => htold⟩
      rcases List.mem_append.mp hmem with hmem | hmem
      · exact .inl (mem_of_mem_without hmem)
      · exact .inr (.inl (List.mem_singleton.mp hmem))
    | deployFailed =>
      have hfailed : w.outcome = some .failed := horderly (by rw [hactive]; rfl)
      exact h.seen hlast hfailed hpersisted hactive (.inl ⟨rfl, rfl⟩)
    | deployed =>
      obtain ⟨hsucceeded, hresult, hnames⟩ := horderly operation hactive
      obtain ⟨result, hresult⟩ := Option.isSome_iff_exists.mp hresult
      rw [show (without w.dashboard (.updateDeployState .deployed)).store.result = some result
        from hresult]
      exact h.seen hlast hsucceeded hpersisted hactive (.inr ⟨rfl, _, result, hnames, rfl⟩)
    | idle | planning | planReady | planStale | planFailed | deploying =>
      exact h.noTask (fun _ => (ne_of_publishedState (by decide) (by decide)).symm) hwrites

theorem Inv.runTask (h : w.Inv) {task : DashboardTask} {now : Date} (hmem : task ∈ w.dashboard.tasks)
    (horderly : w.OrderlyTask task) : (w.after p (.runTask task now)).Inv := by
  cases task with
  | updateDeployState state => exact h.updateDeployState horderly
  | updateCurrentDeployStage => exact h.updateCurrentDeployStage
  | persistStarted operation snapshots => exact h.persistStarted horderly
  | persistStage operation observedAt => exact h.persistStage
  | persistAwaitingConfirmation => exact h.persistAwaitingConfirmation
  | persistFailed operation => exact h.persistFailed hmem horderly
  | persistSucceeded operation profile result => exact h.persistSucceeded hmem horderly

theorem Inv.after {step : Step} (h : w.Inv) (henabled : w.Enabled step) (horderly : w.Orderly step) :
    (w.after p step).Inv := by
  have hstore : w.Following → ∀ operation ∈ w.last, Follows w.dashboard.store operation := by
    rintro ⟨-, hnone⟩ operation hmem
    cases h.phase operation hmem with
    | going _ _ _ hfollows => exact hfollows
    | published _ hsome | seen _ hsome | written _ hsome =>
      rw [hnone] at hsome
      cases hsome
  cases step with
  | runPlan start => exact h.runPlan horderly
  | runDeploy start now => exact h.runDeploy henabled horderly
  | setOptions options =>
    exact h.observe fun hfollowing operation hmem => (hstore hfollowing operation hmem).setOptions options
  | confirmPending =>
    exact h.observe fun hfollowing operation hmem => (hstore hfollowing operation hmem).confirmPending
  | cancelPendingConfirmation =>
    exact h.observe fun hfollowing operation hmem =>
      (hstore hfollowing operation hmem).cancelPendingConfirmation (horderly hfollowing)
  | helperEvent event => exact h.helperEvent henabled horderly
  | helperFinished exitCode =>
    exact h.observe fun hfollowing operation hmem =>
      (hstore hfollowing operation hmem).finishRun (horderly hfollowing) exitCode
  | runTask task now => exact h.runTask henabled horderly

/-! ## Two installations -/

instance decidableEnabled (w : TrackedDeploy) : ∀ step, Decidable (Enabled w step)
  | .runDeploy start _ => inferInstanceAs (Decidable
      (∀ task ∈ w.dashboard.tasks, ∀ operation ∈ task.operation?, operation.id ≠ start.id))
  | .helperEvent _ | .helperFinished _ =>
      inferInstanceAs (Decidable (w.dashboard.store.backend.isRunning = true))
  | .runTask task _ => inferInstanceAs (Decidable (task ∈ w.dashboard.tasks))
  | .runPlan _ | .setOptions _ | .confirmPending | .cancelPendingConfirmation =>
      inferInstanceAs (Decidable True)

/-- A store that has not run anything, for a device of which nothing is known. -/
def fresh : TrackedDeploy where
  dashboard :=
    { store :=
        { state := .idle
          plan := none
          result := none
          error := none
          currentStage := none
          plannedOptions := none
          currentOptions := .ok
            { nbnsEnabled := false
              rsyncEnabled := false
              noReboot := false
              noWait := false
              internalShareUseDiskRoot := false
              smbBindLanOnly := true
              smbBrowseCompatibility := false
              mdnsAdvertiseAFP := false
              anyProtocol := false
              requireSMBEncryption := false
              forceDisableSMBSigningAndEncryption := false
              fruitMetadataNetatalk := false
              vfsAIOForkEnabled := true
              debugLogging := false
              ataIdleSeconds := 300
              ataStandby := none
              mountWait := 30 }
          backend := .idle
          activeOperation := none
          published := [] }
      activeDeployOperation := none
      profile := Registry.plainProfile "1" "office.local"
      tasks := [] }
  last := none
  outcome := none
  persisted := false

def anOperation : ActiveOperation := ⟨"run", "deploy", some "1", none⟩

end TrackedDeploy

end TimeCapsule.App
