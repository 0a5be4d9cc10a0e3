import TimeCapsule.App.FlashStale

/-!
# What is written is what was planned

A write asks the helper for the backup, the mode and the firmware that the plan was asked for.  That it
may be started is checked twice, by `canWrite` for the button and by hand where the write starts.
-/

namespace TimeCapsule.App

open Lib

/-! ## Requests -/

section Requests

variable {p : Platform} {params params' : JsonObject} {key backupDir : String} {mode : FlashPlanMode}
  {selection : FlashFirmwareSelection}

/-- What a plan and its write have in common. -/
def requestKeys : List String := ["backup_dir", "mode", "firmware_version", "firmware_template"]

def SameRequest (params params' : JsonObject) : Prop :=
  ∀ key ∈ requestKeys, params.lookup key = params'.lookup key

theorem SameRequest.symm (h : SameRequest params params') : SameRequest params' params :=
  fun key hkey => (h key hkey).symm

theorem SameRequest.trans {params'' : JsonObject} (h : SameRequest params params')
    (h' : SameRequest params' params'') : SameRequest params params'' :=
  fun key hkey => (h key hkey).trans (h' key hkey)

theorem sameRequest_dictSet {value : Json} (hkey : key ∉ requestKeys) :
    SameRequest (dictSet params key value) params := by
  intro other hother
  exact lookup_dictSet_of_ne fun heq => hkey (heq ▸ hother)

theorem sameRequest_injectingPassword (password : Option String) :
    SameRequest (injectingPassword p password params) params := by
  unfold injectingPassword
  split
  · exact fun _ _ => rfl
  · split
    · exact fun _ _ => rfl
    · exact sameRequest_dictSet (by decide)

theorem sameRequest_appendFirmwareSelection (h : SameRequest params params') :
    SameRequest (appendFirmwareSelection p selection params)
      (appendFirmwareSelection p selection params') := by
  have hset : ∀ {d d' : JsonObject} (key : String) (value : Json), SameRequest d d' →
      SameRequest (dictSet d key value) (dictSet d' key value) := by
    intro d d' key value hsame other hother
    rw [lookup_dictSet, lookup_dictSet, hsame other hother]
  unfold appendFirmwareSelection
  dsimp only
  split
  · split
    · exact h
    · exact hset _ _ h
  · split
    · exact hset _ _ h
    · exact hset _ _ (hset _ _ h)

/-- A write asks for what its plan has asked for. -/
theorem sameRequest_write (p : Platform) (backupDir : String) (mode : FlashPlanMode)
    (selection : FlashFirmwareSelection) :
    SameRequest (flashWriteParams p backupDir mode selection)
      (flashPlanParams p backupDir mode selection) := by
  refine sameRequest_appendFirmwareSelection fun key hkey => ?_
  simp only [requestKeys, List.mem_cons, List.not_mem_nil, or_false] at hkey
  rcases hkey with rfl | rfl | rfl | rfl
  · rfl
  · rfl
  · cases mode <;> rfl
  · cases mode <;> rfl

end Requests

/-! ## What a client asks -/

namespace BackendClient

variable {b : BackendClient} {params : JsonObject} {P : JsonObject → Prop}

/-- The parameters of the helper that runs, and of the one that waits for a confirmation. -/
def Requested (b : BackendClient) (params : JsonObject) : Prop :=
  (b.isRunning = true ∧ b.activeCall.map (·.params) = some params) ∨
    b.pendingConfirmation.map (·.params) = some params

/-- The path of the configuration and a confirmation make no difference. -/
structure Stable (P : JsonObject → Prop) : Prop where
  config : ∀ params value, P params → P (dictSet params "config" value)
  confirmation : ∀ params value, P params → P (dictSet params "confirmation_id" value)

theorem stable_sameRequest (params : JsonObject) : Stable (SameRequest · params) where
  config _ _ h := (sameRequest_dictSet (by decide)).trans h
  confirmation _ _ h := (sameRequest_dictSet (by decide)).trans h

theorem requested_run (operation id : String) (context : Option DeviceRuntimeContext)
    (hP : Stable P) (hidle : b.isRunning = false) (h : P params) :
    ∀ asked, Requested (b.settled (b.run operation params context id)) asked → P asked := by
  intro asked hasked
  unfold settled run at hasked
  rw [hidle, if_neg Bool.false_ne_true] at hasked
  rcases hasked with ⟨-, hcall⟩ | hpending
  · simp only [List.getLastD_cons, List.getLastD_nil, Option.map_some, Option.some.injEq] at hcall
    subst hcall
    split
    · split
      · exact hP.config _ _ h
      · exact h
    · exact h
  · cases hpending

theorem settled_cons (b b' : BackendClient) (changes : List BackendClient) :
    b.settled (b' :: changes) = b'.settled changes := List.getLastD_cons ..

theorem activeCall_appendEvent (b : BackendClient) (event : BackendEvent) :
    (b.settled (b.appendEvent event)).activeCall = b.activeCall := by
  unfold appendEvent
  dsimp only
  split <;> rw [settled_cons] <;> by_cases h : event.type = "stage" <;>
    simp only [settled, List.getLastD_nil, h, if_true, if_false]

theorem pendingConfirmation_appendEvent (b : BackendClient) (event : BackendEvent) :
    (b.settled (b.appendEvent event)).pendingConfirmation =
      (b.activeCall.bind fun call =>
        PendingConfirmation.make event call.params call.requestID call.context).or
          b.pendingConfirmation := by
  unfold appendEvent
  dsimp only
  cases hconfirmation : b.activeCall.bind fun call =>
      PendingConfirmation.make event call.params call.requestID call.context with
  | some confirmation => rfl
  | none =>
    rw [Option.none_or]
    dsimp only
    rw [settled_cons]
    by_cases h : event.type = "stage" <;>
      simp only [settled, List.getLastD_nil, h, if_true, if_false]

theorem params_of_make {event : BackendEvent} {requestID : String}
    {context : Option DeviceRuntimeContext} {confirmation : PendingConfirmation}
    (h : PendingConfirmation.make event params requestID context = some confirmation) :
    ∃ value, confirmation.params = dictSet params "confirmation_id" value := by
  unfold PendingConfirmation.make at h
  split at h
  · cases h
  · simp only [Option.bind_eq_bind, Option.bind_eq_some_iff, Option.some.injEq] at h
    obtain ⟨-, -, -, -, -, -, confirmationId, -, rfl⟩ := h
    exact ⟨_, rfl⟩

theorem requested_appendEvent {event : BackendEvent} (hP : Stable P) (hrunning : b.isRunning = true)
    (h : ∀ asked, Requested b asked → P asked) :
    ∀ asked, Requested (b.settled (b.appendEvent event)) asked → P asked := by
  intro asked hasked
  rcases hasked with ⟨-, hasked⟩ | hpending
  · rw [activeCall_appendEvent] at hasked
    exact h asked (.inl ⟨hrunning, hasked⟩)
  · rw [pendingConfirmation_appendEvent] at hpending
    cases hconfirmation : b.activeCall.bind fun call =>
        PendingConfirmation.make event call.params call.requestID call.context with
    | none =>
      rw [hconfirmation, Option.none_or] at hpending
      exact h asked (.inr hpending)
    | some confirmation =>
      rw [hconfirmation, Option.some_or] at hpending
      obtain rfl : confirmation.params = asked := Option.some.inj hpending
      obtain ⟨call, hcall, hmake⟩ := Option.bind_eq_some_iff.mp hconfirmation
      obtain ⟨value, hparams⟩ := params_of_make hmake
      rw [hparams]
      exact hP.confirmation _ _ (h _ (.inl ⟨hrunning, by rw [hcall]; rfl⟩))

theorem requested_finishRun {exitCode : Int} (h : ∀ asked, Requested b asked → P asked) :
    ∀ asked, Requested (b.settled (b.finishRun exitCode)) asked → P asked := by
  rintro asked (⟨hrunning, -⟩ | hpending)
  · cases hrunning
  · exact h asked (.inr hpending)

theorem requested_confirmPending (hP : Stable P) (h : ∀ asked, Requested b asked → P asked) :
    ∀ asked, Requested (b.settled b.confirmPending) asked → P asked := by
  unfold confirmPending
  cases hpending : b.pendingConfirmation with
  | none => exact h
  | some confirmation =>
    cases hrunning : b.isRunning with
    | true => exact h
    | false =>
      have hparams : P confirmation.params := h _ (.inr (by rw [hpending]; rfl))
      have hrun := requested_run (b := { b with pendingConfirmation := none }) confirmation.operation
        confirmation.requestID confirmation.context hP hrunning hparams
      simp only [hrunning] at hrun
      dsimp only
      rw [settled_cons]
      exact hrun

theorem requested_cancelPendingConfirmation (h : ∀ asked, Requested b asked → P asked) :
    ∀ asked, Requested (b.settled b.cancelPendingConfirmation) asked → P asked := by
  unfold cancelPendingConfirmation
  cases hpending : b.pendingConfirmation with
  | none => exact h
  | some confirmation =>
    cases hrunning : b.isRunning with
    | true => exact h
    | false =>
      rintro asked (⟨hruns, -⟩ | hwaits)
      · simp [settled] at hruns
      · cases hwaits

/-- A client that is not busy asks nothing, and a cleared one nothing new. -/
theorem requested_clear (h : ∀ asked, Requested b asked → P asked) :
    ∀ asked, Requested (b.settled b.clear) asked → P asked := by
  unfold clear
  cases hrunning : b.isRunning with
  | true => exact h
  | false =>
    rintro asked (⟨hruns, -⟩ | hwaits)
    · simp [settled] at hruns
    · cases hwaits

/-! ### Calls -/

/-- A client that runs knows what it was called with. -/
def Called (b : BackendClient) : Prop := b.isRunning = true → b.activeCall.isSome = true

theorem called_run (operation id : String) (context : Option DeviceRuntimeContext) (h : Called b) :
    Called (b.settled (b.run operation params context id)) := by
  unfold run
  split
  · exact h
  · exact fun _ => rfl

theorem called_clear (h : Called b) : Called (b.settled b.clear) := by
  unfold clear
  split
  · exact h
  · exact h

theorem called_confirmPending (h : Called b) : Called (b.settled b.confirmPending) := by
  unfold confirmPending
  split
  · dsimp only
    rw [settled_cons]
    exact called_run _ _ _ h
  · exact h

theorem called_cancelPendingConfirmation (h : Called b) :
    Called (b.settled b.cancelPendingConfirmation) := by
  unfold cancelPendingConfirmation
  split
  · exact h
  · exact h

theorem called_appendEvent (event : BackendEvent) (h : Called b) :
    Called (b.settled (b.appendEvent event)) := by
  intro hrunning
  rw [isRunning_appendEvent] at hrunning
  rw [activeCall_appendEvent]
  exact h hrunning

end BackendClient

/-! ## The plan that is shown -/

namespace FlashWorkflowStore

variable {p : Platform} {s s' : FlashWorkflowStore} {mode : FlashPlanMode} {start : FlashStart}
  {event : FlashEvent} {shown : Option JsonObject}

/-- A plan has been made, and decodes. -/
def plans (event : FlashEvent) (s : FlashWorkflowStore) : Bool :=
  s.hears event && s.activeAction.any (·.planned.isSome) && event.type = "result" &&
    event.ok != some false && event.plan.isSome

/-- The helper is asked for a plan of the backup, with the selection that is kept for it. -/
structure AsksPlan (p : Platform) (s : FlashWorkflowStore) (mode : FlashPlanMode) : Prop where
  fresh : s.backupSnapshotStale = false
  asks : ∃ backup selection, s.backup = some backup ∧ s.pendingFirmwareSelection = some selection ∧
    ∀ asked, s.backend.Requested asked →
      SameRequest asked (flashPlanParams p backup.backupDir mode selection)

/-- The plan was asked for the backup, with the selection that is kept for it. -/
structure ShowsPlan (p : Platform) (s : FlashWorkflowStore) (shown : Option JsonObject)
    (plan : FlashPlanPayload) : Prop where
  fresh : s.backupSnapshotStale = false
  asked : ∃ backup selection params, s.backup = some backup ∧
    s.plannedFirmwareSelection = some selection ∧ shown = some params ∧
    SameRequest params (flashPlanParams p backup.backupDir plan.mode selection)

/-- What a store keeps to, where `shown` is the request that the plan shown has come from. -/
structure Planned (p : Platform) (s : FlashWorkflowStore) (shown : Option JsonObject) : Prop where
  called : s.backend.Called
  backingUp : s.activeAction = some .backupAndInspect → s.plan = none
  planning : ∀ action ∈ s.activeAction, ∀ mode, action.planned = some mode → AsksPlan p s mode
  plan : ∀ plan ∈ s.plan, ShowsPlan p s shown plan
  writes : s.writing = true → ∃ params, shown = some params ∧
    ∀ asked, s.backend.Requested asked → SameRequest asked params

/-- What a shown plan depends on is the same. -/
structure SameShown (s s' : FlashWorkflowStore) : Prop where
  backup : s'.backup = s.backup
  stale : s'.backupSnapshotStale = s.backupSnapshotStale
  selection : s'.plannedFirmwareSelection = s.plannedFirmwareSelection

theorem ShowsPlan.same {plan : FlashPlanPayload} (h : ShowsPlan p s shown plan) (hs : SameShown s s') :
    ShowsPlan p s' shown plan where
  fresh := hs.stale.trans h.fresh
  asked := by
    rw [hs.backup, hs.selection]
    exact h.asked

theorem Planned.plan_same (h : Planned p s shown) (hs : SameShown s s')
    (hplan : s'.plan = none ∨ s'.plan = s.plan) : ∀ plan ∈ s'.plan, ShowsPlan p s' shown plan := by
  intro plan hmem
  rcases hplan with hnone | hsame
  · rw [hnone] at hmem
    cases hmem
  · rw [hsame] at hmem
    exact (h.plan plan hmem).same hs

/-- Nothing but the plan and the messages has changed, and the plan at most by going away. -/
theorem Planned.same (h : Planned p s shown) (hs : SameShown s s')
    (hplan : s'.plan = none ∨ s'.plan = s.plan) (hbackend : s'.backend = s.backend)
    (haction : s'.activeAction = s.activeAction)
    (hpending : s'.pendingFirmwareSelection = s.pendingFirmwareSelection) : Planned p s' shown where
  called := by
    rw [hbackend]
    exact h.called
  backingUp hbackup := by
    rw [haction] at hbackup
    rcases hplan with hnone | hsame
    · exact hnone
    · rw [hsame]
      exact h.backingUp hbackup
  planning action hmem mode hmode := by
    rw [haction] at hmem
    have hasks := h.planning action hmem mode hmode
    refine ⟨hs.stale.trans hasks.fresh, ?_⟩
    rw [hs.backup, hpending, hbackend]
    exact hasks.asks
  plan := h.plan_same hs hplan
  writes hwriting := by
    rw [writing, haction] at hwriting
    rw [hbackend]
    exact h.writes hwriting

theorem Planned.reject (h : Planned p s shown) : Planned p s.reject shown :=
  h.same ⟨rfl, rfl, rfl⟩ (.inr rfl) rfl rfl rfl

/-- Without an action, only the plan matters. -/
theorem planned_idle (hcalled : s.backend.Called) (haction : s.activeAction = none)
    (hplan : ∀ plan ∈ s.plan, ShowsPlan p s shown plan) : Planned p s shown where
  called := hcalled
  backingUp hbackup := by
    rw [haction] at hbackup
    cases hbackup
  planning action hmem := by
    rw [haction] at hmem
    cases hmem
  plan := hplan
  writes hwriting := by
    rw [writing, haction] at hwriting
    cases hwriting

/-- An action ends, with the plan as it was or without one. -/
theorem Planned.ended (h : Planned p s shown) (hs : SameShown s s')
    (hplan : s'.plan = none ∨ s'.plan = s.plan) (hbackend : s'.backend = s.backend)
    (haction : s'.activeAction = none) : Planned p s' shown :=
  planned_idle (by rw [hbackend]; exact h.called) haction (h.plan_same hs hplan)

/-- The client has gone on by itself, and asks nothing new. -/
theorem Planned.backend (h : Planned p s shown) {b : BackendClient} (hcalled : b.Called)
    (hasked : ∀ params, BackendClient.Stable (SameRequest · params) →
      (∀ asked, s.backend.Requested asked → SameRequest asked params) →
      ∀ asked, b.Requested asked → SameRequest asked params) :
    Planned p { s with backend := b } shown where
  called := hcalled
  backingUp := h.backingUp
  planning action hmem mode hmode := by
    obtain ⟨hfresh, backup, selection, hbackup, hselection, hsame⟩ := h.planning action hmem mode hmode
    exact ⟨hfresh, backup, selection, hbackup, hselection,
      hasked _ (BackendClient.stable_sameRequest _) hsame⟩
  plan plan hmem := (h.plan plan hmem).same ⟨rfl, rfl, rfl⟩
  writes hwriting := by
    obtain ⟨params, hshown, hsame⟩ := h.writes hwriting
    exact ⟨params, hshown, hasked _ (BackendClient.stable_sameRequest _) hsame⟩

theorem Planned.appendEvent (h : Planned p s shown) (hrunning : s.backend.isRunning = true)
    (event : BackendEvent) :
    Planned p { s with backend := s.backend.settled (s.backend.appendEvent event) } shown :=
  h.backend (BackendClient.called_appendEvent event h.called) fun _ hstable hsame =>
    BackendClient.requested_appendEvent hstable hrunning hsame

theorem Planned.finishRun (h : Planned p s shown) (exitCode : Int) :
    Planned p { s with backend := s.backend.settled (s.backend.finishRun exitCode) } shown :=
  h.backend (fun hrunning => absurd hrunning Bool.false_ne_true) fun _ _ hsame =>
    BackendClient.requested_finishRun hsame

theorem Planned.confirmPending (h : Planned p s shown) : Planned p s.confirmPending shown :=
  h.backend (BackendClient.called_confirmPending h.called) fun _ hstable hsame =>
    BackendClient.requested_confirmPending hstable hsame

/-! ### Events -/

theorem Planned.applyError (h : Planned p s shown) : Planned p (s.applyError event) shown := by
  unfold FlashWorkflowStore.applyError
  split
  · exact h.same ⟨rfl, rfl, rfl⟩ (.inr rfl) rfl rfl rfl
  · split
    · exact h.ended ⟨rfl, rfl, rfl⟩ (.inr rfl) rfl rfl
    · dsimp only
      split
      · exact planned_idle h.called rfl fun plan hmem => by cases hmem
      · exact h.ended ⟨rfl, rfl, rfl⟩ (.inr rfl) rfl rfl

theorem Planned.applyWrite (h : Planned p s shown) (result : FlashWritePayload) :
    Planned p (s.applyWrite result).completed shown := by
  unfold FlashWorkflowStore.applyWrite
  dsimp only
  split
  · exact planned_idle h.called rfl fun plan hmem => by cases hmem
  · exact h.ended ⟨rfl, rfl, rfl⟩ (.inr rfl) rfl rfl

/-- An event other than a plan that decodes changes what is shown at most by taking it away. -/
theorem Planned.process (h : Planned p s shown) (hplans : s.plans event = false) :
    Planned p (s.process p event) shown := by
  rcases process_cases p event s with h' | ⟨-, -, stage, -, h'⟩ | ⟨-, -, h'⟩ | ⟨-, -, -, h'⟩ |
    ⟨hheard, hresult, hok, h'⟩ <;> rw [h']
  · exact h
  · exact h.same ⟨rfl, rfl, rfl⟩ (.inr rfl) rfl rfl rfl
  · exact h.applyError
  · exact h.ended ⟨rfl, rfl, rfl⟩ (.inr rfl) rfl rfl
  · rcases action_cases s with haction | haction | haction | ⟨action, mode, haction, hmode⟩
    · rw [applyResult_none haction]
      exact h.ended ⟨rfl, rfl, rfl⟩ (.inr rfl) rfl rfl
    · rcases applyResult_backup (p := p) event haction with ⟨-, happly⟩ | ⟨backup, -, happly⟩ <;>
        rw [happly]
      · exact h.ended ⟨rfl, rfl, rfl⟩ (.inr rfl) rfl rfl
      · have hnone : s.plan = none := h.backingUp haction
        refine planned_idle h.called rfl fun plan hmem => ?_
        rw [show (s.applyBackup backup).completed.plan = s.plan from rfl, hnone] at hmem
        cases hmem
    · rcases applyResult_write (p := p) event haction with ⟨-, happly⟩ | ⟨result, -, happly⟩ <;>
        rw [happly]
      · exact h.ended ⟨rfl, rfl, rfl⟩ (.inr rfl) rfl rfl
      · exact h.applyWrite result
    · rcases applyResult_plan (p := p) event haction hmode with ⟨-, happly⟩ | ⟨plan, hsome, -⟩
      · rw [happly]
        exact h.ended ⟨rfl, rfl, rfl⟩ (.inr rfl) rfl rfl
      · simp [plans, hheard, haction, hmode, hresult, hok, hsome] at hplans

theorem Planned.resetRunState (h : Planned p s shown) : Planned p s.resetRunState shown :=
  planned_idle (BackendClient.called_clear h.called) rfl (h.plan_same ⟨rfl, rfl, rfl⟩ (.inr rfl))

/-- A run that starts asks for what it is given. -/
theorem startRun_started {action : FlashUserAction} {params : JsonObject}
    (hrun : s.startRun p action params start = (s', true)) :
    ∃ b : BackendClient, b.isRunning = true ∧ b.Called ∧
      (∀ asked, b.Requested asked → SameRequest asked params) ∧ s' = { s.resetRunState with
        backend := b
        activeOperation := some ⟨start.id, "flash", start.profileID, start.context⟩
        activeAction := some action } := by
  rcases startRun_cases p action params start s with h | h | ⟨hbusy, h⟩ <;> rw [h] at hrun
  · cases hrun
  · cases hrun
  · have hidle : s.resetRunState.backend.isRunning = false := by
      show (s.backend.settled s.backend.clear).isRunning = false
      rw [BackendClient.isRunning_clear]
      exact (Bool.or_eq_false_iff.mp hbusy).1
    refine ⟨_, BackendClient.isRunning_run .., ?_, ?_, (congrArg Prod.fst hrun).symm⟩
    · exact BackendClient.called_run _ _ _ fun hrunning =>
        absurd (hidle.symm.trans hrunning) Bool.false_ne_true
    · exact BackendClient.requested_run _ _ _ (BackendClient.stable_sameRequest params) hidle
        (sameRequest_injectingPassword _)

theorem Planned.startRun_refused {action : FlashUserAction} {params : JsonObject}
    (h : Planned p s shown) (hrun : s.startRun p action params start = (s', false)) :
    Planned p s' shown := by
  rcases startRun_cases p action params start s with h' | h' | ⟨hbusy, h'⟩ <;> rw [h'] at hrun
  · obtain ⟨rfl, -⟩ := Prod.mk.inj hrun
    exact h.reject
  · obtain ⟨rfl, -⟩ := Prod.mk.inj hrun
    exact h.resetRunState.reject
  · cases hrun

theorem Planned.backupAndInspect (h : Planned p s shown) :
    Planned p (s.backupAndInspect p start).1 shown := by
  unfold FlashWorkflowStore.backupAndInspect
  split
  · exact h.reject
  · rcases hrun : s.startRun p .backupAndInspect flashBackupParams start with ⟨s', _ | _⟩
    · exact h.startRun_refused hrun
    · obtain ⟨b, -, hcalled, -, rfl⟩ := startRun_started hrun
      refine ⟨hcalled, fun _ => rfl, ?_, ?_, ?_⟩
      · rintro action ⟨⟩ mode hmode
        cases hmode
      · rintro plan ⟨⟩
      · intro hwriting
        cases hwriting

theorem planned_planAction (mode : FlashPlanMode) :
    (FlashUserAction.planAction mode).planned = some mode := by
  cases mode <;> rfl

theorem isWrite_planAction (mode : FlashPlanMode) :
    (FlashUserAction.planAction mode).isWrite = false := by
  cases mode <;> rfl

theorem Planned.planFlash (h : Planned p s shown) : Planned p (s.planFlash p mode start).1 shown := by
  unfold FlashWorkflowStore.planFlash
  cases hcan : s.canPlan with
  | false => exact h.reject
  | true =>
    have hfresh : s.backupSnapshotStale = false := by
      simp only [canPlan, Bool.and_eq_true, Bool.not_eq_true'] at hcan
      exact hcan.2
    rw [if_neg (by simp)]
    split
    · exact h.reject
    · cases hbackup : s.backup with
      | none => exact h.reject
      | some backup =>
        dsimp only
        rcases hrun : s.startRun p (.planAction mode)
          (flashPlanParams p backup.backupDir mode (s.currentFirmwareSelection p)) start with
          ⟨s', _ | _⟩
        · exact h.startRun_refused hrun
        · obtain ⟨b, -, hcalled, hasked, rfl⟩ := startRun_started hrun
          refine ⟨hcalled, ?_, ?_, ?_, ?_⟩
          · intro hbackup
            have haction := congrArg FlashUserAction.planned (Option.some.inj hbackup)
            rw [planned_planAction] at haction
            cases haction
          · rintro action ⟨⟩ mode' hmode
            rw [planned_planAction] at hmode
            obtain rfl : mode = mode' := Option.some.inj hmode
            exact ⟨hfresh, backup, _, hbackup, rfl, hasked⟩
          · rintro plan ⟨⟩
          · intro hwriting
            have hwrite : (FlashUserAction.planAction mode).isWrite = true := hwriting
            rw [isWrite_planAction] at hwrite
            cases hwrite

theorem startRun_conflict {action : FlashUserAction} {params : JsonObject}
    (hrun : s.startRun p action params start = (s', true)) : start.conflict = false := by
  cases hconflict : start.conflict with
  | false => rfl
  | true =>
    rw [FlashWorkflowStore.startRun, hconflict] at hrun
    split at hrun <;> cases hrun

theorem planned_of_isWrite {action : FlashUserAction} (h : action.isWrite = true) :
    action.planned = none := by
  cases action <;> simp_all [FlashUserAction.isWrite, FlashUserAction.planned]

/-- A write is of the plan shown and of the backup, with the selection that the plan was made for. -/
structure WritesPlan (p : Platform) (s : FlashWorkflowStore) (mode : FlashPlanMode) : Prop where
  idle : s.isBusy = false
  writesFirmware : mode.writesFirmware = true
  plan : s.plan.map (·.mode) = some mode
  writeRequested : s.plan.map (·.writeRequested) = some true
  backup : s.backup.isSome = true
  selection : s.plannedFirmwareSelection = some (s.currentFirmwareSelection p)

/-- What `write` does: it refuses, or a run starts with the request for the plan shown. -/
theorem write_cases (p : Platform) (mode : FlashPlanMode) (start : FlashStart)
    (s : FlashWorkflowStore) :
    (WritesPlan p s mode ∧ ∃ backup action s', s.backup = some backup ∧
      action.isWrite = true ∧
      s.startRun p action (flashWriteParams p backup.backupDir mode (s.currentFirmwareSelection p))
        start = (s', true) ∧
      s.write p mode start = ({ s' with state := .writing, writeResult := none }, true)) ∨
    (∃ action params s', s.startRun p action params start = (s', false) ∧
      s.write p mode start = (s', false)) ∨
    s.write p mode start = (s.reject, false) := by
  unfold FlashWorkflowStore.write
  by_cases hwrites : mode.writesFirmware = true
  · rw [if_neg (by simp [hwrites])]
    cases hbusy : s.isBusy with
    | true => exact .inr (.inr rfl)
    | false =>
      rw [if_neg Bool.false_ne_true]
      cases hplan : s.plan with
      | none => exact .inr (.inr rfl)
      | some plan =>
        cases hbackup : s.backup with
        | none => exact .inr (.inr rfl)
        | some backup =>
          dsimp only
          split
          · rename_i hmatches
            rw [Bool.and_eq_true, decide_eq_true_eq] at hmatches
            split
            · exact .inr (.inr rfl)
            · rename_i hselection
              rcases hrun : s.startRun p (if mode = .patch then .writePatch else .writeRestore)
                (flashWriteParams p backup.backupDir mode (s.currentFirmwareSelection p)) start with
                ⟨s', _ | _⟩
              · exact .inr (.inl ⟨_, _, s', hrun, rfl⟩)
              · refine .inl ⟨⟨hbusy, hwrites, ?_, ?_, ?_, not_not.mp hselection⟩, backup, _, s', rfl,
                  ?_, hrun, rfl⟩
                · simp [hplan, hmatches.1]
                · simp [hplan, hmatches.2]
                · simp [hbackup]
                · split <;> rfl
          · exact .inr (.inr rfl)
  · rw [if_pos (by simp [hwrites])]
    exact .inr (.inr rfl)

/-- What is asked is what `shown` has asked. -/
def AsksShown (s : FlashWorkflowStore) (shown : Option JsonObject) : Prop :=
  ∃ params, shown = some params ∧ ∀ asked, s.backend.Requested asked → SameRequest asked params

/-- The helper runs, and was called with what `shown` has asked. -/
def RunsShown (s : FlashWorkflowStore) (shown : Option JsonObject) : Prop :=
  ∃ call params, s.backend.isRunning = true ∧ s.backend.activeCall = some call ∧
    shown = some params ∧ SameRequest call.params params

theorem AsksShown.runsShown (h : AsksShown s shown) (hrunning : s.backend.isRunning = true)
    (hcalled : s.backend.Called) : RunsShown s shown := by
  obtain ⟨params, hshown, hasked⟩ := h
  obtain ⟨call, hcall⟩ := Option.isSome_iff_exists.mp (hcalled hrunning)
  exact ⟨call, params, hrunning, hcall, hshown, hasked _ (.inl ⟨hrunning, by rw [hcall]; rfl⟩)⟩

/-- A write that starts asks for what the plan shown has asked for, and keeps it. -/
theorem Planned.write_started (h : Planned p s shown) (hrun : (s.write p mode start).2 = true) :
    WritesPlan p s mode ∧ start.conflict = false ∧ RunsShown (s.write p mode start).1 shown ∧
      Planned p (s.write p mode start).1 shown := by
  rcases write_cases p mode start s with ⟨hwrites, backup, action, s', hbackup, hwrite, hstart, hrun'⟩ |
    ⟨_, _, _, -, hrun'⟩ | hrun'
  · obtain ⟨b, hrunning, hcalled, hasked, rfl⟩ := startRun_started hstart
    obtain ⟨plan, hplan, hmode⟩ := Option.map_eq_some_iff.mp hwrites.plan
    obtain ⟨hfresh, backup', selection, params, hbackup', hselection, hshown, hsame⟩ := h.plan plan hplan
    rw [hwrites.selection] at hselection
    rw [hbackup] at hbackup'
    obtain rfl : backup = backup' := Option.some.inj hbackup'
    obtain rfl : s.currentFirmwareSelection p = selection := Option.some.inj hselection
    rw [hmode] at hsame
    have hasks : ∀ asked, b.Requested asked → SameRequest asked params := fun asked hmem =>
      (hasked asked hmem).trans ((sameRequest_write p backup.backupDir mode _).trans hsame.symm)
    rw [hrun']
    refine ⟨hwrites, startRun_conflict hstart, AsksShown.runsShown ⟨params, hshown, hasks⟩ hrunning
      hcalled, hcalled, ?_, ?_, ?_, ?_⟩
    · rintro ⟨⟩
      cases hwrite
    · rintro action' ⟨⟩ mode' hmode'
      rw [planned_of_isWrite hwrite] at hmode'
      cases hmode'
    · exact h.plan_same ⟨rfl, rfl, rfl⟩ (.inr rfl)
    · exact fun _ => ⟨params, hshown, hasks⟩
  · rw [hrun'] at hrun
    cases hrun
  · rw [hrun'] at hrun
    cases hrun

theorem Planned.write (h : Planned p s shown) : Planned p (s.write p mode start).1 shown := by
  cases hrun : (s.write p mode start).2 with
  | true => exact (h.write_started hrun).2.2.2
  | false =>
    rcases write_cases p mode start s with ⟨-, _, _, _, -, -, -, hrun'⟩ |
      ⟨action, params, s', hstart, hrun'⟩ | hrun'
    · rw [hrun'] at hrun
      cases hrun
    · rw [hrun']
      exact h.startRun_refused hstart
    · rw [hrun']
      exact h.reject

theorem Planned.invalidate (h : Planned p s shown) :
    Planned p (s.invalidatePlanIfFirmwareSelectionChanged p) shown := by
  unfold invalidatePlanIfFirmwareSelectionChanged
  split
  · refine ⟨h.called, fun _ => rfl, fun action hmem mode hmode => ?_, fun plan hmem => ?_, h.writes⟩
    · have hasks := h.planning action hmem mode hmode
      exact ⟨hasks.fresh, hasks.asks⟩
    · cases hmem
  · exact h

theorem Planned.refresh (h : Planned p s shown) (supportsFlashBootHook : Bool) :
    Planned p (s.refresh supportsFlashBootHook) shown := by
  unfold FlashWorkflowStore.refresh
  dsimp only
  split
  · exact h.same ⟨rfl, rfl, rfl⟩ (.inr rfl) rfl rfl rfl
  · exact h.same ⟨rfl, rfl, rfl⟩ (.inr rfl) rfl rfl rfl

theorem Planned.clear (h : Planned p s shown) : Planned p s.clear shown :=
  planned_idle (BackendClient.called_clear h.called) rfl (fun plan hmem => by cases hmem)

theorem plans_cancelled (confirmation : PendingConfirmation) :
    s.plans (cancelled confirmation) = false := by
  simp [plans, cancelled]

theorem Planned.cancelPendingConfirmation (h : Planned p s shown) :
    Planned p (s.cancelPendingConfirmation p) shown := by
  have hsettled : Planned p { s with
      backend := s.backend.settled s.backend.cancelPendingConfirmation } shown :=
    h.backend (BackendClient.called_cancelPendingConfirmation h.called) fun _ _ hsame =>
      BackendClient.requested_cancelPendingConfirmation hsame
  unfold FlashWorkflowStore.cancelPendingConfirmation
  dsimp only
  split
  · exact hsettled.process (plans_cancelled _)
  · exact hsettled

end FlashWorkflowStore

/-! ## Runs -/

open FlashWorkflowStore

/-- A store, and the request whose result is the plan that it shows. -/
structure PlannedFlash where
  store : FlashWorkflowStore
  shown : Option JsonObject

namespace PlannedFlash

variable {p : Platform} {w w' : PlannedFlash}

def after (p : Platform) (w : PlannedFlash) (step : Step) : PlannedFlash where
  store := w.store.after p step
  shown :=
    match step with
    | .helperEvent event =>
        if w.store.plans event then w.store.backend.activeCall.map (·.params) else w.shown
    | _ => w.shown

def planned (steps : List Step) : PlannedFlash :=
  steps.foldl (PlannedFlash.after plainPlatform) ⟨.fresh .writesEnabled, none⟩

end PlannedFlash

end TimeCapsule.App
