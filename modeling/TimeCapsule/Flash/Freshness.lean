import TimeCapsule.Flash.Actions

/-!
# Used backups

Once a flash command has been sent, the manifest says so until a backup has replaced the raw banks
and the manifest, wherever the actions in between were killed; a plan on such a directory is
refused.
-/

namespace TimeCapsule.Flash

open Lib

/-! ## Runs -/

inductive FlashAction where
  | backup (backupDir : String)
  | plan (operation : FlashOperation) (params : PlanParams)
  | write (operation : FlashOperation) (params : PlanParams) (reboot : RebootParams)

namespace FlashAction

def program (env : ActionEnv) : FlashAction → FlashM FlashAnalysisBundle
  | .backup backupDir => backupOperation env (some backupDir)
  | .plan operation params => planOperation env operation params
  | .write operation params reboot => writeOperation env operation params reboot

/-- The backup directory an action works on, as it was given. -/
def backupDir : FlashAction → String
  | .backup backupDir => backupDir
  | .plan _ params => params.backupDir
  | .write _ params _ => params.backupDir

end FlashAction

/-- Whatever the device and the file system answer. -/
abbrev anyAnswer : FlashOp → ((op : FlashOp) → FlashAns op) → FlashWorld → Prop :=
  fun _ _ _ => True

/-- Actions on one backup directory, one after the other, each finished or killed somewhere. -/
inductive FlashRun (env : ActionEnv) (dir : String) : FlashWorld → FlashWorld → Prop
  | refl (w : FlashWorld) : FlashRun env dir w w
  | action {w w' w'' : FlashWorld} (a : FlashAction) (h : FlashRun env dir w w')
      (hdir : env.resolveDir a.backupDir = dir)
      (hv : (a.program env).run.Visits flashKernel anyAnswer w' w'') : FlashRun env dir w w''

/-! ## What is to be kept -/

def rawBank (dir : String) (name : String) : Path := ⟨dir, name ++ ".raw"⟩

def manifestPath (dir : String) : Path := ⟨dir, "manifest.json"⟩

/-- The writes of a finished backup. -/
def backupWrites (dir : String) : List FlashEvent :=
  [.wrote (rawBank dir "primary"), .wrote (rawBank dir "secondary"), .wrote (manifestPath dir)]

/-- A flash command has been sent and no backup has been finished since. -/
def AwaitsBackup (dir : String) (log : List FlashEvent) : Prop :=
  ∃ before bank after, log = before ++ .flashed bank :: after ∧ ¬ backupWrites dir <:+: after

/-- The manifest on disk says that it was used for a write. -/
def MarkedUsed (dir : String) (w : FlashWorld) : Prop :=
  ∃ manifest, w.files (manifestPath dir) = some (.json (.obj manifest)) ∧
    backupWasUsedForWrite manifest = true

def Guarded (dir : String) (w : FlashWorld) : Prop :=
  AwaitsBackup dir w.log → MarkedUsed dir w

section Log

variable {dir : String} {log : List FlashEvent} {path : Path}

theorem AwaitsBackup.of_wrote (h : AwaitsBackup dir (log ++ [.wrote path])) :
    AwaitsBackup dir log := by
  obtain ⟨before, bank, after, heq, hnone⟩ := h
  rcases List.eq_nil_or_concat after with rfl | ⟨after', last, rfl⟩
  · have hlast := congrArg List.getLast? heq
    simp at hlast
  · have hsplit : log ++ [FlashEvent.wrote path] =
        (before ++ .flashed bank :: after') ++ [last] := by
      rw [heq]
      simp
    obtain ⟨hlog, -⟩ := List.append_inj' hsplit rfl
    exact ⟨before, bank, after', hlog, fun hwrites => hnone (hwrites.trans ⟨[], [last], by simp⟩)⟩

theorem not_awaitsBackup_nil : ¬ AwaitsBackup dir [] := by
  rintro ⟨before, bank, after, heq, -⟩
  exact absurd heq.symm (by simp)

theorem not_awaitsBackup_backupWrites : ¬ AwaitsBackup dir (log ++ backupWrites dir) := by
  rintro ⟨before, bank, after, heq, hnone⟩
  apply hnone
  have hmem : FlashEvent.flashed bank ∉ backupWrites dir := by simp [backupWrites]
  obtain ⟨middle, hlog, hafter⟩ | ⟨middle, hbefore, hwrites⟩ := List.append_eq_append_iff.mp heq
  · cases middle with
    | nil => exact absurd (hafter ▸ List.mem_cons_self) hmem
    | cons event middle => exact absurd (by rw [hafter]; simp) hmem
  · cases middle with
    | nil =>
      rw [List.nil_append] at hwrites
      exact absurd (hwrites ▸ List.mem_cons_self) hmem
    | cons event middle =>
      obtain ⟨-, rfl⟩ := List.cons.inj hwrites
      exact (List.suffix_append middle _).isInfix

end Log

/-! ## Programs that only read -/

abbrev Preserves {α : Type} (I : FlashWorld → Prop) (p : FlashM α) : Prop :=
  Prog.Preserves flashKernel anyAnswer I p

/-- The program leaves the world alone. -/
def ReadsOnly {α : Type} (p : FlashM α) : Prop := ∀ I : FlashWorld → Prop, Preserves I p

section Reading

variable {env : ActionEnv} {α β : Type}

/-- Operations without an effect. -/
def FlashOp.Silent : FlashOp → Prop
  | .writeFile _ _ => False
  | .flashFirmwareBank _ _ => False
  | _ => True

theorem step_silent {op : FlashOp} (h : op.Silent) (fault : (op : FlashOp) → FlashAns op)
    (w : FlashWorld) : (flashKernel.step op fault w).2 = w := by
  cases op <;> first | rfl | exact h.elim

theorem readsOnly_ask {op : FlashOp} (h : op.Silent) : ReadsOnly (FlashM.ask op) :=
  fun _ => Prog.preserves_ask fun fault w _ hw => (step_silent h fault w).symm ▸ hw

theorem readsOnly_pure (a : α) : ReadsOnly (pure a : FlashM α) := fun _ => Prog.preserves_pure a

theorem readsOnly_ofExcept (result : Except ActionError α) : ReadsOnly (ofExcept result) := by
  cases result with
  | ok a => exact readsOnly_pure a
  | error e => exact fun _ => Prog.preserves_throw e

theorem readsOnly_failure (message : String) : ReadsOnly (flashFailure message : FlashM α) :=
  fun _ => Prog.preserves_throw _

theorem readsOnly_raiseIf (refused : Bool) (error : ActionError) :
    ReadsOnly (raiseIf refused error) := by
  cases refused with
  | true => exact fun _ => Prog.preserves_throw error
  | false => exact readsOnly_pure ()

theorem ReadsOnly.bind {p : FlashM α} {f : α → FlashM β} (hp : ReadsOnly p)
    (hf : ∀ a, ReadsOnly (f a)) : ReadsOnly (p >>= f) :=
  fun I => (hp I).bind fun a => hf a I

theorem readsOnly_dumpRemoteBank (device : String) : ReadsOnly (dumpRemoteBank device) :=
  (readsOnly_ask (by trivial)).bind fun _ => readsOnly_ofExcept _

theorem readsOnly_readAcpPropertyInt (name : String) : ReadsOnly (readAcpPropertyInt name) :=
  (readsOnly_ask (by trivial)).bind fun _ => readsOnly_ofExcept _

theorem readsOnly_readFlashInputs : ReadsOnly readFlashInputs := by
  apply (readsOnly_dumpRemoteBank _).bind
  intro primary
  apply (readsOnly_dumpRemoteBank _).bind
  intro secondary
  apply (readsOnly_readAcpPropertyInt _).bind
  intro cks1
  apply (readsOnly_readAcpPropertyInt _).bind
  intro cks2
  apply (readsOnly_readAcpPropertyInt _).bind
  intro syap
  apply (readsOnly_ask (by trivial)).bind
  intro liveLogin
  exact (readsOnly_ofExcept _).bind fun _ => readsOnly_pure _

theorem readsOnly_loadFlashManifest (backupDir : String) :
    ReadsOnly (loadFlashManifest env backupDir) := by
  apply (readsOnly_ask (by trivial)).bind
  intro content
  split
  · exact readsOnly_failure _
  · split
    · exact readsOnly_failure _
    · exact readsOnly_pure _
    · exact readsOnly_failure _

theorem readsOnly_readBytes (path : Path) : ReadsOnly (readBytes env path) := by
  apply (readsOnly_ask (by trivial)).bind
  intro content
  split
  · exact readsOnly_failure _
  · exact readsOnly_pure _
  · exact readsOnly_pure _

theorem readsOnly_inspectBackup (backupDir : String) (operation : FlashOperation) :
    ReadsOnly (inspectBackup env backupDir operation) := by
  apply (readsOnly_loadFlashManifest _).bind
  intro manifest
  apply (readsOnly_ofExcept _).bind
  intro _
  apply ReadsOnly.bind ((readsOnly_readBytes _).bind fun _ => (readsOnly_readBytes _).bind fun _ =>
    readsOnly_pure _)
  rintro ⟨primary, secondary⟩
  apply (readsOnly_ofExcept _).bind
  intro cks1
  apply (readsOnly_ofExcept _).bind
  intro cks2
  apply (readsOnly_ofExcept _).bind
  intro osRelease
  exact (readsOnly_ofExcept _).bind fun _ => readsOnly_pure _

theorem readsOnly_resolveTarget : ReadsOnly resolveTarget :=
  (readsOnly_ask (by trivial)).bind fun _ => readsOnly_ofExcept _

theorem readsOnly_writeRebootPolicy (reboot : RebootParams) (operation : FlashOperation) :
    ReadsOnly (writeRebootPolicy reboot operation) :=
  (readsOnly_raiseIf _ _).bind fun _ => readsOnly_pure _

theorem readsOnly_validateLiveTarget (plan : FlashPlan) :
    ReadsOnly (validateLiveTargetMatchesBackup plan) := by
  unfold validateLiveTargetMatchesBackup
  split
  · exact readsOnly_failure _
  · exact (readsOnly_dumpRemoteBank _).bind fun _ => readsOnly_raiseIf _ _

end Reading

/-! ## Programs that write files -/

/-- No file write breaks the invariant. -/
def WriteStable (I : FlashWorld → Prop) : Prop :=
  ∀ w path content, I w → I (w.write path content)

section Writing

variable {env : ActionEnv} {I : FlashWorld → Prop} {α β : Type}

theorem step_writeFile {path : Path} {content : FileContent} (fault : (op : FlashOp) → FlashAns op)
    (w : FlashWorld) :
    flashKernel.step (.writeFile path content) fault w = (true, w.write path content) ∨
      flashKernel.step (.writeFile path content) fault w = (false, w) := by
  have hcases : ∀ written : Bool,
      (written, if written then w.write path content else w) = (true, w.write path content) ∨
        (written, if written then w.write path content else w) = (false, w) := by
    intro written
    cases written with
    | true => exact Or.inl rfl
    | false => exact Or.inr rfl
  exact hcases (fault (.writeFile path content))

theorem preserves_writeFile {path : Path} {content : FileContent}
    (h : ∀ w, I w → I (w.write path content)) : Preserves I (writeFile env path content) := by
  apply Prog.Preserves.bind
  · refine Prog.preserves_ask fun fault w _ hw => ?_
    rcases step_writeFile fault w with hstep | hstep
    · rw [hstep]
      exact h w hw
    · rw [hstep]
      exact hw
  · intro written
    cases written with
    | true => exact Prog.preserves_pure _
    | false => exact Prog.preserves_throw _

theorem ReadsOnly.bind_preserves {p : FlashM α} {f : α → FlashM β} (hp : ReadsOnly p)
    (hf : ∀ a, Preserves I (f a)) : Preserves I (p >>= f) :=
  (hp I).bind hf

theorem preserves_savePatchedPrimaryFor (hI : WriteStable I) (operation : FlashOperation)
    (bundle : FlashAnalysisBundle) : Preserves I (savePatchedPrimaryFor env operation bundle) := by
  unfold savePatchedPrimaryFor savePrimaryPatchedBankIfReady
  split
  · split
    · exact Prog.preserves_pure _
    · exact (preserves_writeFile fun w => hI w _ _).bind fun _ => Prog.preserves_pure _
  · exact Prog.preserves_pure _

theorem preserves_saveAcpFlashPayload (hI : WriteStable I) (backupDir : String) (plan : FlashPlan) :
    Preserves I (saveAcpFlashPayload env backupDir plan) := by
  unfold saveAcpFlashPayload
  split
  · exact Prog.preserves_pure _
  · dsimp only
    split
    · exact Prog.preserves_pure _
    · exact (preserves_writeFile fun w => hI w _ _).bind fun _ => Prog.preserves_pure _

theorem preserves_planFlashFromBackup (hI : WriteStable I) (operation : FlashOperation)
    (params : PlanParams) : Preserves I (planFlashFromBackup env operation params) := by
  apply (readsOnly_raiseIf _ _).bind_preserves
  intro _
  apply (readsOnly_inspectBackup _ _).bind_preserves
  intro bundle
  apply (readsOnly_ofExcept _).bind_preserves
  intro syap
  apply (readsOnly_ofExcept _).bind_preserves
  intro plan
  cases plan with
  | none => exact (preserves_writeFile fun w => hI w _ _).bind fun _ => Prog.preserves_pure _
  | some plan =>
    apply (preserves_savePatchedPrimaryFor hI _ _).bind
    intro patched
    apply (preserves_saveAcpFlashPayload hI _ _).bind
    intro payloadPath
    exact (preserves_writeFile fun w => hI w _ _).bind fun _ => Prog.preserves_pure _

theorem preserves_recordWriteOutcome (hI : WriteStable I) (bundle : FlashAnalysisBundle)
    (plan : FlashPlan) (status : String) (validated modified : Bool) (stage : Option String)
    (result : Option JsonObject) :
    Preserves I (recordWriteOutcome env bundle plan status validated modified stage result) :=
  (preserves_writeFile fun w => hI w _ _).bind fun _ => Prog.preserves_pure _

theorem Preserves.rethrowApp {p : FlashM α} (hp : Preserves I p) (code note : String) :
    Preserves I (rethrowApp code note p) := by
  apply Prog.Preserves.tryCatch hp
  intro e
  split <;> exact Prog.preserves_throw _

end Writing

/-! ## Marked manifests -/

section Marking

variable {env : ActionEnv} {dir : String} {manifest : JsonObject} {w : FlashWorld} {path : Path}
  {content : FileContent} {α β : Type}

theorem writeStable_calm : WriteStable fun w => ¬ AwaitsBackup dir w.log :=
  fun _ _ _ hw h => hw h.of_wrote

theorem FlashWorld.files_write_self : (w.write path content).files path = some content :=
  if_pos rfl

theorem FlashWorld.files_write_of_ne {p : Path} (h : p ≠ path) :
    (w.write path content).files p = w.files p := if_neg h

theorem markedUsed_write (h : backupWasUsedForWrite manifest = true) :
    MarkedUsed dir (w.write (manifestPath dir) (.json (.obj manifest))) :=
  ⟨manifest, FlashWorld.files_write_self, h⟩

theorem MarkedUsed.write_of_ne (h : MarkedUsed dir w) (hne : manifestPath dir ≠ path) :
    MarkedUsed dir (w.write path content) := by
  obtain ⟨manifest, hfile, hused⟩ := h
  exact ⟨manifest, (FlashWorld.files_write_of_ne hne).trans hfile, hused⟩

theorem manifestPath_ne {name : String} (h : "manifest.json" ≠ name) :
    manifestPath dir ≠ ⟨dir, name⟩ :=
  fun heq => h (congrArg Path.name heq)

theorem MarkedUsed.guarded (h : MarkedUsed dir w) : Guarded dir w := fun _ => h

theorem guarded_of_calm (h : ¬ AwaitsBackup dir w.log) : Guarded dir w := fun hawaits => (h hawaits).elim

/-- Writing another file keeps the guard. -/
theorem Guarded.write_of_ne (h : Guarded dir w) (hne : manifestPath dir ≠ path) :
    Guarded dir (w.write path content) :=
  fun hawaits => (h hawaits.of_wrote).write_of_ne hne

/-- An outcome that may have changed the device marks the manifest. -/
theorem used_withOutcome {plan : FlashPlan} {status : String} {validated : Bool}
    {stage : Option String} :
    backupWasUsedForWrite (dictSet manifest "write_outcome"
      (.obj (writeOutcomePayload plan status validated true stage))) = true := by
  have hstart : ∀ outcome : JsonObject,
      outcome.lookup "write_may_have_modified_device" = some (.bool true) →
      (setIfSome outcome "stage" stage).lookup "write_may_have_modified_device" =
        some (.bool true) := by
    intro outcome h
    cases stage with
    | none => exact h
    | some text => exact (lookup_dictSet_of_ne (by decide)).trans h
  have hflag : (writeOutcomePayload plan status validated true stage).lookup
      "write_may_have_modified_device" = some (.bool true) := by
    apply hstart
    cases plan.payload with
    | none =>
      cases plan.targetBank with
      | none => rfl
      | some bank => exact (lookup_dictUpdate_of_notMem (by simp)).trans rfl
    | some payload =>
      refine (lookup_dictUpdate_of_notMem (by simp)).trans ?_
      cases plan.targetBank with
      | none => rfl
      | some bank => exact (lookup_dictUpdate_of_notMem (by simp)).trans rfl
  rw [backupWasUsedForWrite, lookup_dictSet_self]
  show ((List.lookup "write_may_have_modified_device" _).map Json.truthy).getD false = true
  rw [hflag]
  rfl

theorem used_dictSet_of_ne {key : String} {value : Json} (hne : "write_outcome" ≠ key)
    (h : backupWasUsedForWrite manifest = true) :
    backupWasUsedForWrite (dictSet manifest key value) = true := by
  rw [backupWasUsedForWrite, lookup_dictSet_of_ne hne]
  exact h

theorem used_withPostWriteAction {action : String} {requested rebooted waited : Bool}
    (h : backupWasUsedForWrite manifest = true) :
    backupWasUsedForWrite (withPostWriteAction manifest action requested rebooted waited) = true := by
  rw [backupWasUsedForWrite, withPostWriteAction, lookup_dictSet_self]
  cases hold : (manifest.lookup "write_outcome").bind (·.toObj?) with
  | none =>
    rw [backupWasUsedForWrite, hold] at h
    exact absurd h (by decide)
  | some outcome =>
    rw [backupWasUsedForWrite, hold] at h
    show ((List.lookup "write_may_have_modified_device" (dictUpdate outcome _)).map
      Json.truthy).getD false = true
    rw [lookup_dictUpdate_of_notMem (by simp)]
    exact h

end Marking

/-! ## Plans on a marked directory -/

section Plans

variable {env : ActionEnv} {dir : String} {operation : FlashOperation} {params : PlanParams}
  {w : FlashWorld} {path : Path} {content : FileContent}

theorem wpE_writeFile {G : FlashWorld → FlashWorld → Prop} {Q : Unit → FlashWorld → Prop}
    {E : ActionError → FlashWorld → Prop}
    (hok : G w (w.write path content) ∧ Q () (w.write path content))
    (herr : G w w ∧ E (.os (env.osErrorText path)) w) :
    Prog.wpE flashKernel anyAnswer G (writeFile env path content) Q E w := by
  refine Prog.wpE_bind.mpr (Prog.wpE_ask fun fault _ => ?_)
  rcases step_writeFile fault w with hstep | hstep
  · rw [hstep]
    exact hok
  · rw [hstep]
    exact herr

/-- Why a plan was refused: the backup was used, unless the patch could not be built at all. -/
def RefusedPlan (env : ActionEnv) (operation : FlashOperation) (e : ActionError) : Prop :=
  e = .flash (.analysis staleBackupAfterWriteMessage) ∨
    operation = .patch ∧ env.zopfliInstalled = false ∧
      e = .flash (.analysis zopfliBootstrapMessage)

theorem plan_refused (h : MarkedUsed dir w) (hdir : env.resolveDir params.backupDir = dir)
    (hop : operation ≠ .readOnly) :
    Prog.wpE flashKernel anyAnswer (fun _ w' => w' = w) (planFlashFromBackup env operation params)
      (fun _ _ => False) (fun e w' => w' = w ∧ RefusedPlan env operation e) w := by
  obtain ⟨manifest, hfile, hused⟩ := h
  rw [planFlashFromBackup, Prog.wpE_bind, failIf, raiseIf]
  split
  · rename_i hzopfli
    rw [Bool.and_eq_true, decide_eq_true_eq, Bool.not_eq_true'] at hzopfli
    exact ⟨rfl, Or.inr ⟨hzopfli.1, hzopfli.2, rfl⟩⟩
  · apply Prog.wpE_bind.mpr
    apply Prog.wpE_bind.mpr
    apply Prog.wpE_bind.mpr
    refine Prog.wpE_ask fun fault _ => ⟨rfl, ?_⟩
    have hread : flashKernel.step (.readFile ⟨env.resolveDir (env.resolveDir params.backupDir),
        "manifest.json"⟩) fault w = (some (.json (.obj manifest)), w) := by
      rw [env.resolveDir_resolveDir, hdir]
      exact congrArg (·, w) hfile
    rw [hread]
    show Prog.wpE flashKernel anyAnswer _ (_ >>= _) _ _ w
    rw [Prog.wpE_bind, if_neg hop, requireBackupFreshForPlan, if_pos hused]
    exact ⟨rfl, Or.inl rfl⟩

theorem yields_inspectBackup :
    Prog.Yields flashKernel (fun bundle => bundle.backupDir = env.resolveDir params.backupDir)
      (inspectBackup env params.backupDir operation) := by
  apply Prog.yields_bind
  intro manifest
  apply Prog.yields_bind
  intro _
  apply Prog.yields_bind
  rintro ⟨primary, secondary⟩
  apply Prog.yields_bind
  intro cks1
  apply Prog.yields_bind
  intro cks2
  apply Prog.yields_bind
  intro osRelease
  apply Prog.yields_bind
  intro inspection
  exact Prog.yields_pure rfl

theorem yields_planFlashFromBackup :
    Prog.Yields flashKernel (fun planned => planned.1.backupDir = env.resolveDir params.backupDir)
      (planFlashFromBackup env operation params) := by
  apply Prog.yields_bind
  intro _
  apply Prog.Yields.bind yields_inspectBackup
  intro bundle hbundle
  apply Prog.yields_bind
  intro syap
  apply Prog.yields_bind
  intro plan
  cases plan with
  | none => exact Prog.yields_bind fun _ => Prog.yields_pure hbundle
  | some plan =>
    apply Prog.yields_bind
    intro patched
    apply Prog.yields_bind
    intro payloadPath
    exact Prog.yields_bind fun _ => Prog.yields_pure hbundle

/-- A plan that goes through leaves a directory that no backup is awaited for. -/
theorem plan_guarded (h : Guarded dir w) (hdir : env.resolveDir params.backupDir = dir)
    (hop : operation ≠ .readOnly) :
    Prog.wpE flashKernel anyAnswer (fun _ w' => Guarded dir w')
      (planFlashFromBackup env operation params)
      (fun planned w' => ¬ AwaitsBackup dir w'.log ∧ planned.1.backupDir = dir)
      (fun _ w' => Guarded dir w') w := by
  by_cases hawaits : AwaitsBackup dir w.log
  · have hrefused := plan_refused (h hawaits) hdir hop
    apply Prog.wpE_guarantee_mono (Prog.wpE_mono hrefused _ _)
    · rintro _ w' rfl
      exact h
    · exact fun _ _ hfalse => hfalse.elim
    · rintro _ w' ⟨rfl, -⟩
      exact h
  · have hcalm : Preserves (fun w => ¬ AwaitsBackup dir w.log)
        (planFlashFromBackup env operation params) :=
      preserves_planFlashFromBackup writeStable_calm operation params
    have hend := Prog.wpE_and (hcalm w hawaits) (yields_planFlashFromBackup w)
    apply Prog.wpE_guarantee_mono (Prog.wpE_mono hend _ _)
    · exact fun _ _ => guarded_of_calm
    · exact fun _ _ hend => ⟨hend.1, hend.2.trans hdir⟩
    · exact fun _ _ hend => guarded_of_calm hend.1

end Plans

/-! ## Writes -/

section Writes

variable {env : ActionEnv} {dir : String} {operation : FlashOperation} {params : PlanParams}
  {reboot : RebootParams} {w : FlashWorld} {bundle : FlashAnalysisBundle} {plan : FlashPlan}

/-- A bundle of the directory whose manifest says that it was used. -/
def UsedBundle (dir : String) (bundle : FlashAnalysisBundle) : Prop :=
  bundle.backupDir = dir ∧ backupWasUsedForWrite bundle.manifest = true

theorem writeManifest_marked {manifest : JsonObject} (hdir : bundle.backupDir = dir)
    (hused : backupWasUsedForWrite manifest = true) :
    MarkedUsed dir (w.write ⟨bundle.backupDir, "manifest.json"⟩ (.json (.obj manifest))) := by
  obtain rfl := hdir
  exact markedUsed_write hused

/-- Saving an outcome that may have changed the device marks the directory, or fails before it has
changed anything. -/
theorem recordUsed_guarded {status : String} {validated : Bool} {stage : Option String}
    {result : Option JsonObject} (hdir : bundle.backupDir = dir) (h : Guarded dir w) :
    Prog.wpE flashKernel anyAnswer (fun _ w' => Guarded dir w')
      (recordWriteOutcome env bundle plan status validated true stage result)
      (fun bundle' w' => MarkedUsed dir w' ∧ UsedBundle dir bundle') (fun _ w' => w' = w) w := by
  have hused : backupWasUsedForWrite (result.elim
      (dictSet bundle.manifest "write_outcome"
        (.obj (writeOutcomePayload plan status validated true stage)))
      fun result => dictSet (dictSet bundle.manifest "write_outcome"
        (.obj (writeOutcomePayload plan status validated true stage))) "write_result"
          (.obj result)) = true := by
    cases result with
    | none => exact used_withOutcome
    | some result => exact used_dictSet_of_ne (by decide) used_withOutcome
  have hmarked : ∀ w, MarkedUsed dir (FlashWorld.write w ⟨bundle.backupDir, "manifest.json"⟩ _) :=
    fun _ => writeManifest_marked hdir hused
  apply Prog.wpE_bind.mpr
  exact wpE_writeFile ⟨(hmarked w).guarded, hmarked w, hdir, hused⟩ ⟨h, rfl⟩

theorem readsOnly_activeChecksumProperty (bankName : String) :
    ReadsOnly (activeChecksumProperty bankName) := by
  unfold activeChecksumProperty
  split
  · exact readsOnly_pure _
  · split
    · exact readsOnly_pure _
    · exact readsOnly_failure _

/-- The flash command and the checks after it leave the manifest alone. -/
theorem preserves_writeAndValidatePlan (osRelease : String) :
    Preserves (MarkedUsed dir) (writeAndValidatePlan env plan osRelease) := by
  unfold writeAndValidatePlan
  split
  · apply Prog.Preserves.bind (Prog.preserves_ask fun _ _ _ hw => hw)
    intro reply
    apply (readsOnly_ofExcept _).bind_preserves
    rintro ⟨command, replyBody⟩
    apply ReadsOnly.bind (readsOnly_dumpRemoteBank _)
    intro readback
    apply (readsOnly_raiseIf _ _).bind
    intro _
    apply (readsOnly_ofExcept _).bind
    rintro ⟨expectedBank, expectedFooterChecksum⟩
    apply (readsOnly_raiseIf _ _).bind
    intro _
    apply (readsOnly_activeChecksumProperty _).bind
    intro checksumProperty
    apply (readsOnly_ask (by trivial)).bind
    intro acpAnswer
    apply (readsOnly_ofExcept _).bind
    intro acpChecksum
    apply (readsOnly_ofExcept _).bind
    intro analysis
    apply (readsOnly_raiseIf _ _).bind
    intro _
    apply (readsOnly_raiseIf _ _).bind
    intro _
    apply (readsOnly_raiseIf _ _).bind
    intro _
    exact readsOnly_pure _
  · exact readsOnly_failure _ _

/-- The command is sent only after the directory has been marked. -/
theorem writeFlashPlan_guarded (target : FlashTarget) (hdir : bundle.backupDir = dir)
    (h : Guarded dir w) :
    Prog.wpE flashKernel anyAnswer (fun _ w' => Guarded dir w') (writeFlashPlan env target bundle plan)
      (fun bundle' w' => MarkedUsed dir w' ∧ UsedBundle dir bundle') (fun _ w' => Guarded dir w') w := by
  apply Prog.wpE_bind.mpr
  apply Prog.wpE_mono (readsOnly_raiseIf _ _ (fun w' => Guarded dir w') w h) _ fun _ _ h => h
  intro _ w h
  apply Prog.wpE_bind.mpr
  apply Prog.wpE_mono (recordUsed_guarded hdir h)
  · rintro bundle' w' ⟨hmarked, hdir', hused⟩
    apply Prog.wpE_bind.mpr
    have hwrite : Preserves (MarkedUsed dir) (writeAndValidatePlan env plan target.osRelease) :=
      preserves_writeAndValidatePlan target.osRelease
    apply Prog.wpE_mono (Prog.wpE_guarantee_mono (hwrite w' hmarked) fun _ _ h => h.guarded)
    · intro result w'' hmarked
      apply Prog.wpE_mono (recordUsed_guarded hdir' hmarked.guarded) fun _ _ h => h
      rintro _ _ rfl
      exact hmarked.guarded
    · exact fun _ _ h => h.guarded
  · rintro _ _ rfl
    exact h

theorem preserves_recordPostWriteAction {action : String} {requested rebooted waited : Bool}
    (h : UsedBundle dir bundle) :
    Preserves (MarkedUsed dir)
      (recordPostWriteAction env bundle action requested rebooted waited) := by
  apply Prog.Preserves.bind
  · exact preserves_writeFile fun _ _ => writeManifest_marked h.1 (used_withPostWriteAction h.2)
  · exact fun _ => Prog.preserves_pure _

theorem yields_recordPostWriteAction {action : String} {requested rebooted waited : Bool}
    (h : UsedBundle dir bundle) :
    Prog.Yields flashKernel (UsedBundle dir)
      (recordPostWriteAction env bundle action requested rebooted waited) :=
  Prog.yields_bind fun _ => Prog.yields_pure ⟨h.1, used_withPostWriteAction h.2⟩

theorem finishValidatedWrite_guarded {rebootAfterWrite waitAfterReboot : Bool}
    (h : UsedBundle dir bundle) (hw : MarkedUsed dir w) :
    Prog.wpE flashKernel anyAnswer (fun _ w' => MarkedUsed dir w')
      (finishValidatedWrite env bundle operation rebootAfterWrite waitAfterReboot)
      (fun _ w' => MarkedUsed dir w') (fun _ w' => MarkedUsed dir w') w := by
  unfold finishValidatedWrite
  split
  · exact preserves_recordPostWriteAction h w hw
  split
  · exact preserves_recordPostWriteAction h w hw
  apply Prog.wpE_bind.mpr
  apply Prog.wpE_mono (Prog.wpE_and (preserves_recordPostWriteAction h w hw)
    (yields_recordPostWriteAction h w)) _ fun _ _ h => h.1
  rintro bundle' w' ⟨hw', h'⟩
  have hreboot : ReadsOnly (requestReboot waitAfterReboot) :=
    (readsOnly_ask (by trivial)).bind fun _ => readsOnly_ofExcept _
  refine hreboot.bind_preserves (fun _ => ?_) w' hw'
  split
  · exact preserves_recordPostWriteAction h'
  · exact Prog.preserves_pure _

theorem Guarded.rethrowApp {α : Type} {p : FlashM α} {Q : α → FlashWorld → Prop} {code note : String}
    (h : Prog.wpE flashKernel anyAnswer (fun _ w' => Guarded dir w') p Q
      (fun _ w' => Guarded dir w') w) :
    Prog.wpE flashKernel anyAnswer (fun _ w' => Guarded dir w') (rethrowApp code note p) Q
      (fun _ w' => Guarded dir w') w := by
  apply Prog.wpE_tryCatch.mpr
  apply Prog.wpE_mono h fun _ _ h => h
  intro e w h
  split <;> exact h

theorem planOperation_guarded (hdir : env.resolveDir params.backupDir = dir) (h : Guarded dir w) :
    Prog.wpE flashKernel anyAnswer (fun _ w' => Guarded dir w') (planOperation env operation params)
      (fun _ w' => Guarded dir w') (fun _ w' => Guarded dir w') w := by
  apply Prog.wpE_bind.mpr
  by_cases hop : operation = .readOnly
  · rw [hop]
    exact h
  · rw [decide_eq_false hop]
    apply Prog.wpE_bind.mpr
    apply Prog.wpE_mono (Guarded.rethrowApp (plan_guarded h hdir hop)) _ fun _ _ h => h
    exact fun _ _ hplanned => guarded_of_calm hplanned.1

theorem writeOperation_guarded (hdir : env.resolveDir params.backupDir = dir) (h : Guarded dir w) :
    Prog.wpE flashKernel anyAnswer (fun _ w' => Guarded dir w')
      (writeOperation env operation params reboot) (fun _ w' => Guarded dir w')
      (fun _ w' => Guarded dir w') w := by
  apply Prog.wpE_bind.mpr
  by_cases hop : operation = .readOnly
  · rw [hop]
    exact h
  apply Prog.wpE_mono (readsOnly_raiseIf _ _ (fun w' => Guarded dir w') w h) _ fun _ _ h => h
  intro _ w h
  apply Prog.wpE_bind.mpr
  apply Prog.wpE_mono (readsOnly_writeRebootPolicy _ _ (fun w' => Guarded dir w') w h) _
    fun _ _ h => h
  rintro ⟨rebootAfterWrite, waitAfterReboot⟩ w h
  apply Prog.wpE_bind.mpr
  apply Prog.wpE_mono (Guarded.rethrowApp (plan_guarded h hdir hop)) _ fun _ _ h => h
  rintro ⟨bundle, plan?⟩ w ⟨hcalm, hbundle⟩
  have h := guarded_of_calm hcalm
  cases plan? with
  | none => exact h
  | some plan =>
    dsimp only
    split
    · have hrecord : Preserves (fun w => ¬ AwaitsBackup dir w.log)
          (recordWriteOutcome env bundle plan "not_needed" false false none none) :=
        preserves_recordWriteOutcome writeStable_calm _ _ _ _ _ _ _
      apply Prog.wpE_guarantee_mono (Prog.wpE_mono (hrecord w hcalm) _ _)
      · exact fun _ _ => guarded_of_calm
      · exact fun _ _ => guarded_of_calm
      · exact fun _ _ => guarded_of_calm
    · apply Prog.wpE_bind.mpr
      apply Prog.wpE_mono (readsOnly_resolveTarget (fun w' => Guarded dir w') w h) _ fun _ _ h => h
      intro target w h
      apply Prog.wpE_bind.mpr
      apply Prog.wpE_mono (readsOnly_ask (by trivial) (fun w' => Guarded dir w') w h) _
        fun _ _ h => h
      intro confirmation w h
      apply Prog.wpE_bind.mpr
      apply Prog.wpE_mono (readsOnly_ofExcept _ (fun w' => Guarded dir w') w h) _ fun _ _ h => h
      intro _ w h
      apply Prog.wpE_bind.mpr
      apply Prog.wpE_mono (Guarded.rethrowApp _) _ fun _ _ h => h
      · exact fun bundle' w' => MarkedUsed dir w' ∧ UsedBundle dir bundle'
      · apply Prog.wpE_bind.mpr
        apply Prog.wpE_mono (readsOnly_validateLiveTarget plan (fun w' => Guarded dir w') w h) _
          fun _ _ h => h
        exact fun _ w h => writeFlashPlan_guarded target hbundle h
      · rintro bundle' w ⟨hmarked, hused⟩
        apply Prog.wpE_guarantee_mono
          (Prog.wpE_mono (finishValidatedWrite_guarded hused hmarked) _ _)
        · exact fun _ _ h => h.guarded
        · exact fun _ _ h => h.guarded
        · exact fun _ _ h => h.guarded

end Writes

/-! ## Backups -/

section Backups

variable {env : ActionEnv} {dir : String} {w : FlashWorld} {operation : FlashOperation}

/-- A backup keeps an old mark until its last write, after which none is needed. -/
theorem backupFlash_guarded (target : FlashTarget) {backupDir : String}
    (hdir : env.resolveDir backupDir = dir) (h : Guarded dir w) :
    Prog.wpE flashKernel anyAnswer (fun _ w' => Guarded dir w')
      (backupFlash env target (some backupDir) operation) (fun _ w' => Guarded dir w')
      (fun _ w' => Guarded dir w') w := by
  obtain rfl := hdir
  apply Prog.wpE_bind.mpr
  apply Prog.wpE_mono (readsOnly_readFlashInputs (fun w' => Guarded _ w') w h) _ fun _ _ h => h
  intro inputs w h
  apply Prog.wpE_bind.mpr
  apply Prog.wpE_pure.mpr
  apply Prog.wpE_bind.mpr
  apply Prog.wpE_bind.mpr
  have hprimary : Guarded (env.resolveDir backupDir)
      (w.write (rawBank (env.resolveDir backupDir) "primary") (.bytes inputs.primary)) :=
    h.write_of_ne (manifestPath_ne (by decide))
  apply wpE_writeFile ⟨hprimary, _⟩ ⟨h, h⟩
  have hsecondary : Guarded (env.resolveDir backupDir)
      ((w.write (rawBank (env.resolveDir backupDir) "primary") (.bytes inputs.primary)).write
        (rawBank (env.resolveDir backupDir) "secondary") (.bytes inputs.secondary)) :=
    hprimary.write_of_ne (manifestPath_ne (by decide))
  apply wpE_writeFile ⟨hsecondary, _⟩ ⟨hprimary, hprimary⟩
  apply Prog.wpE_bind.mpr
  cases inspectFlashBanks env.toFlashEnv inputs.primary inputs.secondary inputs.cks1 inputs.cks2
      target.osRelease (operation = .patch) (some inputs.liveLogin) none with
  | error e => exact hsecondary
  | ok inspection =>
    apply Prog.wpE_bind.mpr
    apply wpE_writeFile ⟨_, _⟩ ⟨hsecondary, hsecondary⟩
    all_goals
      apply guarded_of_calm
      show ¬ AwaitsBackup _ (((w.log ++ [_]) ++ [_]) ++ [_])
      rw [List.append_assoc, List.append_assoc]
      exact not_awaitsBackup_backupWrites

theorem program_guarded {a : FlashAction} (hdir : env.resolveDir a.backupDir = dir)
    (h : Guarded dir w) :
    Prog.wpE flashKernel anyAnswer (fun _ w' => Guarded dir w') (a.program env)
      (fun _ w' => Guarded dir w') (fun _ w' => Guarded dir w') w := by
  cases a with
  | backup backupDir =>
    apply Prog.wpE_bind.mpr
    apply Prog.wpE_mono (readsOnly_resolveTarget (fun w' => Guarded dir w') w h) _ fun _ _ h => h
    exact fun target w h => Guarded.rethrowApp (backupFlash_guarded target hdir h)
  | plan operation params => exact planOperation_guarded hdir h
  | write operation params reboot => exact writeOperation_guarded hdir h

/-- The guard holds wherever the actions are killed. -/
theorem FlashRun.guarded {w' : FlashWorld} (hrun : FlashRun env dir w w') (h : Guarded dir w) :
    Guarded dir w' := by
  induction hrun with
  | refl => exact h
  | action a _ hdir hv ih => exact Prog.wp_visits (program_guarded hdir ih) ih hv

end Backups

/-- After a flash command every plan on the directory is refused, without touching it, until a
backup has replaced the raw banks and the manifest. -/
theorem used_backup_refused {env : ActionEnv} {dir : String} {w w' : FlashWorld}
    (hstart : w.log = []) (hrun : FlashRun env dir w w') (hawaits : AwaitsBackup dir w'.log)
    {operation : FlashOperation} (hop : operation ≠ .readOnly) {params : PlanParams}
    (hdir : env.resolveDir params.backupDir = dir)
    {result : Except ActionError (FlashAnalysisBundle × Option FlashPlan)} {w'' : FlashWorld}
    (hplan : (planFlashFromBackup env operation params).run.Returns flashKernel anyAnswer w' result
      w'') :
    w'' = w' ∧ ∃ e, result = .error e ∧ RefusedPlan env operation e := by
  have hcalm : ¬ AwaitsBackup dir w.log := hstart ▸ not_awaitsBackup_nil
  have hmarked := hrun.guarded (guarded_of_calm hcalm) hawaits
  have hend := Prog.wp_returns (plan_refused hmarked hdir hop) hplan
  cases result with
  | ok planned => exact hend.elim
  | error e => exact ⟨hend.1, e, rfl, hend.2⟩

/-! ## A write without a reply -/

/-- A catalogue whose patch payload is empty. -/
def emptySource : FirmwareSource where
  buildPatchPayloadForBank _ _ :=
    .ok ⟨[], [], none, "template", none, none, none, "", "", none, 0, 0, 0⟩
  buildRestorePayloadForBank _ _ := .error .assertion
  buildDownloadPayloadForSyap _ := .error .assertion
  findAppleFirmwareMatch _ _ := .error .assertion

def smallActionEnv : ActionEnv where
  toPayloadEnv := plainEnv
  firmware := emptySource
  resolvePath text := ⟨"backup", text⟩
  resolveDir dir := dir
  resolveDir_resolveDir _ := rfl
  dumps _ := []
  loads _ := none
  containerText _ := ""
  osErrorText path := path.text

/-- A saved backup of which only the primary bank can be read as one. -/
def savedWorld : FlashWorld where
  files path :=
    if path = manifestPath "backup" then
      some (.json (.obj [("os_release", .str "4.0"), ("syap", .str "113")]))
    else if path = rawBank "backup" "primary" then some (.bytes smallBank)
    else if path = rawBank "backup" "secondary" then some (.bytes [])
    else none
  log := []

/-- The device holds the saved bank and does not reply to the flash command. -/
def mutedDevice : (op : FlashOp) → FlashAns op
  | .readFile _ => (none : Option FileContent)
  | .writeFile _ _ => true
  | .defaultBackupDir _ _ => "backup"
  | .resolveTarget => .ok ⟨"10.0.1.1", "4.0"⟩
  | .dumpRemoteBank _ => .ok smallBank
  | .readLiveLogin => .ok []
  | .readAcpProperty _ => .ok 0
  | .flashFirmwareBank _ _ => .error "no reply"
  | .requireConfirmation => .ok ()
  | .requestReboot _ => .ok ()

def forcedParams : PlanParams := ⟨"backup", true, none, none⟩

def forcedWrite : FlashAction := .write .patch forcedParams ⟨none, false⟩

/-- The world after the write has failed. -/
def writeFrom (w : FlashWorld) : FlashWorld :=
  ((forcedWrite.program smallActionEnv).run.run flashKernel mutedDevice [] w).2.1

/-- A restore that is planned from there on. -/
def restoreFrom (w : FlashWorld) : Except ActionError (FlashAnalysisBundle × Option FlashPlan) ×
    FlashWorld × List ((op : FlashOp) → FlashAns op) :=
  (planFlashFromBackup smallActionEnv .restore forcedParams).run.run flashKernel mutedDevice [] w

theorem log_writeFrom : (writeFrom savedWorld).log =
    [.wrote ⟨"backup", "primary.patched.raw"⟩, .wrote ⟨"backup", "primary.patched.basebinary"⟩,
      .wrote (manifestPath "backup"), .wrote (manifestPath "backup"), .flashed "primary"] := by
  decide +kernel

theorem forcedWrite_then_refused : AwaitsBackup "backup" (writeFrom savedWorld).log ∧
    (restoreFrom (writeFrom savedWorld)).2.1 = writeFrom savedWorld ∧
    ∃ e, (restoreFrom (writeFrom savedWorld)).1 = .error e ∧
      RefusedPlan smallActionEnv .restore e := by
  have hawaits : AwaitsBackup "backup" (writeFrom savedWorld).log := by
    rw [log_writeFrom]
    refine ⟨[_, _, _, _], "primary", [], rfl, ?_⟩
    rw [List.infix_nil]
    exact List.cons_ne_nil _ _
  have hwrite : ∀ w, (forcedWrite.program smallActionEnv).run.Visits flashKernel anyAnswer w
      (writeFrom w) := fun _ => (Prog.run_returns mutedDevice []).visits
  have hplan : ∀ w, (planFlashFromBackup smallActionEnv .restore forcedParams).run.Returns
      flashKernel anyAnswer w (restoreFrom w).1 (restoreFrom w).2.1 :=
    fun _ => Prog.run_returns mutedDevice []
  have hdir : smallActionEnv.resolveDir forcedParams.backupDir = "backup" := rfl
  have hrun : FlashRun smallActionEnv "backup" savedWorld (writeFrom savedWorld) :=
    .action forcedWrite (.refl _) hdir (hwrite savedWorld)
  exact ⟨hawaits, used_backup_refused rfl hrun hawaits (by decide) hdir (hplan _)⟩

end TimeCapsule.Flash
