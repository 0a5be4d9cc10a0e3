import Mathlib.Data.List.Nodup
import Mathlib.Logic.Relation
import TimeCapsule.Lib.Json
import TimeCapsule.App.Profile

/-!
# Operations of the helper

The coordinator runs helpers in lanes: one helper in every lane at a time, and one lane for every device.
-/

namespace TimeCapsule.App

open Lib

/-! ## Lanes -/

inductive DeviceWorkflowLane where
  | configure
  | deploy
  | doctor
  | reachability
  | sshAccess
  | maintenance
  | activate
  | uninstall
  | fsck
  | repairXattrs
  | flash
deriving DecidableEq, Repr

namespace DeviceWorkflowLane

def rawValue : DeviceWorkflowLane → String
  | configure => "configure"
  | deploy => "deploy"
  | doctor => "doctor"
  | reachability => "reachability"
  | sshAccess => "ssh_access"
  | maintenance => "maintenance"
  | activate => "activate"
  | uninstall => "uninstall"
  | fsck => "fsck"
  | repairXattrs => "repair_xattrs"
  | flash => "flash"

/-- `lane(for:)` -/
def lane : String → Option DeviceWorkflowLane
  | "configure" => some configure
  | "update-config-settings" => some configure
  | "deploy" => some deploy
  | "doctor" => some doctor
  | "reachability" => some reachability
  | "set-ssh" => some sshAccess
  | "activate" => some activate
  | "uninstall" => some uninstall
  | "fsck" => some fsck
  | "repair-xattrs" => some repairXattrs
  | "flash" => some flash
  | _ => none

end DeviceWorkflowLane

inductive OperationLaneKey where
  | app
  | appWorkflow (workflow : DeviceWorkflowLane)
  | device (profileID : ProfileID)
  | deviceWorkflow (profileID : ProfileID) (workflow : DeviceWorkflowLane)
  | candidateHost (host : String)
  | localPath (path : String)
deriving DecidableEq, Repr

namespace OperationLaneKey

def deviceProfileID : OperationLaneKey → Option ProfileID
  | device profileID => some profileID
  | deviceWorkflow profileID _ => some profileID
  | _ => none

def laneSortKey : OperationLaneKey → String
  | app => "0:app"
  | appWorkflow workflow => "0:app:" ++ workflow.rawValue
  | device profileID => "1:" ++ profileID
  | deviceWorkflow profileID workflow => "1:" ++ profileID ++ ":" ++ workflow.rawValue
  | candidateHost host => "2:" ++ host
  | localPath path => "3:" ++ path

end OperationLaneKey

structure DeviceRuntimeContext where
  profileID : ProfileID
  configURL : String
deriving DecidableEq, Repr

/-- An event that the helper has printed. -/
structure BackendEvent where
  type : String
  operation : String
  code : Option String
  details : Option Json
  requestId : Option String
  stage : Option String
  risk : Option String
  cancellable : Option Bool

/-- What is run again once the user has agreed to it. -/
structure PendingConfirmation where
  operation : String
  params : JsonObject
  requestID : String
  context : Option DeviceRuntimeContext

/-- The initializer, without the texts that the user is shown. -/
def PendingConfirmation.make (event : BackendEvent) (originalParams : JsonObject) (requestID : String)
    (context : Option DeviceRuntimeContext) : Option PendingConfirmation :=
  if event.type ≠ "error" || event.code ≠ some "confirmation_required" then none
  else do
    let details ← (← event.details).toObj?
    let confirmationId ← (← details.lookup "confirmation_id").toStr?
    some
      { operation := event.operation
        params := dictSet originalParams "confirmation_id" (.str confirmationId)
        requestID := event.requestId.getD requestID
        context := context }

structure BackendCall where
  operation : String
  params : JsonObject
  context : Option DeviceRuntimeContext
  requestID : String

/-- One helper at a time. -/
structure BackendClient where
  events : List BackendEvent
  isRunning : Bool
  lastExitCode : Option Int
  pendingConfirmation : Option PendingConfirmation
  currentStage : Option String
  currentRisk : Option String
  currentCancellable : Option Bool
  activeOperationName : Option String
  activeCall : Option BackendCall
  /-- The helper has been told to stop. -/
  cancelled : Bool

namespace BackendClient

/-- A client that has not run anything. -/
def idle : BackendClient where
  events := []
  isRunning := false
  lastExitCode := none
  pendingConfirmation := none
  currentStage := none
  currentRisk := none
  currentCancellable := none
  activeOperationName := none
  activeCall := none
  cancelled := false

def canCancel (b : BackendClient) : Bool := b.isRunning && b.currentCancellable.getD true

/-! Those who watch a client see it after every change of `isRunning` and of `pendingConfirmation`, so
each function gives the client after each of these. -/

def clear (b : BackendClient) : List BackendClient :=
  if b.isRunning then []
  else
    [{ b with events := [], lastExitCode := none, pendingConfirmation := none },
      { b with
        events := []
        lastExitCode := none
        pendingConfirmation := none
        currentStage := none
        currentRisk := none
        currentCancellable := none
        activeOperationName := none }]

def run (operation : String) (params : JsonObject) (context : Option DeviceRuntimeContext)
    (requestID : String) (b : BackendClient) : List BackendClient :=
  if b.isRunning then []
  else
    let runParams :=
      match context with
      | some context =>
          if (params.lookup "config").isNone then dictSet params "config" (.str context.configURL)
          else params
      | none => params
    [{ b with isRunning := true },
      { b with
        isRunning := true
        lastExitCode := none
        pendingConfirmation := none
        currentStage := none
        currentRisk := none
        currentCancellable := none
        activeOperationName := some operation
        activeCall := some ⟨operation, runParams, context, requestID⟩
        cancelled := false }]

def cancel (b : BackendClient) : BackendClient :=
  if b.canCancel then { b with cancelled := true } else b

def confirmPending (b : BackendClient) : List BackendClient :=
  match b.pendingConfirmation, b.isRunning with
  | some confirmation, false =>
      let b := { b with pendingConfirmation := none }
      b :: b.run confirmation.operation confirmation.params confirmation.context confirmation.requestID
  | _, _ => []

def cancelPendingConfirmation (b : BackendClient) : List BackendClient :=
  match b.pendingConfirmation, b.isRunning with
  | some confirmation, false =>
      [{ b with
        pendingConfirmation := none
        events := b.events ++
          [{ type := "error"
             operation := confirmation.operation
             code := some "confirmation_cancelled"
             details := none
             requestId := some confirmation.requestID
             stage := none
             risk := none
             cancellable := none }] }]
  | _, _ => []

def appendEvent (event : BackendEvent) (b : BackendClient) : List BackendClient :=
  let staged :=
    if event.type = "stage" then
      { b with
        currentStage := event.stage
        currentRisk := event.risk
        currentCancellable := event.cancellable }
    else b
  let confirmation := b.activeCall.bind fun call =>
    PendingConfirmation.make event call.params call.requestID call.context
  match confirmation with
  | some confirmation =>
      [{ staged with pendingConfirmation := some confirmation, events := b.events ++ [event] }]
  | none => [{ staged with events := b.events ++ [event] }]

def finishRun (exitCode : Int) (b : BackendClient) : List BackendClient :=
  [{ b with lastExitCode := some exitCode, isRunning := false },
    { b with
      lastExitCode := some exitCode
      isRunning := false
      activeCall := none
      activeOperationName := none }]

end BackendClient

structure ActiveOperation where
  id : String
  operation : String
  profileID : Option ProfileID
  context : Option DeviceRuntimeContext
deriving DecidableEq, Repr

/-- `accepts` of the observer of the operation. -/
def ActiveOperation.accepts (event : BackendEvent) (activeOperation : ActiveOperation) : Bool :=
  match event.requestId with
  | some requestId => requestId = activeOperation.id
  | none => event.operation = activeOperation.operation

inductive OperationStartResult where
  | started (operation : ActiveOperation)
  | rejected (message : String)
deriving DecidableEq, Repr

/-- `OperationCredentialInjector.injectingPassword` -/
def injectingPassword (p : Platform) (password : Option String) (params : JsonObject) : JsonObject :=
  match password with
  | none => params
  | some password =>
      if (trimmingCharacters p.whitespacesAndNewlines password).isEmpty ||
        (params.lookup "credentials").isSome then params
      else dictSet params "credentials" (.obj [("password", .str password)])

/-- The message for those who come too late, by its key. -/
def alreadyRunning : String := "operation.error.already_running"

/-- A lane.  `device` is the device given to the run that has made it busy, which the lane itself does
not keep. -/
structure OperationLane where
  key : OperationLaneKey
  backend : BackendClient
  activeOperation : Option ActiveOperation
  rejectedOperationMessage : Option String
  device : Option ProfileID

namespace OperationLane

variable (p : Platform)

/-- A lane that nothing has been run in. -/
def new (key : OperationLaneKey) : OperationLane := ⟨key, .idle, none, none, none⟩

def isBusy (lane : OperationLane) : Bool :=
  lane.backend.isRunning || lane.backend.pendingConfirmation.isSome

/-- The lane watches its client: when that has nothing to do, no operation is active. -/
def observe (isReplayingConfirmation : Bool) (lane : OperationLane) (backend : BackendClient) :
    OperationLane :=
  if !backend.isRunning && backend.pendingConfirmation.isNone && !isReplayingConfirmation then
    { lane with backend := backend, activeOperation := none }
  else { lane with backend := backend }

/-- The lane after some changes of its client. -/
def follow (backends : List BackendClient) (lane : OperationLane) : OperationLane :=
  backends.foldl (observe false) lane

def run (operation : String) (params : JsonObject) (context : Option DeviceRuntimeContext)
    (activeDeviceID : Option ProfileID) (password : Option String) (id : String)
    (lane : OperationLane) : OperationLane × OperationStartResult :=
  if lane.isBusy then
    ({ lane with rejectedOperationMessage := some alreadyRunning }, .rejected alreadyRunning)
  else
    let updatedParams := injectingPassword p password params
    let activeOperation : ActiveOperation := ⟨id, operation, activeDeviceID, context⟩
    let lane :=
      { lane with
        rejectedOperationMessage := none
        activeOperation := some activeOperation
        device := activeDeviceID.or lane.key.deviceProfileID }
    (lane.follow (lane.backend.run operation updatedParams context id), .started activeOperation)

def reject (message : String) (lane : OperationLane) : OperationLane :=
  { lane with rejectedOperationMessage := some message }

def confirmPending (lane : OperationLane) : OperationLane :=
  if lane.backend.pendingConfirmation.isNone then lane
  else lane.backend.confirmPending.foldl (observe true) lane

def cancelPendingConfirmation (lane : OperationLane) : OperationLane :=
  lane.follow lane.backend.cancelPendingConfirmation

def cancel (lane : OperationLane) : OperationLane := { lane with backend := lane.backend.cancel }

def clear (lane : OperationLane) : OperationLane :=
  { lane.follow lane.backend.clear with rejectedOperationMessage := none, activeOperation := none }

/-- `resourceKey(for:)` of a lane: the device that its operation is for. -/
def resourceKey (lane : OperationLane) : Option ProfileID :=
  lane.key.deviceProfileID.or (lane.activeOperation.bind (·.profileID))

end OperationLane

/-! ## The coordinator -/

/-- The lanes by their keys, the lane of the app among them. -/
structure OperationCoordinator where
  lanes : List OperationLane

namespace OperationCoordinator

variable (p : Platform) (before : String → String → Bool)

def initial : OperationCoordinator := ⟨[.new .app]⟩

/-- `lanes[key]` -/
def find (key : OperationLaneKey) (c : OperationCoordinator) : Option OperationLane :=
  c.lanes.find? fun lane => lane.key = key

/-- `lane(for:)`, which makes a lane when there is none. -/
def lane (key : OperationLaneKey) (c : OperationCoordinator) : OperationCoordinator :=
  match c.find key with
  | some _ => c
  | none => ⟨c.lanes ++ [.new key]⟩

def modify (key : OperationLaneKey) (f : OperationLane → OperationLane) (c : OperationCoordinator) :
    OperationCoordinator :=
  ⟨c.lanes.map fun lane => if lane.key = key then f lane else lane⟩

/-- The lanes in the order of their names.  `before` tells which of two texts comes first. -/
def allLanes (c : OperationCoordinator) : List OperationLane :=
  c.lanes.mergeSort fun left right => !before right.key.laneSortKey left.key.laneSortKey

def primaryLane (c : OperationCoordinator) : Option OperationLane :=
  let lanes := c.allLanes before
  let running := lanes.find? fun lane => lane.key ≠ .app && lane.backend.isRunning
  let appRunning := (c.find .app).filter fun lane => lane.backend.isRunning
  let pending := lanes.find? fun lane => lane.key ≠ .app && lane.backend.pendingConfirmation.isSome
  let appPending := (c.find .app).filter fun lane => lane.backend.pendingConfirmation.isSome
  running.or (appRunning.or (pending.or (appPending.or
    (lanes.find? fun lane => lane.activeOperation.isSome))))

def pendingConfirmationLane (c : OperationCoordinator) : Option OperationLane :=
  ((c.primaryLane before).filter fun lane => lane.backend.pendingConfirmation.isSome).or
    ((c.allLanes before).find? fun lane => lane.backend.pendingConfirmation.isSome)

def cancellableDeviceLane (profileID : ProfileID) (c : OperationCoordinator) : Option OperationLane :=
  (c.allLanes before).find? fun lane => lane.resourceKey = some profileID && lane.backend.canCancel

def conflictingLane (profileID : ProfileID) (laneKey : OperationLaneKey) (c : OperationCoordinator) :
    Option OperationLane :=
  (c.allLanes before).find? fun lane =>
    lane.key ≠ laneKey && lane.resourceKey = some profileID && lane.isBusy

def defaultLaneKey (operation : String) : Option ProfileID → OperationLaneKey
  | none => .app
  | some activeDeviceID =>
      match DeviceWorkflowLane.lane operation with
      | some workflow => .deviceWorkflow activeDeviceID workflow
      | none => .device activeDeviceID

def resolvedLaneKey (operation : String) (activeDeviceID : Option ProfileID)
    (laneKey : Option OperationLaneKey) : OperationLaneKey :=
  laneKey.getD (defaultLaneKey operation activeDeviceID)

/-- Another lane works on the device. -/
def conflicts (laneKey : OperationLaneKey) (activeDeviceID : Option ProfileID)
    (c : OperationCoordinator) : Bool :=
  match laneKey.deviceProfileID.or activeDeviceID with
  | some profileID => (c.conflictingLane before profileID laneKey).isSome
  | none => false

def run (operation : String) (params : JsonObject) (context : Option DeviceRuntimeContext)
    (activeDeviceID : Option ProfileID) (password : Option String) (laneKey : Option OperationLaneKey)
    (id : String) (c : OperationCoordinator) : OperationCoordinator :=
  let key := resolvedLaneKey operation activeDeviceID laneKey
  let c := c.lane key
  if c.conflicts before key activeDeviceID then c.modify key (·.reject alreadyRunning)
  else c.modify key fun lane => (lane.run p operation params context activeDeviceID password id).1

/-- A lane does something, if there is one. -/
def act (lane : Option OperationLane) (f : OperationLane → OperationLane) (c : OperationCoordinator) :
    OperationCoordinator :=
  match lane with
  | some lane => c.modify lane.key f
  | none => c

/-- What happens to the coordinator: the operations, and what helpers do. -/
inductive Event where
  | run (operation : String) (params : JsonObject) (context : Option DeviceRuntimeContext)
      (activeDeviceID : Option ProfileID) (password : Option String)
      (laneKey : Option OperationLaneKey) (id : String)
  | confirmPending
  | cancelPendingConfirmation
  | cancel
  | cancelProfile (profileID : ProfileID)
  | cancelLane (laneKey : OperationLaneKey)
  | clear
  | clearLane (laneKey : OperationLaneKey)
  | helperEvent (laneKey : OperationLaneKey) (event : BackendEvent)
  | helperFinished (laneKey : OperationLaneKey) (exitCode : Int)

def after (c : OperationCoordinator) : Event → OperationCoordinator
  | .run operation params context activeDeviceID password laneKey id =>
      c.run p before operation params context activeDeviceID password laneKey id
  | .confirmPending => c.act (c.pendingConfirmationLane before) (·.confirmPending)
  | .cancelPendingConfirmation =>
      c.act (c.pendingConfirmationLane before) (·.cancelPendingConfirmation)
  | .cancel => c.act (c.primaryLane before) (·.cancel)
  | .cancelProfile profileID => c.act (c.cancellableDeviceLane before profileID) (·.cancel)
  | .cancelLane laneKey => (c.lane laneKey).modify laneKey (·.cancel)
  | .clear => ⟨c.lanes.map (·.clear)⟩
  | .clearLane laneKey => (c.lane laneKey).modify laneKey (·.clear)
  | .helperEvent laneKey event =>
      c.modify laneKey fun lane => lane.follow (lane.backend.appendEvent event)
  | .helperFinished laneKey exitCode =>
      c.modify laneKey fun lane => lane.follow (lane.backend.finishRun exitCode)

/-- A helper does something only while it runs. -/
def Enabled (c : OperationCoordinator) : Event → Prop
  | .helperEvent laneKey _ => ∃ lane, c.find laneKey = some lane ∧ lane.backend.isRunning = true
  | .helperFinished laneKey _ => ∃ lane, c.find laneKey = some lane ∧ lane.backend.isRunning = true
  | _ => True

end OperationCoordinator

end TimeCapsule.App
