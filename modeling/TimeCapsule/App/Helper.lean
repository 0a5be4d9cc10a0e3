import TimeCapsule.Lib.Json
import TimeCapsule.Lib.Text

/-!
# The helper

The helper reads one request from its standard input and prints what it does about it as events, one on
a line.
-/

namespace TimeCapsule.App

open Lib

def maxRequestChars : Nat := 1024 * 1024

/-! ## Events -/

structure AppEvent where
  type : String
  operation : String
  fields : JsonObject
  requestId : String

/-- The events that end an operation. -/
def AppEvent.terminal (event : AppEvent) : Bool := event.type = "result" || event.type = "error"

/-- A sink knows the request that its events are about. -/
structure EventSink where
  requestId : String

namespace EventSink

variable (sink : EventSink) (operation : String)

/-- `stage`, with what the policy says about the stage. -/
def stage (name : String) (policy : JsonObject) : AppEvent :=
  ⟨"stage", operation, dictUpdate [("stage", .str name)] policy, sink.requestId⟩

def log (message level : String) : AppEvent :=
  ⟨"log", operation, [("level", .str level), ("message", .str message)], sink.requestId⟩

def check (status message : String) (details : Json) : AppEvent :=
  ⟨"check", operation, [("status", .str status), ("message", .str message), ("details", details)],
    sink.requestId⟩

def result (ok : Bool) (payload : Json) : AppEvent :=
  ⟨"result", operation, [("ok", .bool ok), ("payload", payload)], sink.requestId⟩

def error (message code : String) (details debug recovery : Option Json) : AppEvent :=
  let field (name : String) (value : Option Json) : JsonObject := value.elim [] fun value => [(name, value)]
  ⟨"error", operation, [("code", .str code), ("message", .str message)] ++ field "details" details ++
    field "debug" debug ++ field "recovery" recovery, sink.requestId⟩

end EventSink

/-! ## Operations -/

/-- What an operation says while it runs. -/
inductive Progress where
  | stage (name : String) (policy : JsonObject)
  | log (message level : String)
  | check (status message : String) (details : Json)

def Progress.emit (sink : EventSink) (operation : String) : Progress → AppEvent
  | .stage name policy => sink.stage operation name policy
  | .log message level => sink.log operation message level
  | .check status message details => sink.check operation status message details

/-- How an operation ends: it returns, or raises an exception. -/
inductive HandlerEnd where
  | returned (ok : Bool) (payload : Json)
  | confirmationRequired (message : String) (confirmation : Json)
  | operationError (message code : String) (debug recovery : Option Json)
  | configError (message : String)
  /-- With what to do about a device that is slow to answer. -/
  | transportError (message : String) (slowDevice : Option Json)
  | keyboardInterrupt
  | systemExit (message : String)
  | exception (message traceback : String)

structure HandlerRun where
  progress : List Progress
  currentStage : Option String
  ending : HandlerEnd

/-- What the interpreter and its libraries do, and the operations. -/
structure HelperEnv where
  loads : String → Except (String × Nat) Json
  /-- `str` of a list or a dictionary. -/
  container : Json → String
  recoveryFor : String → String → Option String → Json
  /-- In the order of their names. -/
  operations : List (String × (JsonObject → HandlerRun))
  /-- `to_json_line`, without the newline. -/
  jsonText : AppEvent → Bytes

section

variable (env : HelperEnv)

/-- The event that ends an operation, and the exit code. -/
def endOperation (sink : EventSink) (operation : String) (run : HandlerRun) : AppEvent × Int :=
  let recovery (code : String) : Json := env.recoveryFor operation code run.currentStage
  match run.ending with
  | .returned ok payload => (sink.result operation ok payload, if ok then 0 else 1)
  | .confirmationRequired message confirmation =>
      (sink.error operation message "confirmation_required" (some confirmation) none
        (some (recovery "confirmation_required")), 1)
  | .operationError message code debug given =>
      (sink.error operation message code none debug (some (given.getD (recovery code))), 1)
  | .configError message =>
      (sink.error operation message "config_error" none none (some (recovery "config_error")), 1)
  | .transportError message slowDevice =>
      (sink.error operation message "remote_error" none none
        (some (slowDevice.getD (recovery "remote_error"))), 1)
  | .keyboardInterrupt =>
      (sink.error operation "Operation cancelled." "cancelled" none none (some (recovery "cancelled")),
        130)
  | .systemExit message =>
      if ["0", "None", ""].contains message then
        (sink.result operation true (.obj [("summary", .str "Operation exited.")]), 0)
      else
        (sink.error operation message "operation_failed" none none (some (recovery "operation_failed")),
          1)
  | .exception message traceback =>
      (sink.error operation message "operation_failed" none
        (some (.obj [("traceback", .str traceback)])) (some (recovery "operation_failed")), 1)

/-! ## Requests -/

structure ApiRequest where
  operation : String
  params : JsonObject
  requestId : Option String

/-- `parse_api_request`, with the message of the error. -/
def parseApiRequest (request : JsonObject) : Except String ApiRequest :=
  let requestId := (request.lookup "request_id").getD .null
  let given := (request.lookup "operation").getD .null
  let operation := if given.truthy then given.pyStr env.container else ""
  if operation = "" then .error "missing required field: operation"
  else
    let params : Option JsonObject :=
      match (request.lookup "params").getD (.obj []) with
      | .null => some []
      | value => value.toObj?
    match params with
    | none => .error "params must be a JSON object"
    | some params =>
        let text := requestId.pyStr env.container
        .ok ⟨operation, params,
          match requestId with
          | .null => none
          | _ => if strip text = "" then none else some text⟩

def runApiRequest (request : JsonObject) (sink : EventSink) : List AppEvent × Int :=
  match parseApiRequest env request with
  | .error message =>
      ([sink.error "api" message "invalid_request" none none
        (some (env.recoveryFor "api" "invalid_request" none))], 1)
  | .ok apiRequest =>
      let sink : EventSink := ⟨apiRequest.requestId.getD sink.requestId⟩
      let operation := apiRequest.operation
      match env.operations.lookup operation with
      | none =>
          ([sink.error operation ("unknown operation: " ++ operation) "unknown_operation" none
            (some (.obj [("known_operations", .list ((env.operations.map Prod.fst).map .str))]))
            (some (env.recoveryFor operation "unknown_operation" none))], 1)
      | some handler =>
          let run := handler apiRequest.params
          let (event, exitCode) := endOperation env sink operation run
          (run.progress.map (·.emit sink operation) ++ [event], exitCode)

/-- `main`, of the text on the standard input and a new identifier. -/
def helperMain (input uuid : String) : List AppEvent × Int :=
  let sink : EventSink := ⟨uuid⟩
  let invalid (message : String) (debug : Option Json) : List AppEvent × Int :=
    ([sink.error "api" message "invalid_request" none debug
      (some (env.recoveryFor "api" "invalid_request" none))], 1)
  let raw := input.toList.take (maxRequestChars + 1)
  if raw.length > maxRequestChars then
    invalid ("request exceeds maximum size of " ++ toString maxRequestChars ++ " characters") none
  else
    match env.loads (String.ofList raw) with
    | .error (message, pos) =>
        invalid ("invalid JSON request: " ++ message) (some (.obj [("pos", .int pos)]))
    | .ok (.obj request) => runApiRequest env request sink
    | .ok _ => invalid "request must be a JSON object" none

end

/-! ## What the helper says -/

section

variable {env : HelperEnv} {sink : EventSink} {operation input uuid : String}

@[simp] theorem requestId_error {message code : String} {details debug recovery : Option Json} :
    (sink.error operation message code details debug recovery).requestId = sink.requestId := rfl

@[simp] theorem requestId_result {ok : Bool} {payload : Json} :
    (sink.result operation ok payload).requestId = sink.requestId := rfl

@[simp] theorem terminal_error {message code : String} {details debug recovery : Option Json} :
    (sink.error operation message code details debug recovery).terminal = true := rfl

@[simp] theorem terminal_result {ok : Bool} {payload : Json} :
    (sink.result operation ok payload).terminal = true := rfl

theorem terminal_emit (progress : Progress) : (progress.emit sink operation).terminal = false := by
  cases progress <;> rfl

theorem requestId_emit (progress : Progress) :
    (progress.emit sink operation).requestId = sink.requestId := by
  cases progress <;> rfl

theorem endOperation_event (env : HelperEnv) (sink : EventSink) (operation : String)
    (run : HandlerRun) :
    (endOperation env sink operation run).1.terminal = true ∧
      (endOperation env sink operation run).1.requestId = sink.requestId := by
  unfold endOperation
  cases run.ending with
  | systemExit message =>
    dsimp only
    split
    · exact ⟨rfl, rfl⟩
    · exact ⟨rfl, rfl⟩
  | _ => exact ⟨rfl, rfl⟩

/-- The events are about one request, and the last of them alone ends its operation. -/
structure Answers (events : List AppEvent) (requestId : String) : Prop where
  split : ∃ progress event, events = progress ++ [event] ∧ event.terminal = true ∧
    ∀ event ∈ progress, event.terminal = false
  requestId : ∀ event ∈ events, event.requestId = requestId

theorem answers_error {message code : String} {details debug recovery : Option Json} :
    Answers [sink.error operation message code details debug recovery] sink.requestId where
  split := ⟨[], _, rfl, rfl, fun event hmem => by cases hmem⟩
  requestId event hmem := by
    rw [List.mem_singleton.mp hmem]
    rfl

/-- The request that the events are about, as far as the helper can tell. -/
def ApiRequest.idOr (uuid : String) (request : ApiRequest) : String := request.requestId.getD uuid

theorem answers_runApiRequest_error {request : JsonObject} {message : String}
    (h : parseApiRequest env request = .error message) :
    Answers (runApiRequest env request sink).1 sink.requestId := by
  unfold runApiRequest
  rw [h]
  exact answers_error

theorem answers_runApiRequest {request : JsonObject} {apiRequest : ApiRequest}
    (h : parseApiRequest env request = .ok apiRequest) :
    Answers (runApiRequest env request sink).1 (apiRequest.idOr sink.requestId) := by
  unfold runApiRequest
  rw [h]
  dsimp only
  cases env.operations.lookup apiRequest.operation with
  | none => exact answers_error
  | some handler =>
    have hends := endOperation_event env ⟨apiRequest.idOr sink.requestId⟩ apiRequest.operation
      (handler apiRequest.params)
    refine ⟨⟨_, _, rfl, hends.1, fun event hmem => ?_⟩, fun event hmem => ?_⟩
    · obtain ⟨progress, -, rfl⟩ := List.mem_map.mp hmem
      exact terminal_emit progress
    · rcases List.mem_append.mp hmem with hmem | hmem
      · obtain ⟨progress, -, rfl⟩ := List.mem_map.mp hmem
        exact requestId_emit progress
      · rw [List.mem_singleton.mp hmem]
        exact hends.2

/-- A request that is too long is answered under an identifier that nobody knows. -/
theorem helperMain_long (env : HelperEnv) (uuid : String) (h : maxRequestChars < input.length) :
    (helperMain env input uuid).1 = [(EventSink.mk uuid).error "api"
      ("request exceeds maximum size of " ++ toString maxRequestChars ++ " characters") "invalid_request"
      none none (some (env.recoveryFor "api" "invalid_request" none))] := by
  have hlong : (input.toList.take (maxRequestChars + 1)).length > maxRequestChars := by
    rw [List.length_take, String.length_toList]
    omega
  unfold helperMain
  dsimp only
  rw [if_pos hlong]

/-- Whatever is asked, one event ends the answer. -/
theorem answers_helperMain (env : HelperEnv) (input uuid : String) :
    ∃ requestId, Answers (helperMain env input uuid).1 requestId := by
  unfold helperMain
  dsimp only
  split
  · exact ⟨uuid, answers_error⟩
  · split
    · exact ⟨uuid, answers_error⟩
    · rename_i request _
      cases hparse : parseApiRequest env request with
      | error message => exact ⟨_, answers_runApiRequest_error hparse⟩
      | ok apiRequest => exact ⟨_, answers_runApiRequest hparse⟩
    · exact ⟨uuid, answers_error⟩

/-- A request that names an operation is answered under its own identifier. -/
theorem answers_helperMain_request {request params : JsonObject} {requestID : String}
    (hlength : input.length ≤ maxRequestChars) (hloads : env.loads input = .ok (.obj request))
    (hoperation : request.lookup "operation" = some (.str operation)) (hne : operation ≠ "")
    (hparams : request.lookup "params" = some (.obj params))
    (hid : request.lookup "request_id" = some (.str requestID)) (hblank : strip requestID ≠ "") :
    Answers (helperMain env input uuid).1 requestID := by
  have hshort : input.toList.take (maxRequestChars + 1) = input.toList :=
    List.take_of_length_le (by rw [String.length_toList]; omega)
  have hparse : parseApiRequest env request = .ok ⟨operation, params, some requestID⟩ := by
    simp [parseApiRequest, hoperation, hparams, hid, Json.truthy, Json.pyStr, Json.toObj?, hne, hblank]
  unfold helperMain
  dsimp only
  rw [hshort, if_neg (by rw [String.length_toList]; omega), String.ofList_toList, hloads]
  exact answers_runApiRequest hparse

end

end TimeCapsule.App
