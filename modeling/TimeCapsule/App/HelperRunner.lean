import TimeCapsule.App.Helper
import TimeCapsule.App.Operations
import TimeCapsule.Lib.Lines

/-!
# Running the helper

The runner starts a helper, hands it a request and passes its events on.  When the helper has not said
how the operation ended, the runner says so itself.
-/

namespace TimeCapsule.App

open Lib

/-- An event as the app has decoded it. -/
structure RunnerEvent extends BackendEvent where
  message : Option String
  debug : Option Json

namespace RunnerEvent

/-- What the tracker counts as an ending. -/
def terminal (event : RunnerEvent) : Bool := event.type = "result" || event.type = "error"

/-- `BackendEvent.error` -/
def error (operation code message requestID : String) (debug : Option Json) : RunnerEvent where
  type := "error"
  operation := operation
  code := some code
  details := none
  requestId := some requestID
  stage := none
  risk := none
  cancellable := none
  message := some message
  debug := debug

end RunnerEvent

/-- What the library does with JSON and with text. -/
structure Foundation where
  decode : Bytes → Option RunnerEvent
  encode : JsonObject → Except String Bytes
  text : Bytes → String

/-! ## Lines of the helper -/

structure OutputLineParser where
  buffer : Bytes

namespace OutputLineParser

variable (f : Foundation)

def decode (line : Bytes) : Option RunnerEvent := if line.isEmpty then none else f.decode line

def append (data : Bytes) (parser : OutputLineParser) : List RunnerEvent × OutputLineParser :=
  let (lines, rest) := splitLines (parser.buffer ++ data)
  (lines.filterMap (decode f), ⟨rest⟩)

def finish (parser : OutputLineParser) : List RunnerEvent := (decode f parser.buffer).toList

/-- The events of one chunk after another. -/
def appendAll (parser : OutputLineParser) : List Bytes → List RunnerEvent × OutputLineParser
  | [] => ([], parser)
  | data :: chunks =>
      let (events, parser) := parser.append f data
      let (more, parser) := appendAll parser chunks
      (events ++ more, parser)

end OutputLineParser

/-- How reading a pipe ends: with the end of the output, with an error, or not at all, when something
that the helper has started keeps the pipe open. -/
inductive PipeEnding where
  | finished
  | failed
  | held
deriving DecidableEq, Repr

structure PipeRead where
  chunks : List Bytes
  ending : PipeEnding

def readOutput (f : Foundation) (pipe : PipeRead) : List RunnerEvent :=
  let (events, parser) := OutputLineParser.appendAll f ⟨[]⟩ pipe.chunks
  if pipe.ending = .finished then events ++ parser.finish f else events

def readCapped (f : Foundation) (limit : Nat) (pipe : PipeRead) : String :=
  f.text (pipe.chunks.flatten.take limit)

/-! ## The runner -/

/-- An error of the request writer. -/
structure WriteFailure where
  cancellation : Bool
  message : String
deriving DecidableEq, Repr

/-- What happens to a run. -/
structure HelperProcess where
  resolved : Except String Unit
  launched : Except String Unit
  written : Except WriteFailure Unit
  stdout : PipeRead
  stderr : PipeRead
  /-- How many of its events come before the runner has given up on encoding the request. -/
  early : Nat
  /-- `Task.isCancelled`, once the helper has exited. -/
  cancelled : Bool
  terminationStatus : Int

structure HelperRunResult where
  exitCode : Int
  sawTerminalEvent : Bool
  stderr : String
deriving DecidableEq, Repr

/-- The events that are delivered, in their order, and what is returned when both pipes end. -/
structure HelperOutcome where
  events : List RunnerEvent
  result : Option HelperRunResult

def sawTerminalEvent (events : List RunnerEvent) : Bool := events.any (·.terminal)

/-- The request that the helper reads. -/
def helperRequest (operation : String) (params : JsonObject) (requestID : String)
    (context : Option DeviceRuntimeContext) : JsonObject :=
  let requestParams :=
    match context with
    | some context =>
        if (params.lookup "config").isNone then dictSet params "config" (.str context.configURL)
        else params
    | none => params
  [("operation", .str operation), ("request_id", .str requestID), ("params", .obj requestParams)]

namespace HelperProcess

/-- Both pipes end, so that the runner goes on. -/
def ends (h : HelperProcess) : Bool := h.stdout.ending != .held && h.stderr.ending != .held

end HelperProcess

/-- `HelperRunner.run` -/
def runHelper (f : Foundation) (stderrLimit : Nat) (operation : String) (params : JsonObject)
    (requestID : String) (context : Option DeviceRuntimeContext) (h : HelperProcess) : HelperOutcome :=
  let error (code message : String) (debug : Option Json) : RunnerEvent :=
    .error operation code message requestID debug
  match h.resolved with
  | .error message => ⟨[error "helper_not_found" message none], some ⟨1, true, ""⟩⟩
  | .ok () =>
    match h.launched with
    | .error message => ⟨[error "helper_launch_failed" message none], some ⟨1, true, ""⟩⟩
    | .ok () =>
      let printed := readOutput f h.stdout
      let stderr := readCapped f stderrLimit h.stderr
      let debug : Option Json := if stderr.isEmpty then none else some (.obj [("stderr", .str stderr)])
      match f.encode (helperRequest operation params requestID context) with
      | .error message =>
          ⟨printed.take h.early ++ error "helper_write_failed" message none :: printed.drop h.early,
            if h.ends then some ⟨1, true, stderr⟩ else none⟩
      | .ok _ =>
        -- from here on the runner says nothing before the pipes end
        if !h.ends then ⟨printed, none⟩
        else
          match h.written with
          | .error failure =>
              if h.cancelled || failure.cancellation then
                let events :=
                  if sawTerminalEvent printed then printed
                  else printed ++ [error "cancelled" "helper.error.cancelled" debug]
                ⟨events, some ⟨130, sawTerminalEvent events, stderr⟩⟩
              else
                ⟨printed ++ [error "helper_write_failed" failure.message none],
                  some ⟨1, true, stderr⟩⟩
          | .ok () =>
              let events :=
                if h.cancelled && !sawTerminalEvent printed then
                  printed ++ [error "cancelled" "helper.error.cancelled" debug]
                else if !sawTerminalEvent printed then
                  printed ++
                    [error "missing_terminal_event" "helper.error.missing_terminal_event" debug]
                else printed
              ⟨events, some ⟨if h.cancelled then 130 else h.terminationStatus,
                sawTerminalEvent events, stderr⟩⟩

/-! ## What the helper has printed -/

section

variable {f : Foundation}

theorem appendAll_cons (f : Foundation) (parser : OutputLineParser) (data : Bytes)
    (chunks : List Bytes) :
    parser.appendAll f (data :: chunks) =
      ((parser.append f data).1 ++ ((parser.append f data).2.appendAll f chunks).1,
        ((parser.append f data).2.appendAll f chunks).2) := rfl

theorem appendAll_eq (f : Foundation) (chunks : List Bytes) {parser : OutputLineParser}
    (h : lineFeed ∉ parser.buffer) :
    parser.appendAll f chunks =
      ((splitLines (parser.buffer ++ chunks.flatten)).1.filterMap (OutputLineParser.decode f),
        ⟨(splitLines (parser.buffer ++ chunks.flatten)).2⟩) := by
  induction chunks generalizing parser with
  | nil =>
    rw [List.flatten_nil, List.append_nil, splitLines_of_notMem h]
    rfl
  | cons data chunks ih =>
    have hrest := @ih (parser.append f data).2 (lineFeed_notMem_rest (parser.buffer ++ data))
    rw [appendAll_cons, hrest, List.flatten_cons, ← List.append_assoc,
      splitLines_append (parser.buffer ++ data), List.filterMap_append]
    rfl

/-- The events are those of the lines, wherever the output is cut into chunks. -/
theorem readOutput_finished (f : Foundation) {pipe : PipeRead} (h : pipe.ending = .finished) :
    readOutput f pipe =
      (splitLines pipe.chunks.flatten).1.filterMap (OutputLineParser.decode f) ++
        (OutputLineParser.decode f (splitLines pipe.chunks.flatten).2).toList := by
  rw [readOutput, appendAll_eq f pipe.chunks List.not_mem_nil]
  exact if_pos h

end

/-! ## Endings -/

section

variable {f : Foundation} {stderrLimit : Nat} {operation requestID : String} {params : JsonObject}
  {context : Option DeviceRuntimeContext} {h : HelperProcess} {op : ActiveOperation}

namespace HelperProcess

/-- A helper has been started. -/
def starts (h : HelperProcess) : Bool := h.resolved.isOk && h.launched.isOk

/-- The events that the helper has printed, as far as they have been read. -/
def printed (f : Foundation) (h : HelperProcess) : List RunnerEvent :=
  if h.starts then readOutput f h.stdout else []

/-- The request has not reached the helper, and not because the operation was cancelled. -/
def givesUp (f : Foundation) (request : JsonObject) (h : HelperProcess) : Bool :=
  !(f.encode request).isOk || h.ends &&
    match h.written with
    | .error failure => !(h.cancelled || failure.cancellation)
    | .ok () => false

end HelperProcess

/-- The events that the observer of the operation takes as its ending. -/
def endings (op : ActiveOperation) (events : List RunnerEvent) : List RunnerEvent :=
  events.filter fun event => event.terminal && op.accepts event.toBackendEvent

/-- The observer is told of an ending, and of one only when the helper has printed one at most. -/
structure Delivers (op : ActiveOperation) (printed events : List RunnerEvent) : Prop where
  told : endings op events ≠ []
  once : (printed.filter (·.terminal)).length ≤ 1 → (endings op events).length = 1

/-- The helper's own endings are such that the observer is told. -/
structure EndsOnce (f : Foundation) (op : ActiveOperation) (request : JsonObject) (h : HelperProcess) :
    Prop where
  /-- When the runner has given up on the request, the helper prints no ending, unless several. -/
  givenUp : h.starts = true → h.givesUp f request = true →
    endings op (h.printed f) = [] ∨ 2 ≤ ((h.printed f).filter (·.terminal)).length
  /-- Otherwise an ending of the helper is for the operation, or there is none and the pipes end. -/
  reached : h.starts = true → h.givesUp f request = false → endings op (h.printed f) ≠ [] ∨
    (h.printed f).filter (·.terminal) = [] ∧ h.ends = true

/-- An ending for the operation, as the runner makes them. -/
def Ends (op : ActiveOperation) (event : RunnerEvent) : Prop :=
  event.terminal = true ∧ op.accepts event.toBackendEvent = true

theorem ends_error (op : ActiveOperation) (code message : String) (debug : Option Json) :
    Ends op (.error op.operation code message op.id debug) :=
  ⟨rfl, by simp [ActiveOperation.accepts, RunnerEvent.error]⟩

theorem endings_append (op : ActiveOperation) (a b : List RunnerEvent) :
    endings op (a ++ b) = endings op a ++ endings op b := List.filter_append ..

theorem endings_singleton {event : RunnerEvent} (hends : Ends op event) :
    endings op [event] = [event] := by
  simp [endings, hends.1, hends.2]

theorem endings_eq_nil {events : List RunnerEvent} (hno : events.filter (·.terminal) = []) :
    endings op events = [] := by
  rw [List.filter_eq_nil_iff] at hno
  refine List.filter_eq_nil_iff.mpr fun event hmem hends => hno event hmem ?_
  exact (Bool.and_eq_true_iff.mp hends).1

theorem length_endings_le (op : ActiveOperation) (events : List RunnerEvent) :
    (endings op events).length ≤ (events.filter (·.terminal)).length :=
  (List.monotone_filter_right events fun _ hends => (Bool.and_eq_true_iff.mp hends).1).length_le

theorem sawTerminalEvent_eq_false {events : List RunnerEvent} :
    sawTerminalEvent events = false ↔ events.filter (·.terminal) = [] := by
  simp [sawTerminalEvent]

/-- What a run delivers: its own ending when no helper was started, also its own ending when it gives
up on the request, and else what the helper has printed, with its own ending when that has none. -/
theorem runHelper_cases (f : Foundation) (stderrLimit : Nat) (op : ActiveOperation) (params : JsonObject)
    (context : Option DeviceRuntimeContext) (h : HelperProcess) :
    let events := (runHelper f stderrLimit op.operation params op.id context h).events
    let request := helperRequest op.operation params op.id context
    (h.starts = false ∧ ∃ event, Ends op event ∧ events = [event]) ∨
    (h.starts = true ∧ h.givesUp f request = true ∧ ∃ a b event, h.printed f = a ++ b ∧ Ends op event ∧
      events = a ++ event :: b) ∨
    (h.starts = true ∧ h.givesUp f request = false ∧ h.ends = true ∧
      (h.printed f).filter (·.terminal) = [] ∧ ∃ event, Ends op event ∧
        events = h.printed f ++ [event]) ∨
    (h.starts = true ∧ h.givesUp f request = false ∧
      ¬(h.ends = true ∧ (h.printed f).filter (·.terminal) = []) ∧ events = h.printed f) := by
  have hsaid : ∀ {code message : String} {debug : Option Json},
      Ends op (.error op.operation code message op.id debug) := ends_error op _ _ _
  rw [← sawTerminalEvent_eq_false]
  rcases hresolved : h.resolved with message | ⟨⟩
  · refine .inl ⟨by simp [HelperProcess.starts, hresolved, Except.isOk, Except.toBool], ?_⟩
    simp only [runHelper, hresolved]
    exact ⟨_, hsaid, rfl⟩
  rcases hlaunched : h.launched with message | ⟨⟩
  · refine .inl ⟨by simp [HelperProcess.starts, hlaunched, Except.isOk, Except.toBool], ?_⟩
    simp only [runHelper, hresolved, hlaunched]
    exact ⟨_, hsaid, rfl⟩
  have hstarts : h.starts = true := by
    rw [HelperProcess.starts, hresolved, hlaunched]
    rfl
  have hprinted : h.printed f = readOutput f h.stdout := if_pos hstarts
  rw [hprinted]
  refine .inr ?_
  simp only [hstarts, true_and]
  rcases hencode : f.encode (helperRequest op.operation params op.id context) with message | data
  · refine .inl ⟨by simp [HelperProcess.givesUp, hencode, Except.isOk, Except.toBool], ?_⟩
    simp only [runHelper, hresolved, hlaunched, hencode]
    exact ⟨_, _, _, (List.take_append_drop h.early _).symm, hsaid, rfl⟩
  have hgives : h.givesUp f (helperRequest op.operation params op.id context) =
      (h.ends && match h.written with
        | .error failure => !(h.cancelled || failure.cancellation)
        | .ok () => false) := by
    rw [HelperProcess.givesUp, hencode]
    rfl
  simp only [hgives, runHelper, hresolved, hlaunched, hencode]
  cases hends : h.ends with
  | false => exact .inr (.inr ⟨rfl, by simp, rfl⟩)
  | true =>
    simp only [Bool.not_true, Bool.true_and, Bool.false_eq_true, if_false, true_and]
    rcases hwritten : h.written with failure | ⟨⟩
    · cases hcancelled : h.cancelled || failure.cancellation with
      | false =>
        refine .inl ⟨by simp [hcancelled], ?_⟩
        simp only [hcancelled, Bool.false_eq_true, if_false]
        exact ⟨_, [], _, (List.append_nil _).symm, hsaid, rfl⟩
      | true =>
        refine .inr ?_
        simp only [hcancelled, if_true, Bool.not_true, true_and]
        cases hsaw : sawTerminalEvent (readOutput f h.stdout) with
        | false =>
          simp only [Bool.false_eq_true, if_false]
          exact .inl ⟨trivial, _, hsaid, rfl⟩
        | true => exact .inr ⟨by simp, rfl⟩
    · refine .inr ?_
      cases hsaw : sawTerminalEvent (readOutput f h.stdout) with
      | false =>
        cases hcancelled : h.cancelled with
        | false => exact .inl ⟨rfl, rfl, _, hsaid, rfl⟩
        | true => exact .inl ⟨rfl, rfl, _, hsaid, rfl⟩
      | true => exact .inr ⟨rfl, by simp, by simp⟩

/-- A run delivers an ending exactly when the helper's own endings are such. -/
theorem delivers_iff (f : Foundation) (stderrLimit : Nat) (op : ActiveOperation) (params : JsonObject)
    (context : Option DeviceRuntimeContext) (h : HelperProcess) :
    Delivers op (h.printed f) (runHelper f stderrLimit op.operation params op.id context h).events ↔
      EndsOnce f op (helperRequest op.operation params op.id context) h := by
  have hle := length_endings_le op (h.printed f)
  rcases runHelper_cases f stderrLimit op params context h with ⟨hstarts, event, hends, hevents⟩ |
    ⟨hstarts, hgives, a, b, event, hprinted, hends, hevents⟩ |
    ⟨hstarts, hgives, hpipes, hnone, event, hends, hevents⟩ | ⟨hstarts, hgives, hsome, hevents⟩ <;>
    rw [hevents]
  · refine ⟨fun _ => ⟨fun h => ?_, fun h => ?_⟩, fun _ => ⟨?_, fun _ => ?_⟩⟩
    · rw [hstarts] at h
      cases h
    · rw [hstarts] at h
      cases h
    · rw [endings_singleton hends]
      exact List.cons_ne_nil _ _
    · rw [endings_singleton hends]
      rfl
  · have hcount : (endings op (a ++ event :: b)).length = (endings op (h.printed f)).length + 1 := by
      rw [hprinted, ← List.singleton_append (l := b), endings_append, endings_append, endings_append,
        endings_singleton hends]
      simp only [List.length_append, List.length_singleton]
      omega
    constructor
    · rintro ⟨-, honce⟩
      refine ⟨fun _ _ => ?_, fun _ hno => ?_⟩
      · by_cases hfew : ((h.printed f).filter (·.terminal)).length ≤ 1
        · refine .inl (List.length_eq_zero_iff.mp ?_)
          have := honce hfew
          omega
        · exact .inr (by omega)
      · rw [hgives] at hno
        cases hno
    · intro hends
      refine ⟨fun hnil => ?_, fun hfew => ?_⟩
      · rw [hnil] at hcount
        exact absurd hcount (by simp)
      · rcases hends.givenUp hstarts hgives with hnone | hmany
        · rw [hcount, hnone]
          rfl
        · omega
  · have hcount : (endings op (h.printed f ++ [event])).length = 1 := by
      rw [endings_append, endings_eq_nil hnone, endings_singleton hends]
      rfl
    refine ⟨fun _ => ⟨fun _ hyes => ?_, fun _ _ => .inr ⟨hnone, hpipes⟩⟩, fun _ => ⟨?_, fun _ => hcount⟩⟩
    · rw [hgives] at hyes
      cases hyes
    · exact List.ne_nil_of_length_pos (by omega)
  · constructor
    · rintro ⟨htold, -⟩
      refine ⟨fun _ hyes => ?_, fun _ _ => .inl htold⟩
      rw [hgives] at hyes
      cases hyes
    · intro hends
      rcases hends.reached hstarts hgives with htold | ⟨hnone, hpipes⟩
      · have hpos : 0 < (endings op (h.printed f)).length := List.length_pos_iff.mpr htold
        exact ⟨htold, fun hfew => by omega⟩
      · exact absurd ⟨hpipes, hnone⟩ hsome

end

/-! ## The helper's own answers -/

section

variable {f : Foundation} {env : HelperEnv} {op : ActiveOperation} {h : HelperProcess}
  {request : JsonObject} {events : List AppEvent} {requestId : String}

/-- The bytes that the helper prints. -/
def helperOutput (env : HelperEnv) (events : List AppEvent) : Bytes :=
  (events.map env.jsonText).flatMap (· ++ [lineFeed])

/-- What the app decodes of an event is what the helper has meant. -/
def Means (event : AppEvent) (decoded : RunnerEvent) : Prop :=
  decoded.type = event.type ∧ decoded.operation = event.operation ∧
    decoded.requestId = some event.requestId

/-- An event is printed on one line, which is decoded. -/
structure Prints (f : Foundation) (env : HelperEnv) : Prop where
  oneLine : ∀ event, lineFeed ∉ env.jsonText event
  decodes : ∀ event, event.requestId ≠ "" →
    ∃ decoded, OutputLineParser.decode f (env.jsonText event) = some decoded ∧ Means event decoded

theorem terminal_of_means {event : AppEvent} {decoded : RunnerEvent} (hmeans : Means event decoded) :
    decoded.terminal = event.terminal := by
  rw [RunnerEvent.terminal, AppEvent.terminal, hmeans.1]

theorem accepts_of_means {event : AppEvent} {decoded : RunnerEvent} (hmeans : Means event decoded)
    (op : ActiveOperation) : op.accepts decoded.toBackendEvent = decide (event.requestId = op.id) := by
  rw [ActiveOperation.accepts, hmeans.2.2]

/-- The runner reads what the helper prints, and nothing else. -/
structure ReadAs (events : List AppEvent) (read : List RunnerEvent) : Prop where
  every : ∀ event ∈ events, ∃ decoded ∈ read, Means event decoded
  only : ∀ decoded ∈ read, ∃ event ∈ events, Means event decoded

theorem readOutput_helperOutput (hprints : Prints f env) {pipe : PipeRead}
    (hfinished : pipe.ending = .finished) (hout : pipe.chunks.flatten = helperOutput env events)
    (hids : ∀ event ∈ events, event.requestId ≠ "") : ReadAs events (readOutput f pipe) := by
  have hread : readOutput f pipe =
      events.filterMap fun event => OutputLineParser.decode f (env.jsonText event) := by
    rw [readOutput_finished f hfinished, hout, helperOutput, splitLines_flatMap]
    · exact (List.append_nil _).trans List.filterMap_map
    · intro line hline
      obtain ⟨event, -, rfl⟩ := List.mem_map.mp hline
      exact hprints.oneLine event
  rw [hread]
  refine ⟨fun event hmem => ?_, fun decoded hmem => ?_⟩
  · obtain ⟨decoded, hdecoded, hmeans⟩ := hprints.decodes event (hids event hmem)
    exact ⟨decoded, List.mem_filterMap.mpr ⟨event, hmem, hdecoded⟩, hmeans⟩
  · obtain ⟨event, hevent, hdecoded⟩ := List.mem_filterMap.mp hmem
    obtain ⟨decoded', hdecoded', hmeans⟩ := hprints.decodes event (hids event hevent)
    rw [hdecoded] at hdecoded'
    obtain rfl : decoded = decoded' := Option.some.inj hdecoded'
    exact ⟨event, hevent, hmeans⟩

/-- When the helper has got the request and answers it, the observer is told if and only if the answer
is for the operation. -/
theorem endsOnce_of_answers (hprints : Prints f env) (hanswers : Answers events requestId)
    (hid : requestId ≠ "") (hstarts : h.starts = true) (hgives : h.givesUp f request = false)
    (hfinished : h.stdout.ending = .finished) (hout : h.stdout.chunks.flatten = helperOutput env events) :
    EndsOnce f op request h ↔ requestId = op.id := by
  have hprinted : h.printed f = readOutput f h.stdout := if_pos hstarts
  have hids : ∀ event ∈ events, event.requestId ≠ "" := fun event hmem =>
    (hanswers.requestId event hmem).symm ▸ hid
  have hread : ReadAs events (h.printed f) :=
    hprinted ▸ readOutput_helperOutput hprints hfinished hout hids
  obtain ⟨progress, last, rfl, hlast, -⟩ := hanswers.split
  have hmemLast : last ∈ progress ++ [last] := List.mem_append_right _ List.mem_cons_self
  obtain ⟨decoded, hmem, hlastMeans⟩ := hread.every last hmemLast
  have hterminal : (h.printed f).filter (·.terminal) ≠ [] :=
    List.ne_nil_of_mem (List.mem_filter.mpr ⟨hmem, (terminal_of_means hlastMeans).trans hlast⟩)
  constructor
  · intro hends
    rcases hends.reached hstarts hgives with htold | ⟨hnone, -⟩
    · obtain ⟨event, hevent⟩ := List.exists_mem_of_ne_nil _ htold
      obtain ⟨hevent, hboth⟩ := List.mem_filter.mp hevent
      obtain ⟨printed, hprinted, hmeans⟩ := hread.only event hevent
      rw [Bool.and_eq_true, accepts_of_means hmeans, hanswers.requestId printed hprinted] at hboth
      exact of_decide_eq_true hboth.2
    · exact absurd hnone hterminal
  · rintro rfl
    refine ⟨fun _ hyes => absurd (hgives.symm.trans hyes) Bool.false_ne_true, fun _ _ => .inl ?_⟩
    refine List.ne_nil_of_mem (List.mem_filter.mpr ⟨hmem, ?_⟩)
    rw [terminal_of_means hlastMeans, hlast, accepts_of_means hlastMeans,
      hanswers.requestId last hmemLast]
    simp

end

/-! ### A request that is too long -/

def aNewId : String := "6f9619ff-8b86-4d01-b42d-00c04fc964ff"

/-- What the helper prints about a request that is too long. -/
def longAnswer : Bytes :=
  0x7b :: (ascii "\"code\": \"invalid_request\", \"message\": \"request exceeds maximum size of" ++
    ascii " 1048576 characters\", \"operation\": \"api\", \"recovery\": \x7b\"action_ids\": []," ++
    ascii " \"actions\": [\"Check the request JSON shape.\"," ++
    ascii " \"Send params as a JSON object.\"], \"message\": \"The helper request was malformed" ++
    ascii " or had invalid parameter types.\", \"retryable\": true, \"suggested_operation\": null," ++
    ascii " \"title\": \"Invalid request\"\x7d, \"request_id\": \"6f9619ff-8b86-4d01-b42d-00c04fc964ff\"," ++
    ascii " \"schema_version\": 1, \"type\": \"error\"\x7d")

def longAnswerEvent : RunnerEvent where
  type := "error"
  operation := "api"
  code := some "invalid_request"
  details := none
  requestId := some aNewId
  stage := none
  risk := none
  cancellable := none
  message := some "request exceeds maximum size of 1048576 characters"
  debug := none

/-- What the library does with the request and the answer. -/
def answerFoundation (request : String) : Foundation where
  decode line := if line = longAnswer then some longAnswerEvent else none
  encode _ := .ok (encodeAsciiIgnore request)
  text _ := ""

def answerEnv : HelperEnv where
  loads _ := .ok .null
  container _ := ""
  recoveryFor _ _ _ := .null
  operations := []
  jsonText _ := longAnswer

/-- A helper that gets the whole request, answers, and exits. -/
def answerProcess (request : String) : HelperProcess where
  resolved := .ok ()
  launched := .ok ()
  written := .ok ()
  stdout := ⟨[helperOutput answerEnv (helperMain answerEnv request aNewId).1], .finished⟩
  stderr := ⟨[], .finished⟩
  early := 0
  cancelled := false
  terminationStatus := 1

def anOperation : ActiveOperation := ⟨"run", "deploy", none, none⟩

section

variable {request : String}

theorem helperOutput_answer (h : maxRequestChars < request.length) :
    helperOutput answerEnv (helperMain answerEnv request aNewId).1 = longAnswer ++ lineFeed :: [] := by
  have htext : ∀ event, answerEnv.jsonText event = longAnswer := fun _ => by rw [answerEnv]
  rw [helperMain_long answerEnv aNewId h, helperOutput, List.map_singleton, List.flatMap_singleton,
    htext]

theorem printed_answerProcess (h : maxRequestChars < request.length) :
    (answerProcess request).printed (answerFoundation request) = [longAnswerEvent] := by
  have hline : lineFeed ∉ longAnswer := by decide +kernel
  have hnonempty : longAnswer.isEmpty = false := rfl
  have hdecoded : OutputLineParser.decode (answerFoundation request) longAnswer =
      some longAnswerEvent := by
    rw [OutputLineParser.decode, hnonempty, if_neg Bool.false_ne_true, answerFoundation]
    simp only [if_true]
  have hout : (answerProcess request).stdout.chunks.flatten = longAnswer ++ lineFeed :: [] :=
    (List.append_nil _).trans (helperOutput_answer h)
  have hread : (answerProcess request).printed (answerFoundation request) =
      readOutput (answerFoundation request) (answerProcess request).stdout := if_pos rfl
  rw [hread, readOutput_finished _ rfl, hout, splitLines_line hline, splitLines,
    List.filterMap_cons_some hdecoded]
  rfl

theorem not_delivers_answer (h : maxRequestChars < request.length) (params : JsonObject) :
    ¬Delivers anOperation ((answerProcess request).printed (answerFoundation request))
      (runHelper (answerFoundation request) 65536 anOperation.operation params anOperation.id none
        (answerProcess request)).events := by
  have hprinted := printed_answerProcess h
  intro hdelivers
  rcases runHelper_cases (answerFoundation request) 65536 anOperation params none
    (answerProcess request) with ⟨hstarts, -⟩ | ⟨-, hgives, -⟩ | ⟨-, -, -, hnone, -⟩ |
    ⟨-, -, -, hevents⟩
  · cases hstarts
  · cases hgives
  · rw [hprinted] at hnone
    cases hnone
  · refine hdelivers.told ?_
    rw [hevents, hprinted]
    decide +kernel

end

/-- A password of a megabyte. -/
def longPassword : String := String.ofList (List.replicate maxRequestChars 'x')

def requestHead : String := "\x7b\"operation\":\"deploy\",\"params\":\x7b\"password\":\""

def requestTail : String := "\"\x7d,\"request_id\":\"run\"\x7d"

/-- The request that is written for it, which the pipe takes at once. -/
def longRequest : String := requestHead ++ longPassword ++ requestTail

theorem length_longRequest : maxRequestChars < longRequest.length := by
  have hhead : 0 < requestHead.length := by decide
  rw [longRequest, String.length_append, String.length_append, longPassword, String.length_ofList,
    List.length_replicate]
  omega

/-- The helper answers under a new identifier, the runner has seen an ending, and the observer is told
of none. -/
theorem long_request_unanswered :
    ¬Delivers anOperation ((answerProcess longRequest).printed (answerFoundation longRequest))
      (runHelper (answerFoundation longRequest) 65536 anOperation.operation
        [("password", .str longPassword)] anOperation.id none (answerProcess longRequest)).events :=
  not_delivers_answer length_longRequest _

end TimeCapsule.App
