import TimeCapsule.Lib.Prog
import TimeCapsule.Telemetry.Payload

/-!
# The telemetry agent

`main`, a cycle and the debug job as programs over what they ask of the system.  What a call answers is
left open here; `EINTR` is not an answer, as every loop tries again.
-/

namespace TimeCapsule.Telemetry

open Lib Lib.JsonText

/-! ## What the agent asks for -/

inductive Errno where
  | eagain
  | enoent
  | eperm
  | other
deriving DecidableEq, Repr

/-- The two names the agent keeps for itself: `TC_DEBUG_PATH` and `TC_DEBUG_SIGNATURE_PATH`. -/
inductive Reserved where
  | debug
  | signature
deriving DecidableEq, Repr

/-- What `lstat` and `fstat` tell of the workspace. -/
structure RootStat where
  isDir : Bool
  /-- It belongs to the effective user. -/
  owned : Bool
  mode : Nat
  dev : Nat
  ino : Nat
deriving DecidableEq, Repr

/-- The answer of `read_acp_value`. -/
inductive AcpResult where
  | ok (value : Bytes)
  | unavailable
  | abort
deriving DecidableEq, Repr

/-- What `telemetry_http` fetches or posts to. -/
inductive Url where
  | endpoint
  | debug
  | debugSignature
deriving DecidableEq, Repr

inductive Op where
  | stopped
  | time
  | enabled
  | sleep
  | getpid
  -- the workspace
  | lstatRoot
  | openRoot
  | fstatRoot
  | flock
  | setCloexec
  | closeRoot
  -- what is read of the device
  | openUrandom
  | readUrandom (count : Nat)
  | acp (key : String)
  | uname
  | uptime
  | deployReleaseTag
  -- the server
  | http (url : Url) (payload : Option Bytes) (limit : Nat)
  -- the reserved files
  | unlink (file : Reserved)
  | create (file : Reserved)
  | write (file : Reserved) (ino : Nat) (data : Bytes)
  | closeFile
  | chmodDebug
  -- the debug job
  | forkDebug (reason : Bytes)
  | waitpid
  | clearCloexec
  | setenv
  | execDebug
  | work

/-- A step of the debug program, or of a process that it started. -/
inductive Work where
  | own
  /-- It starts a process, which keeps the lock that it has. -/
  | forked (child : Nat) (steps : Nat)
  /-- It closes the lock. -/
  | closed

abbrev Ans : Op → Type
  | .stopped | .enabled | .openUrandom | .setCloexec | .closeFile | .chmodDebug | .clearCloexec | .setenv => Bool
  | .time | .getpid => Nat
  | .sleep | .closeRoot => Unit
  | .lstatRoot | .fstatRoot => Except Errno RootStat
  | .openRoot | .flock | .unlink _ => Except Errno Unit
  | .readUrandom _ => Option Bytes
  | .acp _ => AcpResult
  | .uname => Option (Bytes × Bytes × Bytes)
  | .uptime => Option Nat
  | .deployReleaseTag => Bytes
  | .http _ _ _ => Option Bytes
  | .create _ => Option Nat
  | .write _ _ _ => Option Nat
  | .forkDebug _ => Option Nat
  | .waitpid => Bool
  | .execDebug => Option Nat
  | .work => Work

/-- A part of the agent. -/
abbrev Agent (α : Type) : Type := Prog Op Ans α

def ask (op : Op) : Agent (Ans op) := Prog.op op

/-! ## The workspace -/

def tcExitBusy : Nat := 75

/-- The end of `telemetry_lock` behind `fail`. -/
def lockFailed (errno : Errno) : Agent (Except Errno Unit) := do
  ask .closeRoot
  pure (.error errno)

/-- What the workspace has to be: a directory of its own, where nobody else can replace a file. -/
def RootStat.trusted (st : RootStat) : Bool := st.isDir && st.owned && (st.mode &&& 0o22 == 0 || st.mode &&& 0o1000 != 0)

def telemetryLock : Agent (Except Errno Unit) := do
  match ← ask .lstatRoot with
  | .error errno => pure (.error errno)
  | .ok before =>
    if !before.trusted then pure (.error .eperm)
    else
      match ← ask .openRoot with
      | .error errno => pure (.error errno)
      | .ok _ =>
        match ← ask .fstatRoot with
        | .error errno => lockFailed errno
        | .ok opened =>
          if before.dev ≠ opened.dev ∨ before.ino ≠ opened.ino then lockFailed .eagain
          else
            match ← ask .flock with
            | .error errno => lockFailed errno
            | .ok _ => if ← ask .setCloexec then pure (.ok ()) else lockFailed .other

/-- The file is gone. -/
def telemetryRemoveFile (file : Reserved) : Agent Bool := do
  match ← ask (.unlink file) with
  | .ok _ => pure true
  | .error errno => pure (errno == .enoent)

/-- Both files are gone. -/
def telemetryCleanupLocked : Agent Bool := do
  let signature ← telemetryRemoveFile .signature
  let debug ← telemetryRemoveFile .debug
  pure (signature && debug)

def telemetryRecover : Agent Nat := do
  match ← telemetryLock with
  | .error errno => pure (if errno = .eagain then tcExitBusy else 1)
  | .ok _ =>
    let removed ← telemetryCleanupLocked
    ask .closeRoot
    pure (if removed then 0 else 1)

/-! ## What is sent -/

/-- The loop of `telemetry_nonce` that reads the bytes still missing. -/
def readNonce : (fuel : Nat) → (read : Bytes) → Agent (Option Bytes)
  | 0, read => pure (some read)
  | fuel + 1, read =>
      if 16 ≤ read.length then pure (some read)
      else do
        match ← ask (.readUrandom (16 - read.length)) with
        | none => pure none
        | some bytes => readNonce fuel (read ++ bytes)

def telemetryNonce : Agent (Option Bytes) := do
  if ← ask .openUrandom then
    let read ← readNonce 16 []
    pure (read.map hexText)
  else pure none

/-- What is left in `out`, unless the collector has to be given up. -/
def readAcpText (key : String) : Agent (Option Bytes) := do
  match ← ask (.acp key) with
  | .abort => pure none
  | .unavailable => pure (some [])
  | .ok value => pure (some value)

def buildRouterId (crypto : Crypto) (syap syam synm : Bytes) : Agent (Option Bytes) := do
  match ← ask (.acp "sySN") with
  | .abort => pure none
  | .ok sysn => pure (some (snprintf 96 sysn))
  | .unavailable =>
    match ← readAcpText "waMA" with
    | none => pure none
    | some wama =>
      match ← readAcpText "raMA" with
      | none => pure none
      | some rama => pure (some (hashedRouterId crypto syap syam synm wama rama))

/-- `uname`, in one line. -/
def osVersion (systemName : Option (Bytes × Bytes × Bytes)) : Bytes :=
  trimLine (systemName.elim [] fun (sysname, release, machine) =>
    snprintf (heartbeatMaxField * 3) (sysname ++ ascii " " ++ release ++ ascii " " ++ machine))

/-- The payload with the nonce; nothing when the device could not be read or a field does not fit. -/
def telemetryPayload (crypto : Crypto) (ulongMax : Nat) (reason nonce : Bytes) : Agent (Option Bytes) := do
  match ← readAcpText "syAP" with
  | none => pure none
  | some syap =>
    let syap := normalizeDecimalAcp ulongMax syap
    match ← readAcpText "syAM" with
    | none => pure none
    | some syam =>
      match ← readAcpText "syNm" with
      | none => pure none
      | some synm =>
        let systemName ← ask .uname
        let uptimeSec ← ask .uptime
        let tag ← ask .deployReleaseTag
        match ← buildRouterId crypto syap syam synm with
        | none => pure none
        | some routerId =>
          if ← ask .stopped then pure none
          else do
            let now ← ask .time
            let pid ← ask .getpid
            let heartbeatId := buildHeartbeatId crypto routerId reason now pid
            pure (payloadText heartbeatMaxJson
              ⟨nonce, heartbeatId, routerId, tag, syam, syap, synm, osVersion systemName, uptimeSec, reason⟩)

/-! ## The debug job -/

def tcSignatureMax : Nat := 512

/-- The loop of `write_download`, up to the position it ends at; nothing when a write fails. -/
def writeLoop (file : Reserved) (ino : Nat) (data : Bytes) : (fuel off : Nat) → Agent (Option Nat)
  | 0, off => pure (some off)
  | fuel + 1, off =>
      if data.length ≤ off then pure (some off)
      else do
        if ← ask .stopped then pure (some off)
        else
          match ← ask (.write file ino (data.drop off)) with
          | none => pure none
          | some n => if n = 0 then pure none else writeLoop file ino data fuel (off + n)

/-- The file is new, and has all of the data. -/
def writeDownload (file : Reserved) (data : Bytes) : Agent Bool := do
  match ← ask (.create file) with
  | none => pure false
  | some ino =>
    let written ← writeLoop file ino data data.length 0
    let closed ← ask .closeFile
    pure (closed && written == some data.length)

def telemetryDebugJob (crypto : Crypto) (reason : Bytes) : Agent Nat := do
  match ← ask (.http .debug none tcDebugMax) with
  | none => pure 1
  | some binary =>
    if ← ask .stopped then pure 1
    else if binary.isEmpty then pure 1
    else if !(← writeDownload .debug binary) then pure 1
    else
      match ← ask (.http .debugSignature none tcSignatureMax) with
      | none => pure 1
      | some signature =>
        if ← ask .stopped then pure 1
        else if !(← writeDownload .signature signature) then pure 1
        else if !(← telemetryRemoveFile .signature) then pure 1
        else if !telemetryVerify crypto binary signature then pure 1
        else if ← ask .stopped then pure 1
        else if !(← ask .chmodDebug) then pure 1
        else
          match ← ask (.forkDebug reason) with
          | none => pure 1
          | some _ => if ← ask .waitpid then pure 0 else pure 1

/-- The debug program, once it runs. -/
def debugWork : (steps : Nat) → Agent Unit
  | 0 => pure ()
  | steps + 1 => do
      let _ ← ask .work
      debugWork steps

/-- The process that `telemetry_debug_job` forks. -/
def debugChild : Agent Unit := do
  if !(← ask .clearCloexec) then pure ()
  else if !(← ask .setenv) then pure ()
  else
    match ← ask .execDebug with
    | none => pure ()
    | some steps => debugWork steps

/-! ## Cycles -/

def telemetryCycle (crypto : Crypto) (ulongMax : Nat) (reason : Bytes) : Agent Nat := do
  match ← telemetryNonce with
  | none => pure 1
  | some nonce =>
    match ← telemetryPayload crypto ulongMax reason nonce with
    | none => pure 1
    | some payload =>
      if ← ask .stopped then pure 1
      else
        match ← ask (.http .endpoint (some payload) tcResponseMax) with
        | none => pure 1
        | some body =>
          match telemetryResponseParse body with
          | .ok (0, response) =>
            if !response.debug then pure 0
            else if !telemetryAuthorized crypto response payload then pure 1
            else if ← ask .stopped then pure 1
            else telemetryDebugJob crypto reason
          | _ => pure 1

def tcIntervalSeconds : Nat := 43200

def tcCleanupIntervalSeconds : Nat := 30

structure TelemetrySchedule where
  nextDue : Nat
  bootSent : Bool

def telemetryScheduleDue (s : TelemetrySchedule) (now : Nat) : Bool := !s.bootSent || s.nextDue ≤ now

def telemetryScheduleStarted (now : Nat) : TelemetrySchedule := ⟨now + tcIntervalSeconds, true⟩

/-- The variables of `main`. -/
structure LoopState where
  schedule : TelemetrySchedule
  nextCleanup : Nat
  retryAfter : Nat
  rc : Nat

/-- What `main` does with the lock, up to its release: the result, and the schedule after it. -/
def lockedPass (crypto : Crypto) (ulongMax : Nat) (daemon : Bool) (reason : Bytes) (now : Nat) (due : Bool)
    (schedule : TelemetrySchedule) : Agent (Nat × TelemetrySchedule) := do
  if !(← telemetryCleanupLocked) then
    ask .closeRoot
    pure (1, schedule)
  else if !due then
    ask .closeRoot
    pure (0, schedule)
  else if ← ask .stopped then
    ask .closeRoot
    pure (0, schedule)
  else
    let cycleReason := if daemon then (if schedule.bootSent then ascii "scheduled" else ascii "boot") else reason
    let rc ← telemetryCycle crypto ulongMax cycleReason
    ask .closeRoot
    let cleanupRc ← telemetryRecover
    pure (if cleanupRc = 1 then 1 else rc, telemetryScheduleStarted now)

/-- The body of the loop of `main` when it is time for it. -/
def pass (crypto : Crypto) (ulongMax : Nat) (daemon : Bool) (reason : Bytes) (now : Nat) (due : Bool)
    (s : LoopState) : Agent LoopState := do
  match ← telemetryLock with
  | .error errno =>
    pure { s with rc := if errno = .eagain then tcExitBusy else 1, retryAfter := now + tcCleanupIntervalSeconds }
  | .ok _ =>
    let (rc, schedule) ← lockedPass crypto ulongMax daemon reason now due s.schedule
    let nextCleanup := (← ask .time) + tcCleanupIntervalSeconds
    pure ⟨schedule, nextCleanup, if rc ≠ 0 then nextCleanup else 0, rc⟩

/-- The loop of `main`, as often as it comes around before the process ends. -/
def mainLoop (crypto : Crypto) (ulongMax : Nat) (daemon : Bool) (reason : Bytes) :
    (rounds : Nat) → LoopState → Agent Nat
  | 0, s => pure s.rc
  | rounds + 1, s => do
      let now ← ask .time
      let due := !daemon || telemetryScheduleDue s.schedule now
      if !(← ask .enabled) then pure 0
      else
        let s ← if s.retryAfter ≤ now ∧ (due ∨ s.nextCleanup ≤ now) then
            pass crypto ulongMax daemon reason now due s
          else pure s
        if !daemon then pure s.rc
        else
          if !(← ask .stopped) then ask .sleep
          if ← ask .stopped then pure s.rc else mainLoop crypto ulongMax daemon reason rounds s

/-- The ways to start the agent that do more than print something about it. -/
inductive Mode where
  | daemon (rounds : Nat)
  | once (reason : Bytes)
  | cleanup
  | printPayload (reason : Bytes)

def main (crypto : Crypto) (ulongMax : Nat) : Mode → Agent Nat
  | .daemon rounds => mainLoop crypto ulongMax true (ascii "manual") rounds ⟨⟨0, false⟩, 0, 0, 0⟩
  | .once reason => mainLoop crypto ulongMax false reason 1 ⟨⟨0, false⟩, 0, 0, 0⟩
  | .cleanup => telemetryRecover
  | .printPayload reason => do
      match ← telemetryPayload crypto ulongMax reason [] with
      | none => pure 1
      | some _ => pure 0

end TimeCapsule.Telemetry
