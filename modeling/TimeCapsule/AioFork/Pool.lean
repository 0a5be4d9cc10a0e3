import TimeCapsule.Lib.Bytes

/-!
# The helper pool of a share

`vfs_aio_fork`: requests go to forked helper processes over one shared mapping each, wait in a bounded
queue when all helpers are busy, and are executed synchronously when that is full or a fork fails.
A completion runs the owner's callback at once, which may submit and free requests while the functions
that led to it have not returned yet: what they still have to do is on a stack.
-/

namespace TimeCapsule.AioFork

open Lib

abbrev Pid := Nat

/-- A request, numbered in the order of submission. -/
abbrev ReqId := Nat

abbrev Errno := Nat

def EINVAL : Errno := 22

def EIO : Errno := 5

def ENOMEM : Errno := 12

/-- `AIO_FORK_MAX_PENDING` -/
def aioForkMaxPending : Nat := 16

/-- The size of the mapping, which bounds the size of a request. -/
def aioMapSize : Nat := 128 * 1024

inductive CmdType where
  | read
  | pwrite
  | write
  | fsync
deriving DecidableEq, Repr

def CmdType.writes : CmdType → Bool
  | .pwrite => true
  | .write => true
  | _ => false

/-- The flags `queued` and `active` of a request, the latter with its `child`. -/
inductive Place where
  | idle
  | queued
  | active (child : Pid)
deriving DecidableEq, Repr

/-- How a request has completed: `tevent_req_done` with the return value and the error of the call,
or `tevent_req_error`. -/
inductive Result where
  | done (ret : Int) (error : Errno)
  | error (error : Errno)
deriving DecidableEq, Repr

/-- `struct aio_fork_state` with its `tevent_req`.  The last three fields are not in the source: the
buffer at first, the bytes that were read from the file for the request, and the helper it was
sent to. -/
structure AioForkState where
  cmd : CmdType
  n : Nat
  offset : Nat
  data : Bytes
  place : Place
  completions : Nat
  result : Option Result
  returned : Bool
  freed : Bool
  original : Bytes
  readBytes : Bytes
  sentTo : Option Pid
deriving DecidableEq, Repr

structure AioChild where
  pid : Pid
  busy : Bool
  dontDelete : Bool
deriving DecidableEq, Repr

/-- A change of one helper of a list. -/
def updateChild (pid : Pid) (f : AioChild → AioChild) (children : List AioChild) : List AioChild :=
  children.map fun child => if child.pid = pid then f child else child

/-- `struct rw_cmd`, with the request it is for. -/
structure RwCmd where
  req : ReqId
  cmd : CmdType
  n : Nat
  offset : Nat
deriving DecidableEq, Repr

/-- `struct rw_ret` -/
structure RwRet where
  size : Int
  retErrno : Errno
deriving DecidableEq, Repr

/-- A helper process: its mapping, which it shares with the server, the command it is working on, and
its answer while nobody has read it.  It may run on after it has left the pool. -/
structure Worker where
  map : Bytes
  job : Option RwCmd
  reply : Option RwRet
deriving DecidableEq, Repr

/-- What an owner does in a callback. -/
inductive Action where
  | submit (cmd : CmdType) (n offset : Nat) (data : Bytes)
  | free (r : ReqId)
deriving DecidableEq, Repr

/-- What is still to be done: `aio_fork_schedule_pending`, a completion (with the owner's callback, or
inside `aio_fork_send`, where there is none yet), or the rest of a callback. -/
inductive Frame where
  | schedule
  | complete (r : ReqId) (result : Result) (notify : Bool)
  | actions (script : List Action)
deriving DecidableEq, Repr

/-- The pool, its requests and helpers.  `queuedLog` and `startedLog` are the requests that have been
queued and that have left the queue to be started; `written` is what the helpers have written. -/
structure Share where
  children : List AioChild
  pending : List ReqId
  maxChildren : Nat
  numChildren : Nat
  numPending : Nat
  cleanupEvent : Bool
  reqs : ReqId → AioForkState
  nextReq : ReqId
  workers : Pid → Worker
  nextPid : Pid
  stack : List Frame
  queuedLog : List ReqId
  startedLog : List ReqId
  written : List (ReqId × Bytes)
  fault : Bool

/-- What the environment decides in one step: whether the calls succeed, what a synchronous call does,
and what the owner does when a request completes. -/
structure Luck where
  initOk : Bool
  forkOk : Bool
  writeFd : Except Errno Unit
  readPacketOk : Bool
  io : Except Errno Bytes
  script : List Action

namespace Share

/-! ## Updates -/

def setReq (r : ReqId) (f : AioForkState → AioForkState) (s : Share) : Share :=
  { s with reqs := fun r' => if r' = r then f (s.reqs r') else s.reqs r' }

def setWorker (pid : Pid) (f : Worker → Worker) (s : Share) : Share :=
  { s with workers := fun pid' => if pid' = pid then f (s.workers pid') else s.workers pid' }

def setChild (pid : Pid) (f : AioChild → AioChild) (s : Share) : Share :=
  { s with children := updateChild pid f s.children }

def push (frames : List Frame) (s : Share) : Share := { s with stack := frames ++ s.stack }

def pop (s : Share) : Share := { s with stack := s.stack.tail }

/-- The owner has the request from now on. -/
def giveBack (r : ReqId) (s : Share) : Share := s.setReq r fun st => { st with returned := true }

/-- `memcpy` to the start of a buffer. -/
def fill (bytes buffer : Bytes) : Bytes := bytes ++ buffer.drop bytes.length

/-- `tevent_req_done` and `tevent_req_error`, which must not be called for a request that is gone. -/
def teventReqFinish (r : ReqId) (result : Result) (s : Share) : Share :=
  if (s.reqs r).freed then { s with fault := true }
  else s.setReq r fun st =>
    { st with completions := st.completions + 1, result := some result }

/-! ## Helpers -/

/-- A fork that succeeds: the new helper is the first of the list. -/
def createAioChild (s : Share) : Share :=
  { s with
    children := ⟨s.nextPid, false, false⟩ :: s.children
    numChildren := s.numChildren + 1
    workers := fun pid => if pid = s.nextPid then ⟨zeros aioMapSize, none, none⟩ else s.workers pid
    nextPid := s.nextPid + 1 }

/-- `TALLOC_FREE` of a helper, with its destructor. -/
def freeChild (pid : Pid) (s : Share) : Share :=
  { s with
    children := s.children.filter fun child => child.pid ≠ pid
    numChildren := s.numChildren - 1 }

def aioForkFindIdleChild (s : Share) : Option AioChild := s.children.find? fun child => !child.busy

/-- Nothing refers to the list of helpers: no request and no function that has still to return. -/
def unreferenced (s : Share) : Bool :=
  s.pending.isEmpty && s.children.all (fun child => !child.busy) && !s.stack.contains .schedule

/-- `init_aio_children`: without a timer for the cleanup the list is freed. -/
def initAioChildren (luck : Luck) (s : Share) : Share :=
  if s.cleanupEvent then s
  else if luck.initOk then { s with cleanupEvent := true }
  else if s.unreferenced then { s with children := [], numChildren := 0 }
  else { s with fault := true }

/-! ## Requests -/

def aioForkUnqueue (r : ReqId) (s : Share) : Share :=
  if (s.reqs r).place ≠ .queued then s
  else
    { s.setReq r fun st => { st with place := .idle } with
      pending := s.pending.erase r
      numPending := s.numPending - 1 }

/-- The call of `aio_fork_run_sync`: the request and how it completes. -/
def syncCall (io : Except Errno Bytes) (st : AioForkState) : AioForkState × Result :=
  match io with
  | .error e => (st, .done (-1) e)
  | .ok bytes =>
      let bytes := bytes.take st.n
      match st.cmd with
      | .read =>
          ({ st with data := fill bytes st.data, readBytes := bytes }, .done bytes.length 0)
      | .fsync => (st, .done 0 0)
      | _ => (st, .done bytes.length 0)

def aioForkRunSync (luck : Luck) (r : ReqId) (s : Share) : Share :=
  (s.setReq r fun st => (syncCall luck.io st).1).teventReqFinish r (syncCall luck.io (s.reqs r)).2

/-- `aio_fork_release_child`, and what its caller does next. -/
def aioForkReleaseChild (r : ReqId) (failed : Bool) (after : List Frame) (s : Share) : Share :=
  match (s.reqs r).place with
  | .active pid =>
      let released := (s.setReq r fun st => { st with place := .idle }).setChild pid fun child =>
        { child with busy := false }
      (if failed then released.freeChild pid else released).push (.schedule :: after)
  | _ => s

/-- The start of `aio_fork_dispatch`, up to the copy of the data. -/
def occupy (r : ReqId) (pid : Pid) (s : Share) : Share :=
  let st := s.reqs r
  let taken := (s.setReq r fun st => { st with place := .active pid }).setChild pid fun child =>
    { child with busy := true, dontDelete := true }
  if st.cmd.writes then taken.setWorker pid fun worker =>
    { worker with map := fill (st.data.take st.n) worker.map }
  else taken

/-- `write_fd`: the helper has its command. -/
def sendCmd (r : ReqId) (pid : Pid) (s : Share) : Share :=
  let st := s.reqs r
  (s.setReq r fun st => { st with sentTo := some pid }).setWorker pid fun worker =>
    { worker with job := some ⟨r, st.cmd, st.n, st.offset⟩ }

/-- Whether the request is under way; otherwise it will complete with the error. -/
def aioForkDispatch (luck : Luck) (r : ReqId) (pid : Pid) (notify : Bool) (s : Share) :
    Share × Bool :=
  let s := s.occupy r pid
  match luck.writeFd with
  | .error e => (s.aioForkReleaseChild r true [.complete r (.error e) notify], false)
  | .ok () =>
      let s := s.sendCmd r pid
      if luck.readPacketOk then (s, true)
      else (s.aioForkReleaseChild r true [.complete r (.error ENOMEM) notify], false)

/-- The head of the queue leaves it to be started. -/
def startPending (r : ReqId) (s : Share) : Share :=
  { s.aioForkUnqueue r with startedLog := s.startedLog ++ [r] }

/-- One turn of `aio_fork_schedule_pending`, which is on top of the stack until it returns. -/
def aioForkSchedulePending (luck : Luck) (s : Share) : Share :=
  match s.pending with
  | [] => s.pop
  | r :: _ =>
      match s.aioForkFindIdleChild with
      | some child => ((s.startPending r).aioForkDispatch luck r child.pid true).1
      | none =>
          if s.maxChildren ≠ 0 ∧ s.maxChildren ≤ s.numChildren then s.pop
          else if luck.forkOk then
            ((s.createAioChild.startPending r).aioForkDispatch luck r s.nextPid true).1
          else ((s.startPending r).aioForkRunSync luck r).push [.actions luck.script]

/-- `TALLOC_FREE` of a request by its owner, with `aio_fork_state_destructor`. -/
def freeReq (r : ReqId) (s : Share) : Share :=
  if s.nextReq ≤ r ∨ (s.reqs r).returned = false ∨ (s.reqs r).freed = true then s
  else
    ((s.aioForkUnqueue r).aioForkReleaseChild r true []).setReq r fun st => { st with freed := true }

/-! ## Submission -/

def createReq (cmd : CmdType) (n offset : Nat) (data : Bytes) (s : Share) : Share :=
  { s.setReq s.nextReq fun _ => ⟨cmd, n, offset, data, .idle, 0, none, false, false, data, [], none⟩ with
    nextReq := s.nextReq + 1 }

def enqueue (r : ReqId) (s : Share) : Share :=
  { s.setReq r fun st => { st with place := .queued } with
    pending := s.pending ++ [r]
    numPending := s.numPending + 1
    queuedLog := s.queuedLog ++ [r] }

def dispatchNew (luck : Luck) (r : ReqId) (pid : Pid) (s : Share) : Share :=
  let dispatched := s.aioForkDispatch luck r pid false
  if dispatched.2 then dispatched.1.giveBack r else dispatched.1

/-- The part of `aio_fork_send` behind the checks. -/
def submitReq (luck : Luck) (r : ReqId) (s : Share) : Share :=
  match s.aioForkFindIdleChild with
  | some child => s.dispatchNew luck r child.pid
  | none =>
      if s.maxChildren = 0 ∨ s.numChildren < s.maxChildren then
        if luck.forkOk then s.createAioChild.dispatchNew luck r s.nextPid
        else (s.aioForkRunSync luck r).giveBack r
      else if s.numPending < aioForkMaxPending then (s.enqueue r).giveBack r
      else (s.aioForkRunSync luck r).giveBack r

/-- A request that is posted completes without a callback on the stack. -/
def aioForkSend (luck : Luck) (cmd : CmdType) (n offset : Nat) (data : Bytes) (s : Share) : Share :=
  let r := s.nextReq
  let s := s.createReq cmd n offset data
  if cmd ≠ .fsync ∧ aioMapSize < n then (s.teventReqFinish r (.error EINVAL)).giveBack r
  else
    let s := s.initAioChildren luck
    if s.cleanupEvent then s.submitReq luck r else (s.teventReqFinish r (.error ENOMEM)).giveBack r

def perform (luck : Luck) (action : Action) (s : Share) : Share :=
  match action with
  | .submit cmd n offset data => s.aioForkSend luck cmd n offset data
  | .free r => s.freeReq r

/-! ## Events -/

/-- What a helper's answer makes of its request, and how the request completes. -/
def answered (st : AioForkState) (map : Bytes) (ret : RwRet) : AioForkState × Result :=
  if st.cmd = .read ∧ 0 ≤ ret.size then
    if (st.n : Int) < ret.size then (st, .error EIO)
    else ({ st with data := fill (map.take ret.size.toNat) st.data }, .done ret.size ret.retErrno)
  else (st, .done ret.size ret.retErrno)

/-- The part of `aio_fork_done` for an answer. -/
def receiveReply (r : ReqId) (pid : Pid) (ret : RwRet) (s : Share) : Share :=
  let map := (s.workers pid).map
  let read := s.setWorker pid fun worker => { worker with reply := none }
  let copied := read.setReq r fun st => (answered st map ret).1
  copied.aioForkReleaseChild r false [.complete r (answered (s.reqs r) map ret).2 true]

/-- `aio_fork_done`, with the answer or with the error of `read_packet_recv`. -/
def aioForkDone (r : ReqId) (received : Except Errno Unit) (s : Share) : Share :=
  match (s.reqs r).place, received with
  | .active _, .error e => s.aioForkReleaseChild r true [.complete r (.error e) true]
  | .active pid, .ok () =>
      match (s.workers pid).reply with
      | none => s
      | some ret => s.receiveReply r pid ret
  | _, _ => s

/-- `aio_child_cleanup`: helpers that have been idle since the previous sweep leave the pool.  That the
timer for the next sweep cannot be set is not noticed. -/
def aioChildCleanup (luck : Luck) (s : Share) : Share :=
  let kept := (s.children.filter fun child => child.busy || child.dontDelete).map fun child =>
    if child.busy then child else { child with dontDelete := false }
  { s with
    children := kept
    numChildren := s.numChildren - (s.children.length - kept.length)
    cleanupEvent := !kept.isEmpty && luck.initOk }

/-- The function on top of the stack goes on. -/
def resume (luck : Luck) (s : Share) : Share :=
  match s.stack with
  | [] => s
  | .schedule :: _ => s.aioForkSchedulePending luck
  | .complete r result notify :: _ =>
      let completed := s.pop.teventReqFinish r result
      if notify then completed.push [.actions luck.script] else completed.giveBack r
  | .actions [] :: _ => s.pop
  | .actions (action :: script) :: _ => (s.pop.push [.actions script]).perform luck action

/-- What a helper process does on its own. -/
inductive Work where
  | reads (bytes : Bytes)
  | writes
  | replies (ret : RwRet)

/-- A read answers with an error, with the number of bytes that it has read, or, when it is at fault,
with more than it was asked for. -/
def honest (st : AioForkState) (job : RwCmd) (ret : RwRet) : Bool :=
  job.cmd ≠ .read || ret.size < 0 || (job.n : Int) < ret.size || ret.size = st.readBytes.length

def work (pid : Pid) (work : Work) (s : Share) : Share :=
  match (s.workers pid).job with
  | none => s
  | some job =>
      match work with
      | .reads bytes =>
          if job.cmd = .read ∧ bytes.length ≤ job.n then
            (s.setWorker pid fun worker => { worker with map := fill bytes worker.map }).setReq job.req
              fun st => { st with readBytes := bytes }
          else s
      | .writes =>
          if job.cmd.writes then
            { s with written := s.written ++ [(job.req, (s.workers pid).map.take job.n)] }
          else s
      | .replies ret =>
          if honest (s.reqs job.req) job ret then
            s.setWorker pid fun worker => { worker with job := none, reply := some ret }
          else s

/-- What the owner does next in the callback that is running. -/
def nextAction (s : Share) : Option Action :=
  match s.stack with
  | .actions (action :: _) :: _ => some action
  | _ => none

/-- A step of the server, of which the actions of owners are restricted, or of a helper process.
After a fault anything could happen. -/
inductive Step (allow : Share → Luck → Action → Prop) : Share → Share → Prop where
  | act {s : Share} (luck : Luck) (action : Action) (hfault : s.fault = false)
      (hstack : s.stack = []) (hallow : allow s luck action) : Step allow s (s.perform luck action)
  | done {s : Share} (r : ReqId) (received : Except Errno Unit) (hfault : s.fault = false)
      (hstack : s.stack = []) : Step allow s (s.aioForkDone r received)
  | cleanup {s : Share} (luck : Luck) (hfault : s.fault = false) (hstack : s.stack = []) :
      Step allow s (s.aioChildCleanup luck)
  | resume {s : Share} (luck : Luck) (hfault : s.fault = false) (hstack : s.stack ≠ [])
      (hallow : ∀ action, s.nextAction = some action → allow s luck action) :
      Step allow s (s.resume luck)
  | work {s : Share} (pid : Pid) (work : Work) (hfault : s.fault = false) :
      Step allow s (s.work pid work)

/-- A request that has never been submitted. -/
def unusedReq : AioForkState := ⟨.fsync, 0, 0, [], .idle, 0, none, false, false, [], [], none⟩

/-- A share that has just been connected. -/
def connected (maxChildren : Nat) : Share where
  children := []
  pending := []
  maxChildren := maxChildren
  numChildren := 0
  numPending := 0
  cleanupEvent := false
  reqs := fun _ => unusedReq
  nextReq := 0
  workers := fun _ => ⟨[], none, none⟩
  nextPid := 0
  stack := []
  queuedLog := []
  startedLog := []
  written := []
  fault := false

end Share

end TimeCapsule.AioFork
