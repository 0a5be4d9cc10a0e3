import Mathlib.Data.List.Basic
import TimeCapsule.Lib.Rely
import TimeCapsule.Telemetry.Agent

/-!
# Agents side by side

Any number of agents run on one device, with the debug programs that they start.  They share the lock of
the workspace and the two reserved files.  Any of them can be stopped, fail or be killed at any step.
-/

namespace TimeCapsule.Telemetry

open Lib Lib.JsonText

/-! ## The device -/

/-- What a reserved name stands for. -/
inductive Entry where
  | file (ino : Nat) (content : Bytes) (executable : Bool)
  /-- A directory, a link, or anything else. -/
  | other

abbrev Files := Reserved → Option Entry

/-- What a process has done. -/
inductive Act where
  | locked
  /-- It has closed the lock, or has ended. -/
  | closed
  | drew (bytes : Bytes)
  | http (url : Url) (payload reply : Option Bytes)
  | removed (file : Reserved)
  | created (file : Reserved)
  | wrote (file : Reserved) (data : Bytes)
  | madeExecutable
  | forked (child : Pid)
  /-- It runs a debug program, while these hold the lock. -/
  | executed (content : Bytes) (holders : List Pid)

structure World where
  files : Files
  /-- The processes that have the locked descriptor open. -/
  holders : List Pid
  trace : List (Pid × Act)

namespace World

def log (w : World) (p : Pid) (act : Act) : World := { w with trace := w.trace ++ [(p, act)] }

def setFile (w : World) (file : Reserved) (entry : Option Entry) : World :=
  { w with files := Function.update w.files file entry }

/-- The child has the descriptors of its parent. -/
def fork (w : World) (p child : Pid) : World :=
  ({ w with holders := if w.holders.any (· == p) then child :: w.holders else w.holders }).log p (.forked child)

def close (w : World) (p : Pid) : World := ({ w with holders := w.holders.filter (· != p) }).log p .closed

end World

/-- The file after a write to the descriptor of an inode. -/
def Entry.written (ino : Nat) (data : Bytes) : Option Entry → Option Entry
  | some (.file ino' content executable) =>
      some (.file ino' (if ino' = ino then content ++ data else content) executable)
  | entry => entry

def Entry.madeExecutable : Option Entry → Option Entry
  | some (.file ino content _) => some (.file ino content true)
  | entry => entry

/-- What a call can answer, and leave. -/
def step (p : Pid) : (op : Op) → World → Ans op → World → Prop
  | .flock, w, .ok _, w' => w.holders = [] ∧ w' = ({ w with holders := [p] }).log p .locked
  | .closeRoot, w, _, w' => w' = w.close p
  | .readUrandom count, w, some bytes, w' =>
      0 < bytes.length ∧ bytes.length ≤ count ∧ w' = w.log p (.drew bytes)
  | .http url payload limit, w, reply, w' =>
      (∀ body ∈ reply, body.length ≤ limit) ∧ w' = w.log p (.http url payload reply)
  | .unlink file, w, .ok _, w' => w.files file ≠ none ∧ w' = (w.setFile file none).log p (.removed file)
  | .unlink file, w, .error errno, w' => (errno = .enoent → w.files file = none) ∧ w' = w
  | .create file, w, some ino, w' =>
      w.files file = none ∧ w' = (w.setFile file (some (.file ino [] false))).log p (.created file)
  | .write file ino data, w, some n, w' =>
      n ≤ data.length ∧
        w' = (w.setFile file (Entry.written ino (data.take n) (w.files file))).log p (.wrote file (data.take n))
  | .chmodDebug, w, true, w' =>
      w' = (w.setFile .debug (Entry.madeExecutable (w.files .debug))).log p .madeExecutable
  | .forkDebug _, w, some child, w' => w' = w.fork p child
  | .execDebug, w, some _, w' => ∃ content,
      ((∃ ino, w.files .debug = some (.file ino content true)) ∨ w.files .debug = some .other) ∧
        w' = w.log p (.executed content w.holders)
  | .work, w, .forked child _, w' => w' = w.fork p child
  | .work, w, .closed, w' => w' = w.close p
  | _, w, _, w' => w' = w

/-- What processes do. -/
inductive Job where
  | agent (mode : Mode)
  | debugChild
  | work (steps : Nat)

def spawned : (op : Op) → Ans op → Option (Pid × Job)
  | .forkDebug _, some child => some (child, .debugChild)
  | .work, .forked child steps => some (child, .work steps)
  | _, _ => none

section Crypto

variable (crypto : Crypto) (ulongMax : Nat)

def program : Job → Agent Unit
  | .agent mode => (main crypto ulongMax mode).bind fun _ => .ret ()
  | .debugChild => debugChild
  | .work steps => debugWork steps

/-- A device with its agents. -/
def device : Machine Op Ans Job World where
  step := step
  spawned := spawned
  program := program crypto ulongMax
  started job := ∃ mode, job = .agent mode
  leave p w := w.close p

/-- The device after it has started, with any files left over. -/
def Booted (w : World) : Prop := w.holders = [] ∧ w.trace = []

/-! ## What is guaranteed -/

/-- What one process has done. -/
def acts (p : Pid) (trace : List (Pid × Act)) : List Act :=
  trace.filterMap fun e => if e.1 == p then some e.2 else none

/-- What leads to a debug program: the bytes of a nonce, the payload and the reply to it, and what is fetched. -/
def debugActs (draws : List Bytes) (payload body content signature : Bytes) : List Act :=
  draws.map Act.drew ++ [Act.http .endpoint (some payload) (some body), Act.http .debug none (some content),
    Act.http .debugSignature none (some signature)]

/-- What a process does with the lock allows it to run the content as a debug program: it draws a nonce,
posts a payload with it, gets a reply for just this payload that allows it, and gets the content with its
signature. -/
def AllowedDebug (content : Bytes) (done : List Act) : Prop :=
  ∃ (draws : List Bytes) (fields : PayloadFields) (payload body : Bytes) (response : TelemetryResponse) (signature : Bytes),
    draws.flatten.length = 16 ∧ fields.nonce = hexText draws.flatten ∧
      payloadText heartbeatMaxJson fields = some payload ∧
      telemetryResponseParse body = .ok (0, response) ∧ response.debug = true ∧
      telemetryAuthorized crypto response payload = true ∧ telemetryVerify crypto content signature = true ∧
      (debugActs draws payload body content signature).Sublist done

/-- The child was started by a process that was allowed to, and the lock has been held ever since that
process has taken it. -/
def AllowedChild (child : Pid) (content : Bytes) (trace : List (Pid × Act)) : Prop :=
  ∃ p before cycle after, trace = before ++ (p, .locked) :: (cycle ++ (p, .forked child) :: after) ∧
    AllowedDebug crypto content (acts p cycle) ∧ (p, Act.closed) ∉ cycle ∧ (child, Act.closed) ∉ after

/-- Every debug program that was run was allowed, and its process held the lock. -/
def OnlyAllowed (trace : List (Pid × Act)) : Prop :=
  ∀ before child content holders after, trace = before ++ (child, .executed content holders) :: after →
    AllowedChild crypto child content before ∧ child ∈ holders

/-- What a process relies on: nobody else closes its lock, or touches the files while it has the lock. -/
structure Relies (p : Pid) (w w' : World) : Prop where
  trace : ∃ others, w'.trace = w.trace ++ others ∧ ∀ e ∈ others, e.1 ≠ p
  holds : p ∈ w.holders → p ∈ w'.holders ∧ w'.files = w.files
  alone : w.holders = [p] → w'.holders = [p]

/-- What a process guarantees: it touches the files only while it alone has the lock. -/
structure Guarantees (p : Pid) (w w' : World) : Prop where
  trace : ∃ own, w'.trace = w.trace ++ own ∧ ∀ e ∈ own, e.1 = p
  files : w'.files = w.files ∨ w.holders = [p]
  others : ∀ q, q ≠ p → q ∈ w.holders → q ∈ w'.holders
  outside : p ∉ w.holders → w'.holders = w.holders ∨ w.holders = []

/-- What a debug child finds: the program it is to run, and the lock. -/
def ReadyChild (child : Pid) (w : World) : Prop :=
  child ∈ w.holders ∧ ∃ ino content, w.files .debug = some (.file ino content true) ∧
    AllowedChild crypto child content w.trace

def Ready : Job → Pid → World → Prop
  | .debugChild, child, w => ReadyChild crypto child w
  | _, _, _ => True

end Crypto

/-! ## The contract -/

section Contract

variable {crypto : Crypto} {ulongMax : Nat} {p q child : Pid} {w w' w'' : World} {trace : List (Pid × Act)}
  {done : List Act} {act : Act} {content : Bytes}

theorem Relies.refl (p : Pid) (w : World) : Relies p w w :=
  ⟨⟨[], (List.append_nil _).symm, fun _ h => absurd h List.not_mem_nil⟩, fun h => ⟨h, rfl⟩, id⟩

theorem Relies.trans (h : Relies p w w') (h' : Relies p w' w'') : Relies p w w'' := by
  obtain ⟨others, htrace, hothers⟩ := h.trace
  obtain ⟨others', htrace', hothers'⟩ := h'.trace
  refine ⟨⟨others ++ others', ?_, fun e he => ?_⟩, fun hp => ?_, fun hp => h'.alone (h.alone hp)⟩
  · rw [htrace', htrace, List.append_assoc]
  · exact (List.mem_append.mp he).elim (hothers e) (hothers' e)
  · obtain ⟨hmem, hfiles⟩ := h.holds hp
    obtain ⟨hmem', hfiles'⟩ := h'.holds hmem
    exact ⟨hmem', hfiles'.trans hfiles⟩

theorem Guarantees.relies (h : Guarantees p w w') (hq : q ≠ p) : Relies q w w' := by
  obtain ⟨own, htrace, hown⟩ := h.trace
  refine ⟨⟨own, htrace, fun e he => ?_⟩, fun hmem => ⟨h.others q hq hmem, ?_⟩, fun halone => ?_⟩
  · rw [hown e he]
    exact hq.symm
  · rcases h.files with hfiles | hp
    · exact hfiles
    · rw [hp] at hmem
      exact absurd (List.mem_singleton.mp hmem) hq
  · have hp : p ∉ w.holders := by
      rw [halone]
      exact fun hmem => hq (List.mem_singleton.mp hmem).symm
    rcases h.outside hp with hsame | hnone
    · rw [hsame, halone]
    · rw [hnone] at halone
      cases halone

theorem mem_holders_close : q ∈ (w.close p).holders ↔ q ∈ w.holders ∧ q ≠ p := by
  rw [World.close, World.log, List.mem_filter, bne_iff_ne]

/-- Whoever closes the lock, or ends, leaves the files alone. -/
theorem guarantees_close (p : Pid) (w : World) : Guarantees p w (w.close p) := by
  refine ⟨⟨[(p, .closed)], rfl, fun e he => ?_⟩, .inl rfl, fun q hq hmem => mem_holders_close.mpr ⟨hmem, hq⟩,
    fun hp => .inl ?_⟩
  · rw [List.mem_singleton.mp he]
  · refine List.filter_eq_self.mpr fun q hq => bne_iff_ne.mpr ?_
    rintro rfl
    exact hp hq

theorem guarantees_fork (p child : Pid) (w : World) : Guarantees p w (w.fork p child) := by
  refine ⟨⟨[(p, .forked child)], rfl, fun e he => ?_⟩, .inl rfl, fun q hq hmem => ?_, fun hp => .inl ?_⟩
  · rw [List.mem_singleton.mp he]
  · show q ∈ if w.holders.any (· == p) then child :: w.holders else w.holders
    split
    · exact List.mem_cons_of_mem _ hmem
    · exact hmem
  · refine if_neg fun hany => ?_
    obtain ⟨q, hq, heq⟩ := List.any_eq_true.mp hany
    exact hp (beq_iff_eq.mp heq ▸ hq)

/-- Something that is done without the files and the lock. -/
theorem guarantees_log (p : Pid) (w : World) (act : Act) : Guarantees p w (w.log p act) := by
  refine ⟨⟨[(p, act)], rfl, fun e he => ?_⟩, .inl rfl, fun q _ hmem => hmem, fun _ => .inl rfl⟩
  rw [List.mem_singleton.mp he]

theorem guarantees_refl (p : Pid) (w : World) : Guarantees p w w :=
  ⟨⟨[], (List.append_nil _).symm, fun _ h => absurd h List.not_mem_nil⟩, .inl rfl, fun _ _ h => h, fun _ => .inl rfl⟩

/-- Something that is done to the files with the lock. -/
theorem guarantees_setFile (hp : w.holders = [p]) (file : Reserved) (entry : Option Entry) (act : Act) :
    Guarantees p w ((w.setFile file entry).log p act) := by
  refine ⟨⟨[(p, act)], rfl, fun e he => ?_⟩, .inr hp, fun q _ hmem => hmem, fun _ => .inl rfl⟩
  rw [List.mem_singleton.mp he]

theorem guarantees_lock (hfree : w.holders = []) (p : Pid) :
    Guarantees p w (({ w with holders := [p] }).log p .locked) := by
  refine ⟨⟨[(p, .locked)], rfl, fun e he => ?_⟩, .inl rfl, fun q _ hmem => ?_, fun _ => .inr hfree⟩
  · rw [List.mem_singleton.mp he]
  · rw [hfree] at hmem
    exact absurd hmem List.not_mem_nil

/-- One more act is only a matter of that act. -/
theorem OnlyAllowed.append (h : OnlyAllowed crypto trace)
    (hact : ∀ content holders, act = .executed content holders → AllowedChild crypto p content trace ∧ p ∈ holders) :
    OnlyAllowed crypto (trace ++ [(p, act)]) := by
  intro before child content holders after hsplit
  rcases List.eq_nil_or_concat after with rfl | ⟨after', last, rfl⟩
  · obtain ⟨rfl, hlast⟩ := List.append_inj' hsplit rfl
    obtain ⟨rfl, rfl⟩ := Prod.mk.inj (List.cons.inj hlast).1
    exact hact content holders rfl
  · rw [List.concat_eq_append, ← List.cons_append, ← List.append_assoc] at hsplit
    obtain ⟨rfl, -⟩ := List.append_inj' hsplit rfl
    exact h before child content holders after' rfl

theorem OnlyAllowed.other (h : OnlyAllowed crypto trace) (hact : ∀ content holders, act ≠ .executed content holders) :
    OnlyAllowed crypto (trace ++ [(p, act)]) :=
  h.append fun content holders heq => absurd heq (hact content holders)

/-- What others do does not matter to the child. -/
theorem AllowedChild.append (h : AllowedChild crypto child content trace) {others : List (Pid × Act)}
    (hothers : ∀ e ∈ others, e.1 ≠ child) : AllowedChild crypto child content (trace ++ others) := by
  obtain ⟨p, before, cycle, after, rfl, hdebug, hparent, hchild⟩ := h
  refine ⟨p, before, cycle, after ++ others, by simp, hdebug, hparent, fun hmem => ?_⟩
  rcases List.mem_append.mp hmem with hmem | hmem
  · exact hchild hmem
  · exact hothers _ hmem rfl

variable (crypto ulongMax)

def contract : Contract (device crypto ulongMax) where
  Inv w := OnlyAllowed crypto w.trace
  Rely := Relies
  Guar := Guarantees
  Ready := Ready crypto
  rely_refl := Relies.refl
  rely_trans := Relies.trans
  rely_of_guar := fun hq _ h => h.relies hq
  rely_of_leave := fun hq => (guarantees_close _ _).relies hq
  inv_leave := fun h => h.other fun _ _ heq => by cases heq
  ready_started := by
    rintro job p w ⟨mode, rfl⟩
    trivial

end Contract

end TimeCapsule.Telemetry
