import TimeCapsule.Transport.Ssh

/-!
# One run for one command

When the client connects and authenticates, the command is run once and its output returned exactly if the
text holds nothing that the caller takes for a prompt, for a word of the client, or for a line of it.
-/

namespace TimeCapsule.Transport

open Lib
open Net (Text stripText)

/-! ## Sessions -/

/-- What a terminal makes of an output. -/
def onTerminal (t : Text) : Text := t.flatMap fun c => if c = '\n' then ['\r', '\n'] else [c]

/-- A run of the client that connected and authenticated: what it asked for, the lines it wrote after that,
and the output and the exit status of the command. -/
structure Session where
  asked : List Prompt
  clientLines : List Text
  clientLines_oneLine : ∀ line ∈ clientLines, ∀ c ∈ line, isLineBoundary c = false
  output : Text
  status : Nat

namespace Session

variable (session : Session)

def stream : Text :=
  session.clientLines.flatMap (· ++ ['\r', '\n']) ++ onTerminal session.output

def child : Child := ⟨session.asked, session.stream, some session.status, none⟩

/-- The client's lines that are no noise. -/
def keptLines : List Text := session.clientLines.filter fun line => !isNoiseLine line

def expected : Text := session.keptLines.flatMap (· ++ ['\n']) ++ session.output

end Session

/-- The session in the first attempt, and whatever the client does in a later one. -/
def attempts (session : Session) (later : Nat → Child) : Nat → Child
  | 0 => session.child
  | n + 1 => later n

/-- The command has run once, nothing was sent to it, and its status and output are returned. -/
structure Faithful (session : Session) (args : List Text) (run : SshRun) : Prop where
  once : run.runs.length = 1
  unasked : ∀ spawned ∈ run.runs, spawned.answered = session.asked
  result : run.result = .ok ⟨args, session.status, session.expected, []⟩

variable {env : Env} {connection : SshConnection} {session : Session} {t before : Text} {c : Char}

/-! ## Attempts -/

section Attempts

variable {ρ : Type} {run : Nat → ρ} {again : Nat → ρ → Bool}

end Attempts

end TimeCapsule.Transport
