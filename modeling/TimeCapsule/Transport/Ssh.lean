import TimeCapsule.Lib.SplitLines
import TimeCapsule.Net.Endpoint

/-!
# Commands over ssh

`run_ssh` runs the client on a terminal, answers what looks like a prompt and reads everything after the
last one as the output; `run_ssh_capture_bytes` runs it on pipes.  Both run the client again, or raise an
error, by what the text says, whoever wrote it.  The timeout is left out.
-/

namespace TimeCapsule.Transport

open Lib
open Net (Text stripText splitOn)

/-- The library functions, and `_connection_ssh_args`; `sameLetter` are the characters that
`re.IGNORECASE` takes for a letter. -/
structure Env where
  lower : Text → Text
  sameLetter : Char → Char → Bool
  decode : Bytes → Text
  sshpassFound : Bool
  connectionSshArgs : Text → Text → List Text

inductive SshError where
  | plain (message : Text)
  | algorithmNegotiation (message algorithm : Text) (offered : List Text)
  | clientConfig (message : Text)
  | network (message : Text)
  | authentication (message : Text)
  /-- The `KeyError` of a letter that only looks like one of an algorithm's name. -/
  | key (name : Text)
deriving DecidableEq, Repr

/-- `needle in text` -/
def contains (needle text : Text) : Bool := text.tails.any fun t => needle.isPrefixOf t

/-! ## What the client says -/

/-- `front` and `back` with at least one character between them. -/
def enclosed (front back line : Text) : Bool :=
  front.isPrefixOf line && back.isSuffixOf line && decide (front.length + back.length < line.length)

/-- A line that matches one of `SSH_CLIENT_NOISE_PATTERNS`. -/
def isClientNoise (line : Text) : Bool :=
  enclosed "Warning: Permanently added ".toList " to the list of known hosts.".toList line ||
    line == "Warning: No xauth data; using fake authentication data for X11 forwarding.".toList ||
    enclosed "Warning: untrusted X11 forwarding setup failed: ".toList [] line ||
    (enclosed "X11 forwarding request failed on channel ".toList ".".toList line &&
      ((line.drop "X11 forwarding request failed on channel ".length).dropLast.all Char.isDigit)) ||
    line == "** WARNING: connection is not using a post-quantum key exchange algorithm.".toList ||
    line == "** This session may be vulnerable to \"store now, decrypt later\" attacks.".toList ||
    line == "** The server may need to be upgraded. See https://openssh.com/pq.html".toList

namespace Env

variable (env : Env)

end Env

/-- A line that `_strip_ssh_client_noise` drops. -/
def isNoiseLine (rawLine : Text) : Bool := isClientNoise (stripText rawLine)

inductive Prompt where
  | authenticity
  | password
deriving DecidableEq, Repr

/-- A run of the client.  It asks for what it needs first; the loop keeps nothing of that, so `stream` is
what comes behind the last prompt of the client. -/
structure Child where
  asked : List Prompt
  stream : Text
  exitstatus : Option Nat
  signalstatus : Option Nat

/-- What `_spawn_with_password` returns, with the prompts it answered. -/
structure Spawned where
  answered : List Prompt
  rc : Nat
  output : Text

structure CompletedProcess where
  args : List Text
  returncode : Nat
  stdout : Text
  stderr : Text
deriving DecidableEq, Repr

/-- A call of `run_ssh`: the runs of the client and the result. -/
structure SshRun where
  runs : List Spawned
  result : Except SshError CompletedProcess

namespace Env

variable (env : Env)

end Env

/-! ## On pipes -/

namespace Env

variable (env : Env)

end Env

end TimeCapsule.Transport
