import TimeCapsule.Lib.Text

/-!
# Targets

What a user gives as the device: a name or an address, with a user, a port and brackets around it, or a
URL.  `parse_endpoint` splits it, and `canonical_ssh_target` puts the target for `ssh` together, which is
stored and parsed again later.  `urlparse` and `ip_address` are parameters.
-/

namespace TimeCapsule.Net

open Lib

/-- The characters of a string. -/
abbrev Text := List Char

/-- The result of `urlparse`; its port may be none that can be read. -/
structure Url where
  scheme : Text
  netloc : Text
  hostname : Option Text
  username : Option Text
  port : Except String (Option Nat)

/-- The result of `ip_address` with its text. -/
structure IpAddress where
  version : Nat
  text : Text
deriving DecidableEq, Repr

/-- The library functions; `digit` is `str.isdigit` beyond ASCII. -/
structure Env where
  unicode : UnicodeData
  digit : Char → Bool
  urlparse : Text → Except String Url
  ipAddress : Text → Option IpAddress

/-! ## Strings -/

/-- `text.strip()` -/
def stripText (t : Text) : Text := (t.dropWhile isPySpace).rdropWhile isPySpace

def isBracket (c : Char) : Bool := c == '[' || c == ']'

/-- `text.strip("[]")` -/
def stripBrackets (t : Text) : Text := (t.dropWhile isBracket).rdropWhile isBracket

/-- `text.rsplit(c, 1)`, for a text with the character. -/
def rsplit (c : Char) (t : Text) : Text × Text :=
  ((t.rdropWhile (· != c)).dropLast, t.rtakeWhile (· != c))

/-- `text.split(c)` -/
def splitOn (c : Char) : Text → List Text
  | [] => [[]]
  | d :: t =>
      if d = c then [] :: splitOn c t
      else
        match splitOn c t with
        | [] => [[d]]
        | part :: parts => (d :: part) :: parts

namespace Env

variable (env : Env)

/-- `text.isdigit()` -/
def isDigit (t : Text) : Bool :=
  !t.isEmpty && t.all fun c => if c.toNat < 128 then c.isDigit else env.digit c

/-- `int(text)`, for a text of digits of which not all need be decimal. -/
def parseInt (t : Text) : Except String Nat :=
  let value := t.foldlM (fun n c => (digitOf env.unicode c).map (n * 10 + ·)) 0
  if 4300 < t.length then
    .error ("Exceeds the limit (4300 digits) for integer string conversion: value has " ++
      toString t.length ++ " digits; use sys.set_int_max_str_digits() to increase the limit")
  else
    value.elim (.error ("invalid literal for int() with base 10: " ++
      reprStr env.unicode (String.ofList t))) .ok

/-! ## Addresses -/

/-- The loop over the parts of an address with leading zeros. -/
def octetsOf : List Text → Except String (Option (List Text))
  | [] => .ok (some [])
  | part :: parts => do
      let octet ← env.parseInt part
      if 255 < octet then .ok none
      else
        let octets ← octetsOf parts
        .ok (octets.map (Nat.toDigits 10 octet :: ·))

def ipv4Literal (value : Text) : Except String (Option Text) :=
  let value := stripText value
  match env.ipAddress value with
  | some parsed => .ok (if parsed.version = 4 then some parsed.text else none)
  | none =>
      let parts := splitOn '.' value
      if parts.length ≠ 4 || !parts.all env.isDigit then .ok none
      else do
        let octets ← env.octetsOf parts
        .ok (octets.map fun octets => List.intercalate ['.'] octets)

def ipv6Literal (value : Text) : Option Text :=
  match env.ipAddress ((stripText value).takeWhile (· != '%')) with
  | some parsed => if parsed.version = 6 then some parsed.text else none
  | none => none

/-- `normalize_endpoint_host` -/
def normalizeEndpointHost (value : Text) : Except String Text :=
  let candidate := stripBrackets (stripText value)
  if candidate = [] then .ok []
  else do
    let ipv4 ← env.ipv4Literal candidate
    match ipv4 with
    | some literal => .ok literal
    | none =>
        match env.ipv6Literal candidate with
        | some literal => .ok literal
        | none => .ok (candidate.rdropWhile (· == '.'))

/-! ## Endpoints -/

end Env

/-- An endpoint, or its parts with the host as it is written. -/
structure Endpoint where
  user : Text
  host : Text
  port : Option Nat
  invalidPort : Option Text
deriving DecidableEq, Repr

namespace Env

variable (env : Env)

/-- The part of `parse_endpoint` behind the user. -/
def plainHost (raw user candidate : Text) : Except String Endpoint :=
  if candidate.head? == some '[' && candidate.contains ']' then
    let host := (candidate.drop 1).takeWhile (· != ']')
    let suffix := ((candidate.drop 1).dropWhile (· != ']')).drop 1
    if suffix.head? == some ':' then
      let portText := suffix.drop 1
      if env.isDigit portText then (env.parseInt portText).map fun port => ⟨user, host, some port, none⟩
      else if portText ≠ [] then .ok ⟨user, host, none, some portText⟩
      else .ok ⟨user, host, none, none⟩
    else if suffix ≠ [] then .ok ⟨user, host, none, some suffix⟩
    else .ok ⟨user, host, none, none⟩
  else if candidate.count ':' = 1 then
    let portText := (rsplit ':' candidate).2
    if env.isDigit portText then
      (env.parseInt portText).map fun port => ⟨user, (rsplit ':' candidate).1, some port, none⟩
    else if portText ≠ [] then .ok ⟨user, candidate, none, some portText⟩
    -- the host is still all of the text here
    else .ok ⟨user, raw, none, none⟩
  else .ok ⟨user, candidate, none, none⟩

/-- The parts of a text that is no URL. -/
def plainParts (raw : Text) : Except String Endpoint :=
  let candidate := raw.takeWhile (· != '/')
  if candidate.contains '@' then env.plainHost raw (rsplit '@' candidate).1 (rsplit '@' candidate).2
  else env.plainHost raw [] candidate

/-- `parse_endpoint` of a stripped text up to the normalization of the host. -/
def endpointParts (raw : Text) : Except String Endpoint := do
  let parsed ← env.urlparse raw
  let hostname := parsed.hostname.getD []
  if parsed.scheme ≠ [] ∧ hostname ≠ [] then
    let user := parsed.username.getD []
    match parsed.port with
    | .ok port => .ok ⟨user, hostname, port, none⟩
    | .error _ => .ok ⟨user, hostname, none, some (rsplit ':' parsed.netloc).2⟩
  else env.plainParts raw

def parseEndpoint (value : Text) : Except String Endpoint := do
  let parts ← env.endpointParts (stripText value)
  let host ← env.normalizeEndpointHost parts.host
  .ok { parts with host := host }

/-- `endpoint.user or "root"` -/
def userOf (endpoint : Endpoint) : Text := if endpoint.user = [] then "root".toList else endpoint.user

def targetOf (endpoint : Endpoint) : Text := userOf endpoint ++ '@' :: endpoint.host

def canonicalSshTarget (value : Text) : Except String Text := do
  let endpoint ← env.parseEndpoint value
  if endpoint.host = [] then .ok []
  else if endpoint.invalidPort.getD [] ≠ [] then
    .error ("invalid SSH target port: " ++ String.ofList (endpoint.invalidPort.getD []))
  else
    match endpoint.port with
    | none => .ok (targetOf endpoint)
    | some port =>
        if port = 22 then .ok (targetOf endpoint)
        else
          .error ("unsupported SSH target port " ++ toString port ++
            "; set a custom SSH port in TC_SSH_OPTS instead")

end Env

end TimeCapsule.Net
