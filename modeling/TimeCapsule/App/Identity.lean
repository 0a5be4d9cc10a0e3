import Mathlib.Data.List.Basic

/-!
# Network identities of devices

How the app tells whether two saved devices are the same: by the Bonjour name, the SSH target, the
hostname, or an address that both have.
-/

namespace TimeCapsule.App

/-- What the operating system's library does: `URLComponents(string:)` with the user, the host and the
port, `inet_pton`, and what it knows of Unicode. -/
structure Platform where
  urlComponents : String → Option (Option String × Option String × Option Int)
  isIPv4 : String → Bool
  isIPv6 : String → Bool
  whitespacesAndNewlines : Char → Bool
  lowercased : String → String
  /-- No letter vanishes. -/
  lowercased_eq_empty : ∀ s, lowercased s = "" ↔ s = ""

/-- What the library does with host names of plain letters. -/
def plainPlatform : Platform where
  urlComponents _ := some (none, none, none)
  isIPv4 _ := false
  isIPv6 _ := false
  whitespacesAndNewlines := Char.isWhitespace
  lowercased s := String.ofList (s.toList.map Char.toLower)
  lowercased_eq_empty s := by simp

/-! ## Strings -/

/-- `trimmingCharacters(in:)` -/
def trimmingCharacters (set : Char → Bool) (s : String) : String :=
  String.ofList (((s.toList.dropWhile set).reverse.dropWhile set).reverse)

/-- `Int(text)` -/
def parseInt (text : String) : Option Int :=
  let magnitude : List Char → Option Nat := fun digits =>
    if digits.isEmpty then none
    else digits.foldl (fun acc c => do
      let n ← acc
      if c.isDigit then some (10 * n + (c.toNat - '0'.toNat)) else none) (some 0)
  let bounded : Int → Option Int := fun n =>
    if -9223372036854775808 ≤ n ∧ n ≤ 9223372036854775807 then some n else none
  match text.toList with
  | '-' :: digits => (magnitude digits).bind fun n => bounded (-n)
  | '+' :: digits => (magnitude digits).bind fun n => bounded n
  | digits => (magnitude digits).bind fun n => bounded n

/-- The part before the first separator. -/
def beforeFirst (separator : Char) (s : String) : String :=
  String.ofList (s.toList.takeWhile (· ≠ separator))

/-- The parts before and after the last separator. -/
def splitLast (separator : Char) (s : String) : Option (String × String) :=
  let after := (s.toList.reverse.takeWhile (· ≠ separator)).reverse
  if after.length = s.toList.length then none
  else some (String.ofList (s.toList.take (s.toList.length - after.length - 1)), String.ofList after)

inductive NetworkAddressFamily where
  | ipv4
  | ipv6
deriving DecidableEq, Repr

def NetworkAddressFamily.rawValue : NetworkAddressFamily → String
  | .ipv4 => "ipv4"
  | .ipv6 => "ipv6"

inductive NetworkAddressScope where
  | regular
  | linkLocal
  | loopback
deriving DecidableEq, Repr

inductive DeviceAddressSource where
  | bonjour
  | configured
  | manual
deriving DecidableEq, Repr

structure DeviceNetworkAddress where
  value : String
  family : NetworkAddressFamily
  scope : NetworkAddressScope
  source : DeviceAddressSource
deriving DecidableEq, Repr

/-! ## Endpoints -/

namespace DeviceEndpointPolicy

variable (p : Platform)

def ipv6LiteralForParsing (value : String) : String :=
  beforeFirst '%' (trimmingCharacters (fun c => c = '[' || c = ']') value)

def addressFamily (value : String) : Option NetworkAddressFamily :=
  if p.isIPv4 value then some .ipv4
  else if p.isIPv6 (ipv6LiteralForParsing value) then some .ipv6
  else none

def normalizedAddressValue (value : String) : NetworkAddressFamily → String
  | .ipv4 => value
  | .ipv6 => p.lowercased value

/-- The digits of a hexadecimal number. -/
def parseHex (text : String) : Option Nat :=
  if text.toList.isEmpty then none
  else text.toList.foldl (fun acc c => do
    let n ← acc
    if c.isDigit then some (16 * n + (c.toNat - '0'.toNat))
    else if 'a' ≤ c ∧ c ≤ 'f' then some (16 * n + (c.toNat - 'a'.toNat + 10))
    else if 'A' ≤ c ∧ c ≤ 'F' then some (16 * n + (c.toNat - 'A'.toNat + 10))
    else none) (some 0)

def addressScope (value : String) : NetworkAddressFamily → NetworkAddressScope
  | .ipv4 =>
      if value.startsWith "169.254." then .linkLocal
      else if value.startsWith "127." then .loopback
      else .regular
  | .ipv6 =>
      let literal := p.lowercased (ipv6LiteralForParsing value)
      if literal = "::1" then .loopback
      else
        let firstHextet := beforeFirst ':' (String.ofList (literal.toList.dropWhile (· = ':')))
        match parseHex firstHextet with
        | some value => if Nat.land value 0xffc0 = 0xfe80 then .linkLocal else .regular
        | none => .regular

structure Endpoint where
  user : String
  host : String
  port : Option Int
  invalidPort : Option String

def normalizedEndpointHost (value : String) : String :=
  let candidate := trimmingCharacters (fun c => c = '[' || c = ']')
    (trimmingCharacters p.whitespacesAndNewlines value)
  if (addressFamily p candidate).isNone then trimmingCharacters (· = '.') candidate else candidate

/-- Host and port of a target without a user: with brackets, with one colon, or the host alone. -/
def splitPort (candidate : String) : String × Option Int × Option String :=
  let port (text : String) : Option Int × Option String :=
    match parseInt text with
    | some port => (some port, none)
    | none => (none, if text.isEmpty then none else some text)
  if candidate.startsWith "[" && candidate.toList.contains ']' then
    let host := String.ofList ((candidate.toList.drop 1).takeWhile (· ≠ ']'))
    let suffix := candidate.toList.drop (host.toList.length + 2)
    match suffix with
    | ':' :: portText => (host, port (String.ofList portText))
    | [] => (host, none, none)
    | suffix => (host, none, some (String.ofList suffix))
  else if candidate.toList.count ':' = 1 then
    match splitLast ':' candidate with
    | none => (candidate, none, none)
    | some (hostPart, portText) =>
        match parseInt portText with
        | some port => (hostPart, some port, none)
        | none => (candidate, none, if portText.isEmpty then none else some portText)
  else (candidate, none, none)

def parseEndpoint (value : Option String) : Option Endpoint := do
  let candidate := trimmingCharacters p.whitespacesAndNewlines (← value)
  if candidate.isEmpty then none
  else
    match p.urlComponents candidate with
    | some (user, some host, port) =>
        if host.isEmpty then parseTarget candidate
        else some ⟨user.getD "", normalizedEndpointHost p host, port, none⟩
    | _ => parseTarget candidate
where
  parseTarget (candidate : String) : Option Endpoint :=
    let candidate := beforeFirst '/' candidate
    let (user, target) := (splitLast '@' candidate).getD ("", candidate)
    let (host, port, invalidPort) := splitPort target
    some ⟨user, normalizedEndpointHost p host, port, invalidPort⟩

def hostComponent (value : Option String) : Option String := do
  let endpoint ← parseEndpoint p value
  if endpoint.host.isEmpty then none else some endpoint.host

end DeviceEndpointPolicy

open DeviceEndpointPolicy

/-! ## Addresses -/

namespace DeviceNetworkAddress

def normalizedValue (p : Platform) (address : DeviceNetworkAddress) : String :=
  normalizedAddressValue p address.value address.family

def identityKey (p : Platform) (address : DeviceNetworkAddress) : String :=
  address.family.rawValue ++ ":" ++ address.normalizedValue p

/-- `DeviceNetworkAddress(value:source:)` -/
def make (p : Platform) (value : String) (source : DeviceAddressSource) :
    Option DeviceNetworkAddress := do
  let host ← hostComponent p (some value)
  let family ← addressFamily p host
  let value := normalizedAddressValue p host family
  some ⟨value, family, addressScope p value family, source⟩

end DeviceNetworkAddress

namespace DeviceEndpointPolicy

variable (p : Platform)

def normalizedHostKey (value : Option String) : String :=
  match hostComponent p value with
  | none => ""
  | some host =>
      match DeviceNetworkAddress.make p host .configured with
      | some address => address.family.rawValue ++ ":" ++ address.normalizedValue p
      | none => "hostname:" ++ p.lowercased (trimmingCharacters (· = '.') host)

def normalizedHostname (value : Option String) : Option String := do
  let host ← hostComponent p value
  if (addressFamily p host).isSome then none
  else
    let normalized := trimmingCharacters (· = '.') host
    if normalized.isEmpty then none else some normalized

/-- The first address of every key stays. -/
def uniqueAddresses (addresses : List DeviceNetworkAddress) : List DeviceNetworkAddress :=
  addresses.foldl (fun ordered address =>
    if (ordered.map (·.identityKey p)).contains (address.identityKey p) then ordered
    else ordered ++ [address]) []

end DeviceEndpointPolicy

/-! ## Identities -/

structure DeviceNetworkIdentity where
  configuredSSHTarget : String
  hostname : Option String
  bonjourName : Option String
  bonjourFullname : Option String
  addresses : List DeviceNetworkAddress
deriving DecidableEq, Repr

/-- A device that Bonjour has found. -/
structure DiscoveredDevice where
  name : String
  hostname : String
  fullname : String
  networkAddresses : List DeviceNetworkAddress
deriving DecidableEq, Repr

namespace DeviceNetworkIdentity

variable (p : Platform)

def normalizedOptional (value : Option String) : Option String := do
  let trimmed := trimmingCharacters p.whitespacesAndNewlines (← value)
  if trimmed.isEmpty then none else some trimmed

def appendConfiguredTargetAddress (identity : DeviceNetworkIdentity) : DeviceNetworkIdentity :=
  let others := identity.addresses.filter fun address => address.source ≠ .configured
  { identity with
    addresses := uniqueAddresses p
      (others ++ (DeviceNetworkAddress.make p identity.configuredSSHTarget .configured).toList) }

/-- The initializer. -/
def new (configuredSSHTarget : String) (hostname bonjourName bonjourFullname : Option String)
    (addresses : List DeviceNetworkAddress) : DeviceNetworkIdentity :=
  appendConfiguredTargetAddress p
    { configuredSSHTarget
      hostname := normalizedOptional p hostname
      bonjourName := normalizedOptional p bonjourName
      bonjourFullname := normalizedOptional p bonjourFullname
      addresses := uniqueAddresses p addresses }

def mergeAddresses (newAddresses : List DeviceNetworkAddress) (identity : DeviceNetworkIdentity) :
    DeviceNetworkIdentity :=
  { identity with addresses := uniqueAddresses p (identity.addresses ++ newAddresses) }

def make (configuredSSHTarget : String) (discoveredDevice : Option DiscoveredDevice)
    (existing : Option DeviceNetworkIdentity) : DeviceNetworkIdentity :=
  let identity := new p configuredSSHTarget
    ((discoveredDevice.map (·.hostname)).orElse fun _ => existing.bind (·.hostname))
    ((discoveredDevice.map (·.name)).orElse fun _ => existing.bind (·.bonjourName))
    ((discoveredDevice.map (·.fullname)).orElse fun _ => existing.bind (·.bonjourFullname))
    ((existing.map (·.addresses)).getD [])
  match discoveredDevice with
  | some device => mergeAddresses p device.networkAddresses identity
  | none => identity

def normalizedConfiguredHost (identity : DeviceNetworkIdentity) : String :=
  normalizedHostKey p (some identity.configuredSSHTarget)

def normalizedHostname (identity : DeviceNetworkIdentity) : String :=
  ((DeviceEndpointPolicy.normalizedHostname p identity.hostname).map p.lowercased).getD ""

/-- A set of keys, in the order of the addresses. -/
def matchableAddressKeys (identity : DeviceNetworkIdentity) : List String :=
  (identity.addresses.filter fun address => address.scope = .regular).map (·.identityKey p)

def normalizedFullname (identity : DeviceNetworkIdentity) : Option String :=
  (normalizedOptional p identity.bonjourFullname).map p.lowercased

def «matches» (left right : DeviceNetworkIdentity) : Bool :=
  ((left.normalizedFullname p).isSome && left.normalizedFullname p == right.normalizedFullname p) ||
  (left.normalizedConfiguredHost p ≠ "" &&
    left.normalizedConfiguredHost p == right.normalizedConfiguredHost p) ||
  (left.normalizedHostname p ≠ "" && left.normalizedHostname p == right.normalizedHostname p) ||
  (left.matchableAddressKeys p).any fun key => (right.matchableAddressKeys p).contains key

end DeviceNetworkIdentity

end TimeCapsule.App
