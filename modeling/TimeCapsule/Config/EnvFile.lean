import TimeCapsule.Lib.Shlex
import TimeCapsule.Lib.SplitLines
import TimeCapsule.Net.Target
import Mathlib.Data.List.AList
import Mathlib.Data.List.Sort

/-!
# The configuration file

`render_env_text` writes the configuration as one assignment for each line, with quoted values, and
`parse_env_file` reads it line by line.  A value or a preserved key comes back if it has no line boundary
in it, and the key is one that a line can have.
-/

namespace TimeCapsule.Config

open Lib Net

/-- A dictionary of settings. -/
abbrev EnvValues := AList fun _ : Text => Text

/-! ## Keys -/

/-- `DEFAULTS` -/
def defaults : List (Text × Text) := [
  ("TC_HOST".toList, "root@192.168.x.x".toList),
  ("TC_SSH_OPTS".toList, ("-o HostKeyAlgorithms=+ssh-rsa -o PubkeyAcceptedAlgorithms=+ssh-rsa " ++
    "-o KexAlgorithms=+diffie-hellman-group14-sha1 -o StrictHostKeyChecking=no " ++
    "-o UserKnownHostsFile=/dev/null").toList),
  ("TC_INTERNAL_SHARE_USE_DISK_ROOT".toList, "false".toList),
  ("TC_SMB_BIND_LAN_ONLY".toList, "false".toList),
  ("TC_SMB_BROWSE_COMPATIBILITY".toList, "false".toList),
  ("TC_MDNS_ADVERTISE_AFP".toList, "false".toList),
  ("TC_ANY_PROTOCOL".toList, "false".toList),
  ("TC_REQUIRE_SMB_ENCRYPTION".toList, "false".toList),
  ("TC_FORCE_DISABLE_SMB_SIGNING_AND_ENCRYPTION".toList, "false".toList),
  ("TC_FRUIT_METADATA_NETATALK".toList, "true".toList),
  ("TC_VFS_AIO_FORK_ENABLED".toList, "false".toList),
  ("TC_DEBUG_LOGGING".toList, "false".toList),
  ("TC_ATA_IDLE_SECONDS".toList, "300".toList),
  ("TC_ATA_STANDBY".toList, [])]

/-- `ENV_FILE_KEYS` -/
def envFileKeys : List Text := [
  "TC_HOST".toList, "TC_PASSWORD".toList, "TC_SSH_OPTS".toList,
  "TC_INTERNAL_SHARE_USE_DISK_ROOT".toList, "TC_SMB_BIND_LAN_ONLY".toList,
  "TC_SMB_BROWSE_COMPATIBILITY".toList, "TC_MDNS_ADVERTISE_AFP".toList, "TC_ANY_PROTOCOL".toList,
  "TC_REQUIRE_SMB_ENCRYPTION".toList, "TC_FORCE_DISABLE_SMB_SIGNING_AND_ENCRYPTION".toList,
  "TC_FRUIT_METADATA_NETATALK".toList, "TC_VFS_AIO_FORK_ENABLED".toList, "TC_DEBUG_LOGGING".toList,
  "TC_ATA_IDLE_SECONDS".toList, "TC_ATA_STANDBY".toList, "TC_CONFIGURE_ID".toList]

/-- `ENV_FILE_OMIT_KEYS`: names derived at run time that older files may still have. -/
def envFileOmitKeys : List Text := [
  "TC_AIRPORT_SYAP".toList, "TC_MDNS_DEVICE_MODEL".toList, "TC_MDNS_HOST_LABEL".toList,
  "TC_MDNS_INSTANCE_NAME".toList, "TC_NETBIOS_NAME".toList, "TC_SHARE_NAME".toList,
  "TC_NET_IFACE".toList, "NET_IPV4_HINT".toList, "TC_SAMBA_USER".toList,
  "TC_PAYLOAD_DIR_NAME".toList]

/-- `CONFIG_HEADER` -/
def configHeader : Text :=
  "# Local user/device configuration for TimeCapsuleSMB.\n# Generated by tcapsule configure\n".toList

/-! ## Parsing -/

def isQuote (c : Char) : Bool := c == '\'' || c == '"'

/-- `parse_env_value` -/
def parseEnvValue (rawValue : Text) : Text :=
  let value := stripText rawValue
  if value = [] then []
  else
    match shlexSplit value with
    | .ok [token] => token
    -- Several tokens stay together, for the transport to split them.
    | .ok _ => value
    | .error _ => (value.dropWhile isQuote).rdropWhile isQuote

/-- One line of `parse_env_file`. -/
def parseEnvLine (values : EnvValues) (rawLine : Text) : EnvValues :=
  let line := stripText rawLine
  if line = [] ∨ line.head? = some '#' ∨ line.contains '=' = false then values
  else
    let key := line.takeWhile (· != '=')
    let value := (line.dropWhile (· != '=')).drop 1
    values.insert (stripText key) (parseEnvValue value)

/-- `parse_env_file`, with the text of the file if there is one. -/
def parseEnvFile : Option Text → EnvValues
  | none => ∅
  | some text => (splitlines (universalNewlines text)).foldl parseEnvLine ∅

/-! ## Rendering -/

/-- `shell_quote` -/
def shellQuote (value : Text) : Text := shlexQuote value

def assignment (key value : Text) : Text := key ++ '=' :: shellQuote value

/-- `values.get(key, DEFAULTS.get(key, ""))` -/
def renderedValue (values : EnvValues) (key : Text) : Text :=
  (values.lookup key).getD ((defaults.lookup key).getD [])

/-- The order of `sorted`, by code points. -/
def keyLe (a b : Text) : Bool := !List.lex b a fun c d => decide (c.toNat < d.toNat)

/-- The settings that are written although the program does not know them. -/
def extraKeys (values : EnvValues) : List Text :=
  (values.keys.filter fun key => !envFileKeys.contains key && !envFileOmitKeys.contains key).insertionSort
    fun a b => keyLe a b = true

/-- `render_env_text` -/
def renderEnvText (values : EnvValues) : Text :=
  let lines := [configHeader.rdropWhile isPySpace, []] ++
    envFileKeys.map fun key => assignment key (renderedValue values key)
  let extra := extraKeys values
  let preserved :=
    if extra = [] then []
    else [[], "# Preserved custom settings".toList] ++
      extra.map fun key => assignment key ((values.lookup key).getD [])
  List.intercalate ['\n'] (lines ++ preserved ++ [[]])

/-- The value that a key is written with, if it is. -/
def written (values : EnvValues) (key : Text) : Option Text :=
  if envFileKeys.contains key then some (renderedValue values key)
  else if envFileOmitKeys.contains key then none
  else values.lookup key

end TimeCapsule.Config
