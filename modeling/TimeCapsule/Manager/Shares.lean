import TimeCapsule.Lib.Shell

/-!
# Share rows

The rows of a disk topology as the manager reads them, the share names it makes of them, and the
rows it publishes: one for Samba and one for the advertiser's disk list.
-/

namespace TimeCapsule.Manager

open Lib

/-- The settings that stay the same while the manager runs. -/
structure Config where
  /-- `TC_BOOT_XATTR_MIGRATION` is `1`. -/
  bootXattrMigration : Bool
  /-- `INTERNAL_SHARE_USE_DISK_ROOT` is `1`. -/
  internalShareUseDiskRoot : Bool
  /-- `MDNS_ADVERTISE_AFP` is `1`. -/
  mdnsAdvertiseAfp : Bool
deriving DecidableEq, Repr

/-- `TC_ADISK_DISK_ADVF` -/
def Config.adiskDiskAdvf (cfg : Config) : Bytes :=
  ascii (if cfg.mdnsAdvertiseAfp then "0x83" else "0x82")

/-! ## Rows of a topology -/

structure Row where
  diskDevice : Bytes
  builtin : Bytes
  partDevice : Bytes
  volumeRoot : Bytes
  partName : Bytes
  partUuid : Bytes
deriving DecidableEq, Repr

/-- The six variables of the loops that read a topology. -/
def Row.ofLine (line : Bytes) : Row :=
  let disk := readField line
  let builtin := readField disk.2
  let part := readField builtin.2
  let root := readField part.2
  let name := readField root.2
  ⟨disk.1, builtin.1, part.1, root.1, name.1, readRest name.2⟩

/-- The rows a loop goes through: a line without a partition device is passed over. -/
def rowsOf (topology : Bytes) : List Row :=
  ((hereLines topology).map Row.ofLine).filter fun row => !row.partDevice.isEmpty

/-- `tc_manager_count_rows` -/
def countRows (text : Bytes) : Nat := ((hereLines text).filter fun line => !line.isEmpty).length

def devicePath (partDevice : Bytes) : Bytes := ascii "/dev/" ++ partDevice

/-! ## Share names -/

def underscore : UInt8 := 95

def space : UInt8 := 32

/-- The characters a share name must not have: the control characters and `/\:*?"<>|,=][`. -/
def isUnsafe (b : UInt8) : Bool :=
  b < 0x20 || b == 0x7f || (ascii "/\\:*?\"<>|,=][").contains b

/-- `tc_sanitize_share_name`, for a name that is a part of one line. -/
def sanitizeShareName (partName device : Bytes) : Bytes :=
  let sanitized :=
    ((partName.map fun b => if isUnsafe b then underscore else b).dropWhile (· == space)).rdropWhile
      (· == space)
  echo (if sanitized = [] then ascii "Disk " ++ device else sanitized)

/-- `tc_truncate_to_bytes` -/
def truncateToBytes (value : Bytes) (max : Nat) : Bytes :=
  if value.length ≤ max then echo value else value.take max

def adiskTxtMaxBytes : Nat := 255
def adiskTxtAdvfPrefixBytes : Nat := 6
def adiskTxtAdvnMidBytes : Nat := 6
def adiskTxtAdvuPrefixBytes : Nat := 6

/-- `tc_adisk_share_name_budget`: what the other parts of the disk's text leave to the name, and one
byte at least. -/
def adiskShareNameBudget (diskKey adiskUuid adiskDiskAdvf : Bytes) : Nat :=
  max 1 (adiskTxtMaxBytes - (diskKey.length + adiskTxtAdvfPrefixBytes + adiskDiskAdvf.length +
    adiskTxtAdvnMidBytes + adiskTxtAdvuPrefixBytes + adiskUuid.length))

/-- `tc_bound_share_name` -/
def boundShareName (base : Bytes) (max : Nat) : Bytes :=
  let value := truncateToBytes base max
  echo (if value = [] then truncateToBytes (ascii "Disk") max else value)

/-- `tc_share_name_with_suffix` -/
def shareNameWithSuffix (base suffix : Bytes) (max : Nat) : Bytes :=
  if max ≤ suffix.length then boundShareName suffix max
  else echo (boundShareName base (max - suffix.length) ++ suffix)

/-- `tc_manager_share_name_exists`; the used names are the lines of a text. -/
def shareNameExists (used name : Bytes) : Bool := (hereLines used).contains name

/-- `tc_manager_record_share_name` -/
def recordShareName (used name : Bytes) : Bytes :=
  if used = [] then name else used ++ [newline] ++ name

/-- The name that is tried after `number` names with a suffix and a number. -/
def numberedShareName (base device : Bytes) (max number : Nat) : Bytes :=
  shareNameWithSuffix base (ascii " (" ++ device ++ ascii "-" ++ decimal number ++ ascii ")") max

/-- The loop over the numbers from `suffix` on, for `fuel` rounds. -/
def freeShareName (used base device : Bytes) (max : Nat) : (fuel suffix : Nat) → Option Bytes
  | 0, _ => none
  | fuel + 1, suffix =>
      let candidate := numberedShareName base device max suffix
      if shareNameExists used candidate then freeShareName used base device max fuel (suffix + 1)
      else some candidate

/-- `tc_manager_set_unique_share_name`.  There is no result when the loop never ends: the names
with a number repeat themselves from the number `10 ^ max` on. -/
def uniqueShareName (used base device : Bytes) (max : Nat) : Option Bytes :=
  let bounded := boundShareName base max
  let candidate :=
    if shareNameExists used bounded then
      shareNameWithSuffix base (ascii " (" ++ device ++ ascii ")") max
    else bounded
  if shareNameExists used candidate then freeShareName used base device max (10 ^ max) 1
  else some candidate

/-! ## Published rows -/

/-- A row of `manager_share_rows`. -/
structure ShareRow where
  shareName : Bytes
  sharePath : Bytes
  partDevice : Bytes
  builtin : Bytes
  partUuid : Bytes
deriving DecidableEq, Repr

/-- A row of `manager_adisk_rows`. -/
structure AdiskRow where
  shareName : Bytes
  partDevice : Bytes
  partUuid : Bytes
  adiskDiskAdvf : Bytes
deriving DecidableEq, Repr

/-- The line of an adisk row, without its newline. -/
def AdiskRow.text (row : AdiskRow) : Bytes :=
  [tab].intercalate [row.shareName, row.partDevice, row.partUuid, row.adiskDiskAdvf]

/-- `tc_share_path_for_volume` -/
def sharePathForVolume (cfg : Config) (builtin volumeRoot : Bytes) : Bytes :=
  echo (if builtin = ascii "1" ∧ cfg.internalShareUseDiskRoot = false then
    volumeRoot ++ ascii "/ShareRoot" else volumeRoot)

/-- The share and the disk published for a row under a name. -/
def shareRow (cfg : Config) (row : Row) (name : Bytes) : ShareRow :=
  ⟨name, sharePathForVolume cfg row.builtin row.volumeRoot, row.partDevice, row.builtin,
    row.partUuid⟩

def adiskRow (cfg : Config) (row : Row) (name : Bytes) : AdiskRow :=
  ⟨name, row.partDevice, row.partUuid, cfg.adiskDiskAdvf⟩

/-- The name for a row, when the names in `used` are taken. -/
def shareNameFor (cfg : Config) (used : Bytes) (row : Row) : Option Bytes :=
  uniqueShareName used (sanitizeShareName row.partName row.partDevice) row.partDevice
    (adiskShareNameBudget row.partDevice row.partUuid cfg.adiskDiskAdvf)

/-- How the building of the shares ends. -/
inductive Built where
  /-- The search for a free name goes on for ever. -/
  | stuck
  /-- A share path could not be prepared. -/
  | failed
  | rows (shares : List ShareRow) (adisks : List AdiskRow)
deriving DecidableEq, Repr

/-- The loop of `tc_manager_build_share_state_from_topology` over the rows, with their numbers, that
are mounted and writable; `prepared` tells whether the share path of a row could be made ready. -/
def appendShares (cfg : Config) (prepared : Nat → Bool) :
    List (Row × Nat) → (used : Bytes) → List ShareRow → List AdiskRow → Built
  | [], _, shares, adisks => .rows shares adisks
  | (row, i) :: rest, used, shares, adisks =>
      if prepared i then
        match shareNameFor cfg used row with
        | none => .stuck
        | some name =>
            appendShares cfg prepared rest (recordShareName used name)
              (shares ++ [shareRow cfg row name]) (adisks ++ [adiskRow cfg row name])
      else .failed

end TimeCapsule.Manager
