import TimeCapsule.Lib.SplitLines
import TimeCapsule.Storage.MaSt

/-!
# The OpenStep text of the disks

Two parsers read the text line by line, one for the volumes and one for the inventory.  What a line means
depends on what has been set so far: whether the partitions are open, and whether the disk or the partition
has a device already.
-/

namespace TimeCapsule.Storage

open Lib
open Net (Text stripText)

/-! ## Lines -/

/-- What stands behind `key =` at the start of a line. -/
def afterKey (key line : Text) : Option Text :=
  if key.isPrefixOf line then
    match (line.drop key.length).dropWhile isPySpace with
    | c :: rest => if c = '=' then some rest else none
    | [] => none
  else none

/-- `\s*;?\s*,?$` -/
def isTail (t : Text) : Bool :=
  let t := t.dropWhile isPySpace
  let t := (if t.head? = some ';' then t.tail else t).dropWhile isPySpace
  t = [] || t = [',']

/-- The shortest text with at least one character before a tail. -/
def beforeTail : Text → Text
  | [] => []
  | c :: t => if isTail t then [c] else c :: beforeTail t

/-- `text.replace(ab, c)` for two characters `ab` -/
def replacePair (a b c : Char) : Text → Text
  | d :: e :: t => if d = a ∧ e = b then c :: replacePair a b c t else d :: replacePair a b c (e :: t)
  | t => t

/-- `_openstep_assignment_value` -/
def openstepAssignmentValue (line key : Text) : Option Text :=
  match afterKey key line with
  | none => none
  | some rest =>
      let rest := rest.dropWhile isPySpace
      if rest = [] then none
      else
        let value := stripText (beforeTail rest)
        let value := stripText ((value.rdropWhile (· == ',')).rdropWhile (· == ';'))
        if 2 ≤ value.length ∧ value.head? = some '"' ∧ value.getLast? = some '"' then
          some (replacePair '\\' '\\' '\\' (replacePair '\\' '"' '"' (value.drop 1).dropLast))
        else some value

/-- `re.match(r"^partitions\s*=", line)` -/
def opensPartitions (line : Text) : Bool := (afterKey "partitions".toList line).isSome

/-- A bracket with at most a semicolon or a comma behind it. -/
def closesWith (bracket : Char → Bool) : Text → Bool
  | [] => false
  | c :: t =>
      let t := t.dropWhile isPySpace
      bracket c && (t = [] || t = [';'] || t = [','])

/-- `_openstep_object_close` -/
def openstepObjectClose (line : Text) : Bool := closesWith (· == '}') line

/-- `_openstep_collection_close` -/
def openstepCollectionClose (line : Text) : Bool := closesWith (fun c => c == ')' || c == ']') line

namespace Env

variable (env : Env)

/-- `_openstep_bool_assignment` -/
def openstepBoolAssignment (line key : Text) : Option Bool :=
  match openstepAssignmentValue line key with
  | none => none
  | some value =>
      let lowered := env.lower value
      if lowered = "true".toList ∨ lowered = "yes".toList ∨ lowered = "1".toList then some true
      else if lowered = "false".toList ∨ lowered = "no".toList ∨ lowered = "0".toList then some false
      else none

end Env

/-! ## Volumes -/

/-- The variables of `_parse_mast_openstep`; a pending partition has its device, name, UUID and format. -/
structure VolumeState where
  volumes : List MaStVolume
  pendingPartitions : List (Text × Text × Text × Text)
  diskDevice : Text
  diskBuiltin : Bool
  inPartitions : Bool
  partDevice : Text
  partName : Text
  partFormat : Text
  partUuid : Text

namespace VolumeState

def initial : VolumeState := ⟨[], [], [], false, false, [], [], [], []⟩

/-- `flush_disk` -/
def flushDisk (s : VolumeState) : VolumeState :=
  if s.diskDevice = [] then { s with pendingPartitions := [] }
  else
    let volumes := s.pendingPartitions.map fun p => {
      diskDevice := s.diskDevice
      partitionDevice := p.1
      volumeRoot := volumeRootOf p.1
      name := p.2.1
      adiskUuid := p.2.2.1
      builtin := s.diskBuiltin
      format := p.2.2.2 }
    { s with volumes := s.volumes ++ volumes, pendingPartitions := [] }

variable (env : Env)

/-- `emit_pending_partition` -/
def emitPendingPartition (s : VolumeState) : VolumeState :=
  let fmt := env.lower s.partFormat
  let adiskUuid := env.uuidFromValue (some (.string s.partUuid))
  let pending :=
    if "dk".toList.isPrefixOf s.partDevice = true ∧ fmt = "hfs".toList ∧ s.partName ≠ [] ∧
        adiskUuid ≠ [] then
      s.pendingPartitions ++ [(s.partDevice, s.partName, adiskUuid, fmt)]
    else s.pendingPartitions
  { s with
    pendingPartitions := pending, partDevice := [], partName := [], partFormat := [], partUuid := [] }

/-- The part of the loop behind the line of a device. -/
def stepField (s : VolumeState) (line : Text) : VolumeState :=
  match env.openstepBoolAssignment line "builtin".toList, s.inPartitions with
  | some builtin, false => { s with diskBuiltin := builtin }
  | _, false => s
  | _, true =>
      match openstepAssignmentValue line "name".toList with
      | some name => { s with partName := name }
      | none =>
          match openstepAssignmentValue line "format".toList with
          | some fmt => { s with partFormat := fmt }
          | none =>
              match openstepAssignmentValue line "uuid".toList with
              | some rawUuid => { s with partUuid := rawUuid }
              | none => s

/-- One line of `_parse_mast_openstep`. -/
def step (s : VolumeState) (rawLine : Text) : VolumeState :=
  let line := stripText rawLine
  if line = [] ∨ line = ['('] then s
  else if opensPartitions line then { s with inPartitions := true }
  else if openstepCollectionClose line then { s with inPartitions := false }
  else if openstepObjectClose line then
    if s.inPartitions = true ∧ s.partDevice ≠ [] then s.emitPendingPartition env
    else if s.diskDevice ≠ [] then { s.flushDisk with diskDevice := [], diskBuiltin := false }
    else s
  else
    match openstepAssignmentValue line "deviceName".toList with
    | some deviceName =>
        if s.inPartitions then { s with partDevice := deviceName }
        else
          let s := if s.diskDevice ≠ [] then { s.flushDisk with diskBuiltin := false } else s
          { s with diskDevice := deviceName }
    | none => s.stepField env line

def finish (s : VolumeState) : List MaStVolume :=
  let s := if s.partDevice ≠ [] then s.emitPendingPartition env else s
  let s := if s.diskDevice ≠ [] then s.flushDisk else s
  s.volumes

end VolumeState

/-! ## The inventory -/

/-- The variables of `_parse_mast_openstep_inventory`. -/
structure InventoryState where
  disks : List MaStDiskSnapshot
  partitions : List MaStPartitionSnapshot
  diskDevice : Text
  diskName : Text
  diskSize : Option Plist
  diskBuiltin : Bool
  inPartitions : Bool
  partDevice : Text
  partName : Text
  partFormat : Text

namespace InventoryState

def initial : InventoryState := ⟨[], [], [], [], none, false, false, [], [], []⟩

/-- `part_device or part_name or part_format` -/
def hasPart (s : InventoryState) : Bool :=
  !s.partDevice.isEmpty || !s.partName.isEmpty || !s.partFormat.isEmpty

/-- `flush_disk` -/
def flushDisk (s : InventoryState) : InventoryState :=
  let disks :=
    if s.diskDevice ≠ [] ∨ s.diskName ≠ [] ∨ s.partitions.isEmpty = false then
      s.disks ++ [⟨s.diskDevice, s.diskName, s.diskSize, s.diskBuiltin, s.partitions⟩]
    else s.disks
  { s with
    disks := disks, partitions := [], diskDevice := [], diskName := [], diskSize := none,
    diskBuiltin := false }

variable (env : Env)

/-- `emit_partition` -/
def emitPartition (s : InventoryState) : InventoryState :=
  let partitions :=
    if s.hasPart then s.partitions ++ [⟨s.partDevice, s.partName, env.lower s.partFormat⟩]
    else s.partitions
  { s with partitions := partitions, partDevice := [], partName := [], partFormat := [] }

/-- The size, under one of its three keys. -/
def sizeValue (line : Text) : Option Text :=
  (openstepAssignmentValue line "size".toList).or
    ((openstepAssignmentValue line "capacity".toList).or
      (openstepAssignmentValue line "totalSize".toList))

/-- The part of the loop behind the line of a format. -/
def stepDisk (s : InventoryState) (line : Text) : InventoryState :=
  if s.inPartitions then s
  else
    match sizeValue line with
    | some size => { s with diskSize := some (.string size) }
    | none =>
        match env.openstepBoolAssignment line "builtin".toList with
        | some builtin => { s with diskBuiltin := builtin }
        | none => s

/-- The part of the loop behind the line of a device. -/
def stepField (s : InventoryState) (line : Text) : InventoryState :=
  match openstepAssignmentValue line "name".toList with
  | some name => if s.inPartitions then { s with partName := name } else { s with diskName := name }
  | none =>
      match openstepAssignmentValue line "model".toList, s.inPartitions with
      | some model, false => { s with diskName := if s.diskName = [] then model else s.diskName }
      | _, inPartitions =>
          match openstepAssignmentValue line "format".toList, inPartitions with
          | some fmt, true => { s with partFormat := fmt }
          | _, _ => s.stepDisk env line

/-- One line of `_parse_mast_openstep_inventory`. -/
def step (s : InventoryState) (rawLine : Text) : InventoryState :=
  let line := stripText rawLine
  if line = [] ∨ line = ['('] then s
  else if opensPartitions line then { s with inPartitions := true }
  else if openstepCollectionClose line then
    { (if s.hasPart then s.emitPartition env else s) with inPartitions := false }
  else if openstepObjectClose line then
    if s.inPartitions && s.hasPart then s.emitPartition env
    else if s.inPartitions then s
    else s.flushDisk
  else
    match openstepAssignmentValue line "deviceName".toList with
    | some deviceName =>
        if s.inPartitions then { s with partDevice := deviceName }
        else { (if s.diskDevice ≠ [] then s.flushDisk else s) with diskDevice := deviceName }
    | none => s.stepField env line

def finish (s : InventoryState) : List MaStDiskSnapshot :=
  let s := if s.hasPart then s.emitPartition env else s
  let s := if s.diskDevice ≠ [] ∨ s.diskName ≠ [] ∨ s.partitions.isEmpty = false then s.flushDisk else s
  s.disks

end InventoryState

namespace Env

variable (env : Env)

/-- The text from the first `<?xml` on. -/
def xmlStart : Text → Option Text
  | [] => none
  | c :: t => if "<?xml".toList.isPrefixOf (c :: t) then some (c :: t) else xmlStart t

end Env

end TimeCapsule.Storage
