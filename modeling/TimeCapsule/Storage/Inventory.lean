import TimeCapsule.Storage.OpenStep

/-!
# Two forms of an inventory

An inventory with any of its fields missing, as a property list and as OpenStep text.  The condition under
which both give the same volumes leaves out what the line parsers lose: values with a line boundary in them,
partitions and disks without a device, and volumes without a name.
-/

namespace TimeCapsule.Storage

open Lib
open Net (Text stripText)

inductive UuidValue where
  | data (bytes : Bytes)
  | text (t : Text)

structure Partition where
  deviceName : Option Text
  name : Option Text
  format : Option Text
  uuid : Option UuidValue

structure Disk where
  deviceName : Option Text
  name : Option Text
  model : Option Text
  size : Option Nat
  capacity : Option Nat
  totalSize : Option Nat
  builtin : Option Bool
  partitions : Option (List Partition)

abbrev Inventory := List Disk

/-! ## The property list -/

def entry (key : Text) (value : Option Plist) : List (Text × Plist) :=
  (value.map fun v => (key, v)).toList

def UuidValue.toPlist : UuidValue → Plist
  | .data bytes => .data bytes
  | .text t => .string t

def Partition.entries (p : Partition) : List (Text × Plist) :=
  entry "deviceName".toList (p.deviceName.map .string) ++ entry "name".toList (p.name.map .string) ++
    entry "format".toList (p.format.map .string) ++ entry "uuid".toList (p.uuid.map UuidValue.toPlist)

def sizePlist (n : Nat) : Plist := .integer n

def Disk.entries (d : Disk) : List (Text × Plist) :=
  entry "deviceName".toList (d.deviceName.map .string) ++ entry "name".toList (d.name.map .string) ++
    entry "model".toList (d.model.map .string) ++ entry "size".toList (d.size.map sizePlist) ++
    entry "capacity".toList (d.capacity.map sizePlist) ++
    entry "totalSize".toList (d.totalSize.map sizePlist) ++
    entry "builtin".toList (d.builtin.map .boolean) ++
    entry "partitions".toList (d.partitions.map fun ps => .array (ps.map fun p => .dict p.entries))

def Inventory.toPlist (inventory : Inventory) : Plist :=
  .array (inventory.map fun d => .dict d.entries)

/-! ## The text -/

/-- A string in quotes. -/
def quoted (t : Text) : Text :=
  '"' :: t.flatMap (fun c => if c = '\\' ∨ c = '"' then ['\\', c] else [c]) ++ ['"']

def hexText (bytes : Bytes) : Text := (hexOfBytes bytes).toList

/-- Hexadecimal digits in groups of four bytes. -/
def hexGroups : Bytes → Text
  | a :: b :: c :: d :: e :: bytes => hexText [a, b, c, d] ++ ' ' :: hexGroups (e :: bytes)
  | bytes => hexText bytes

def dataText (bytes : Bytes) : Text := '<' :: hexGroups bytes ++ ['>']

def UuidValue.render : UuidValue → Text
  | .data bytes => dataText bytes
  | .text t => quoted t

def boolText (b : Bool) : Text := if b then "true".toList else "false".toList

def indented (depth : Nat) (line : Text) : Text := List.replicate (4 * depth) ' ' ++ line

/-- `key = value;` -/
def assignmentLine (key value : Text) : Text := key ++ ' ' :: '=' :: ' ' :: (value ++ [';'])

def fieldLines (depth : Nat) (key : Text) (value : Option Text) : List Text :=
  (value.map fun v => indented depth (assignmentLine key v)).toList

/-- A closing bracket, with a comma before what follows. -/
def closing (bracket : Char) (more : Bool) : Text := if more then [bracket, ','] else [bracket]

def Partition.fields (p : Partition) : List Text :=
  fieldLines 4 "deviceName".toList (p.deviceName.map quoted) ++
    fieldLines 4 "name".toList (p.name.map quoted) ++
    fieldLines 4 "format".toList (p.format.map quoted) ++
    fieldLines 4 "uuid".toList (p.uuid.map UuidValue.render)

def partitionLines : List Partition → List Text
  | [] => []
  | p :: ps =>
      indented 3 ['\x7b'] :: p.fields ++ indented 3 (closing '\x7d' (!ps.isEmpty)) :: partitionLines ps

def Disk.scalars (d : Disk) : List Text :=
  fieldLines 2 "deviceName".toList (d.deviceName.map quoted) ++
    fieldLines 2 "name".toList (d.name.map quoted) ++
    fieldLines 2 "model".toList (d.model.map quoted) ++
    fieldLines 2 "size".toList (d.size.map (Nat.toDigits 10)) ++
    fieldLines 2 "capacity".toList (d.capacity.map (Nat.toDigits 10)) ++
    fieldLines 2 "totalSize".toList (d.totalSize.map (Nat.toDigits 10)) ++
    fieldLines 2 "builtin".toList (d.builtin.map boolText)

/-- The lines of the list of partitions. -/
def Disk.tableLines (d : Disk) : List Text :=
  match d.partitions with
  | none => []
  | some ps =>
      indented 2 "partitions = (".toList :: partitionLines ps ++ [indented 2 [')', ';']]

def diskLines : Inventory → List Text
  | [] => []
  | d :: ds =>
      indented 1 ['\x7b'] :: (d.scalars ++ d.tableLines) ++
        indented 1 (closing '\x7d' (!ds.isEmpty)) :: diskLines ds

/-- The text as `acp` prints it. -/
def Inventory.openStepText (inventory : Inventory) : Text :=
  "MaSt = (\n".toList ++ (diskLines inventory).flatMap (· ++ ['\n']) ++ [')', ';', '\n']

/-! ## The condition -/

namespace Env

variable (env : Env)

def uuidOf (p : Partition) : Text := env.uuidFromValue (p.uuid.map UuidValue.toPlist)

/-- The partition is one that can be installed on, whatever its name. -/
def usable (p : Partition) : Bool :=
  "dk".toList.isPrefixOf (p.deviceName.getD []) && env.lower (p.format.getD []) == "hfs".toList &&
    !(env.uuidOf p).isEmpty

end Env

/-- A value in which no line ends. -/
def OneLine (t : Option Text) : Prop := ∀ c ∈ t.getD [], isLineBoundary c = false

def UuidValue.string : UuidValue → Option Text
  | .data _ => none
  | .text t => some t

structure Partition.Clear (env : Env) (p : Partition) : Prop where
  deviceName_line : OneLine p.deviceName
  name_line : OneLine p.name
  format_line : OneLine p.format
  uuid_line : OneLine (p.uuid.bind UuidValue.string)
  /-- The partition has a device. -/
  device : p.deviceName.getD [] ≠ []
  /-- A volume has a name. -/
  named : env.usable p = true → p.name.getD [] ≠ []

structure Disk.Clear (env : Env) (d : Disk) : Prop where
  deviceName_line : OneLine d.deviceName
  name_line : OneLine d.name
  model_line : OneLine d.model
  partitions : ∀ p ∈ d.partitions.getD [], p.Clear env
  /-- A disk without a device has nothing that the next disk could take over. -/
  device : d.deviceName.getD [] = [] →
    d.builtin ≠ some true ∧ ∀ p ∈ d.partitions.getD [], env.usable p = false

/-- No disk reaches what the line parsers lose, and the text does not look like XML. -/
structure Inventory.Clear (env : Env) (inventory : Inventory) : Prop where
  disks : ∀ d ∈ inventory, d.Clear env
  notXml : Env.xmlStart (stripText inventory.openStepText) = none

/-- A volume in an inventory. -/
def Appears (v : MaStVolume) (disks : List MaStDiskSnapshot) : Prop :=
  ∃ d ∈ disks, d.device = v.diskDevice ∧ d.builtin = v.builtin ∧
    ∃ p ∈ d.partitions, p.device = v.partitionDevice ∧ p.name = v.name ∧ p.format = v.format

end TimeCapsule.Storage
