import TimeCapsule.Net.Endpoint

/-!
# The disks of a device

The `MaSt` property lists the disks with their partitions.  It is read as a property list, or as the
OpenStep text that `acp` prints; the volumes of it are the HFS partitions that can be installed on.
-/

namespace TimeCapsule.Storage

open Lib
open Net (Text stripText)

structure MaStVolume where
  diskDevice : Text
  partitionDevice : Text
  volumeRoot : Text
  name : Text
  adiskUuid : Text
  builtin : Bool
  format : Text
deriving DecidableEq, Repr

structure MaStPartitionSnapshot where
  device : Text
  name : Text
  format : Text
deriving DecidableEq, Repr

/-- The objects of a property list. -/
inductive Plist where
  | string (t : Text)
  | data (bytes : Bytes)
  | boolean (b : Bool)
  | integer (n : Int)
  | array (items : List Plist)
  | dict (entries : List (Text × Plist))

structure MaStDiskSnapshot where
  device : Text
  name : Text
  size : Option Plist
  builtin : Bool
  partitions : List MaStPartitionSnapshot

/-- The library functions: `str` of objects that are no strings, `str.lower` beyond ASCII, and
`plistlib.loads`, with `none` for `InvalidFileException`. -/
structure Env where
  unicode : UnicodeData
  str : Plist → Text
  lowerUnicode : Text → Text
  loads : Text → Except Text (Option Plist)

/-! ## Values -/

def Plist.truthy : Plist → Bool
  | .string t => !t.isEmpty
  | .data bytes => !bytes.isEmpty
  | .boolean b => b
  | .integer n => n != 0
  | .array items => !items.isEmpty
  | .dict entries => !entries.isEmpty

/-- `a or b`, where `None` is the missing object. -/
def orElse (a b : Option Plist) : Option Plist :=
  match a with
  | some v => if v.truthy then a else b
  | none => b

def asciiLowerChar (c : Char) : Char := if 'A' ≤ c ∧ c ≤ 'Z' then Char.ofNat (c.toNat + 32) else c

/-- `uuid.UUID(int=n)` as a string. -/
def formatUuid (n : Nat) : Text :=
  let digits := hexPadded 32 n
  slice digits 0 8 ++ '-' :: slice digits 8 12 ++ '-' :: slice digits 12 16 ++ '-' :: slice digits 16 20 ++
    '-' :: slice digits 20 32

def isHexChar (c : Char) : Bool :=
  ('0' ≤ c && c ≤ '9') || ('A' ≤ c && c ≤ 'F') || ('a' ≤ c && c ≤ 'f')

/-- The group of `^<?\s*([0-9A-Fa-f][0-9A-Fa-f\s-]*)`. -/
def leadingHex (t : Text) : Option Text :=
  let t := (if t.head? = some '<' then t.tail else t).dropWhile isPySpace
  match t with
  | [] => none
  | c :: _ =>
      if isHexChar c then some (t.takeWhile fun c => isHexChar c || isPySpace c || c == '-') else none

namespace Env

variable (env : Env)

/-- `text.lower()` -/
def lower (t : Text) : Text :=
  if t.all fun c => decide (c.toNat < 128) then t.map asciiLowerChar else env.lowerUnicode t

/-- `str(value or "")` -/
def text (value : Option Plist) : Text :=
  match value with
  | none => []
  | some (.string t) => t
  | some v => if v.truthy then env.str v else []

/-- `int(text, 16)` without a minus sign. -/
def intBase16 (t : Text) : Option Nat :=
  let t := stripText t
  let t := if t.head? = some '+' then t.tail else t
  match t with
  | zero :: x :: rest =>
      if digitOf env.unicode zero = some 0 ∧ (x = 'x' ∨ x = 'X') then
        digitsOf env.unicode 16 (if rest.head? = some '_' then rest.tail else rest)
      else digitsOf env.unicode 16 t
  | t => digitsOf env.unicode 16 t

/-- The part of `_uuid_from_value` from the split at the bar on.  Of 32 characters `uuid.UUID(hex=text)`
takes those that `int(text, 16)` does. -/
def uuidOfText (t : Text) : Text :=
  let t := stripText (t.takeWhile (· != '|'))
  let t := (leadingHex t).getD t
  let t := t.filter fun c => !(c == '<' || c == '>' || c == ' ' || c == '-')
  if t.length ≠ 32 then []
  else ((env.intBase16 t).map formatUuid).getD []

/-- `_uuid_from_value` -/
def uuidFromValue (value : Option Plist) : Text :=
  match value with
  | some (.data bytes) =>
      if bytes.length = 16 then formatUuid (ofBe bytes) else env.uuidOfText (hexOfBytes bytes).toList
  | value => env.uuidOfText (stripText (env.text value))

/-! ## Property lists -/

end Env

def volumeRootOf (device : Text) : Text := "/Volumes/".toList ++ device

namespace Env

variable (env : Env)

end Env

end TimeCapsule.Storage
