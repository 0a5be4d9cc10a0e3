import TimeCapsule.Storage.InventoryRun

/-!
# Both forms give the same volumes

An inventory whose fields the line parsers do not lose has the same volumes from its text as from its
property list, and all of them are in the inventory of the text.
-/

namespace TimeCapsule.Storage

open Lib
open Net (Text stripText)

variable {env : Env} {inventory : Inventory}

/-! ## One line for each -/

example : splitlines (indented 4 "name".toList) = [indented 4 "name".toList] := by decide +kernel

/-- The text that the line parsers read. -/
def Inventory.body (inventory : Inventory) : Text :=
  ['(', '\n'] ++ (diskLines inventory).flatMap (· ++ ['\n']) ++ [')', ';']

end TimeCapsule.Storage
