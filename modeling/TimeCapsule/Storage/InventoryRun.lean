import TimeCapsule.Storage.VolumeRun

/-!
# The inventory of a text

The other line parser over the same lines: every volume of a disk is one of the partitions it records.
-/

namespace TimeCapsule.Storage

open Lib
open Net (Text stripText)

variable {env : Env} {key v : Text} {depth : Nat}

namespace InventoryState

variable {s : InventoryState}

/-! ## Fields -/

end InventoryState

/-! ## Partitions -/

/-- What a disk has read when its partitions begin, or end. -/
def InventoryState.within (disks : List MaStDiskSnapshot) (partitions : List MaStPartitionSnapshot)
    (device name : Text) (size : Option Plist) (builtin inPartitions : Bool) : InventoryState :=
  ⟨disks, partitions, device, name, size, builtin, inPartitions, [], [], []⟩

namespace InventoryState

variable {disks : List MaStDiskSnapshot} {partitions : List MaStPartitionSnapshot} {device name : Text}
  {size : Option Plist} {builtin : Bool}

end InventoryState

theorem Appears.mono {v : MaStVolume} {disks : List MaStDiskSnapshot} (h : Appears v disks)
    (more : List MaStDiskSnapshot) : Appears v (disks ++ more) := by
  obtain ⟨d, hd, hrest⟩ := h
  exact ⟨d, List.mem_append_left _ hd, hrest⟩

namespace InventoryState

end InventoryState

end TimeCapsule.Storage
