import TimeCapsule.Storage.Lines

/-!
# The volumes of a text

The line parser over the lines of a field, of a partition, of a disk and of the inventory.
-/

namespace TimeCapsule.Storage

open Lib
open Net (Text stripText)

variable {env : Env} {key v line : Text} {depth : Nat}

/-! ## Lines of both parsers -/

namespace VolumeState

variable {s : VolumeState}

end VolumeState

/-! ## Partitions -/

/-- What a disk has read when its partitions begin, or end. -/
def VolumeState.within (volumes : List MaStVolume) (pending : List (Text × Text × Text × Text))
    (device : Text) (builtin inPartitions : Bool) : VolumeState :=
  ⟨volumes, pending, device, builtin, inPartitions, [], [], [], []⟩

namespace VolumeState

variable {volumes : List MaStVolume} {pending : List (Text × Text × Text × Text)} {device : Text}
  {builtin : Bool}

end VolumeState

namespace VolumeState

end VolumeState

end TimeCapsule.Storage
