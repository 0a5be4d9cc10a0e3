import TimeCapsule.Lib.Upsert
import TimeCapsule.Migrate.Xattr

/-!
# Lists of attributes in buffers

The list of the attributes of a file is a run of names, each with its terminating zero.  The kernel's
list is compacted in the buffer that it was read into, and the list for the file server is written in a
second pass over it, after a first pass for its size.
-/

namespace TimeCapsule.Xattr

open Lib Migrate

inductive Errno where
  | eio
  | enomem
  | erange
  | other (n : Nat)
deriving DecidableEq, Repr

/-- What a call returns, and the caller's buffer behind it, unless the pointer is null. -/
structure ListResult where
  ret : Except Errno Nat
  list : Option Bytes

/-- What the system answers during one listing: the size, the bytes for a buffer of some size, and
whether there is memory for them. -/
structure NativeCalls where
  size : Except Errno Nat
  read : Nat → Except Errno Bytes
  malloc : Bool

/-! ## The kernel's list -/

/-- `strnlen`, and `strlen` of what has an end. -/
def strnlen (data : Bytes) (n : Nat) : Nat := ((data.take n).takeWhile (· ≠ 0)).length

/-- The loop of `tc_airport_xattr_list_contains`; an entry has at least one byte. -/
def listContainsFrom (list name : Bytes) : (fuel offset : Nat) → Bool
  | 0, _ => false
  | fuel + 1, offset =>
      if offset < list.length then
        let entrySize := strnlen (list.drop offset) (list.length - offset) + 1
        if list.length - offset < entrySize then false
        else if slice list offset (offset + entrySize) = name then true
        else listContainsFrom list name fuel (offset + entrySize)
      else false

/-- `tc_airport_xattr_list_contains`, for a name with its zero. -/
def tcAirportXattrListContains (list name : Bytes) : Bool :=
  listContainsFrom list name list.length 0

/-- The loop of `tc_airport_flistxattr` over the bytes read: the offset moves over all entries, and the
ones that are new are moved to the end of those kept. -/
def compactFrom : (fuel : Nat) → (raw : Bytes) → (inOffset outSize : Nat) → Except Errno (Bytes × Nat)
  | 0, raw, _, outSize => .ok (raw, outSize)
  | fuel + 1, raw, inOffset, outSize =>
      if inOffset < raw.length then
        let entrySize := strnlen (raw.drop inOffset) (raw.length - inOffset) + 1
        let entry := slice raw inOffset (inOffset + entrySize)
        if raw.length - inOffset < entrySize then .error .eio
        else if tcAirportXattrListContains (raw.take outSize) entry then
          compactFrom fuel raw (inOffset + entrySize) outSize
        else
          compactFrom fuel (setSlice raw outSize (outSize + entrySize) entry) (inOffset + entrySize)
            (outSize + entrySize)
      else .ok (raw, outSize)

/-- The last steps of both functions: the size alone without a buffer, and the bytes if there is room. -/
def giveList (list : Option Bytes) (required : Nat) (fill : Bytes → Bytes × Nat) : ListResult :=
  match list with
  | none => ⟨.ok required, none⟩
  | some buffer =>
      if buffer.length = 0 then ⟨.ok required, some buffer⟩
      else if buffer.length < required then ⟨.error .erange, some buffer⟩
      else ⟨.ok (fill buffer).2, some (fill buffer).1⟩

def tcAirportFlistxattr (calls : NativeCalls) (list : Option Bytes) : ListResult :=
  match calls.size with
  | .error errno => ⟨.error errno, list⟩
  | .ok rawSize =>
      if rawSize = 0 then ⟨.ok 0, list⟩
      else if !calls.malloc then ⟨.error .enomem, list⟩
      else
        match calls.read rawSize with
        | .error errno => ⟨.error errno, list⟩
        | .ok raw =>
            match compactFrom raw.length raw 0 0 with
            | .error errno => ⟨.error errno, list⟩
            | .ok compacted =>
                giveList list compacted.2 fun buffer =>
                  (setSlice buffer 0 compacted.2 (compacted.1.take compacted.2), compacted.2)

/-! ## The list for the file server -/

/-- The entry at the offset, without its zero. -/
def entryAt (raw : Bytes) (offset : Nat) : Bytes := (raw.drop offset).takeWhile (· ≠ 0)

/-- The first pass. -/
def requiredFrom (raw : Bytes) : (fuel offset required : Nat) → Nat
  | 0, _, required => required
  | fuel + 1, offset, required =>
      if offset < raw.length then
        let entry := entryAt raw offset
        let entrySize := entry.length + 1
        if tcFruitOwnedNativeXattr entry then requiredFrom raw fuel (offset + entrySize) required
        else
          let required := required + entrySize
          if comApple.isPrefixOf entry then
            requiredFrom raw fuel (offset + entrySize)
              (required + (streamPrefixText.length + entrySize - 1 + streamSuffix.length + 1))
          else requiredFrom raw fuel (offset + entrySize) required
      else required

/-- `snprintf` at an offset of the buffer: what fits of the text, and a zero. -/
def snprintfAt (list : Bytes) (offset : Nat) (text : Bytes) : Bytes :=
  let count := min text.length (list.length - offset - 1)
  setSlice list offset (offset + count + 1) (text.take count ++ [0])

/-- The second pass. -/
def writeFrom (raw : Bytes) : (fuel offset : Nat) → (list : Bytes) → (writtenSize : Nat) → Bytes × Nat
  | 0, _, list, writtenSize => (list, writtenSize)
  | fuel + 1, offset, list, writtenSize =>
      if offset < raw.length then
        let entry := entryAt raw offset
        let entrySize := entry.length + 1
        if tcFruitOwnedNativeXattr entry then writeFrom raw fuel (offset + entrySize) list writtenSize
        else
          let list := setSlice list writtenSize (writtenSize + entrySize)
            (slice raw offset (offset + entrySize))
          let writtenSize := writtenSize + entrySize
          if comApple.isPrefixOf entry then
            writeFrom raw fuel (offset + entrySize) (snprintfAt list writtenSize (streamNameOf entry))
              (writtenSize + (streamNameOf entry).length + 1)
          else writeFrom raw fuel (offset + entrySize) list writtenSize
      else (list, writtenSize)

/-- The two listings may meet the system in different states. -/
def tcNativeListWithAppleStreams (first second : NativeCalls) (talloc : Bool) (list : Option Bytes) :
    ListResult :=
  match (tcAirportFlistxattr first none).ret with
  | .error errno => ⟨.error errno, list⟩
  | .ok rawSize =>
      if rawSize = 0 then ⟨.ok 0, list⟩
      else if !talloc then ⟨.error .enomem, list⟩
      else
        let listed := tcAirportFlistxattr second (some (zeros rawSize))
        match listed.ret with
        | .error errno => ⟨.error errno, list⟩
        | .ok ret =>
            let raw := (listed.list.getD []).take ret
            giveList list (requiredFrom raw raw.length 0 0) fun buffer =>
              writeFrom raw raw.length 0 buffer 0

end TimeCapsule.Xattr
