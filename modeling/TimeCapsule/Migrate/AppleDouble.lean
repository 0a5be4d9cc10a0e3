import TimeCapsule.Migrate.Volume

/-!
# AppleDouble headers

The descriptors of a sidecar file and the table of attributes inside its Finder entry.
-/

namespace TimeCapsule.Migrate

open Lib

/-- `TC_AD_MAGIC` -/
def adMagic : Nat := 0x00051607

/-- `TC_AD_VERSION` -/
def adVersion : Nat := 0x00020000

/-- `TC_AD_HEADER_SIZE` -/
def adHeaderSize : Nat := 26

/-- `TC_AD_ENTRY_SIZE` -/
def adEntrySize : Nat := 12

/-- `TC_AD_RFORK` -/
def adRfork : Nat := 2

/-- `TC_AD_FINDERI` -/
def adFinderi : Nat := 9

/-- `TC_AD_FILLER_OFFSET` and `TC_AD_OSX_FILLER` -/
def adFillerOffset : Nat := 8

def adOsxFiller : Bytes := ascii "Mac OS X        "

/-- `TC_AD_XATTR_MAGIC` -/
def adXattrMagic : Nat := 0x41545452

/-- `TC_AD_XATTR_HEADER_SIZE` -/
def adXattrHeaderSize : Nat := 36

/-- `TC_AD_XATTR_ENTRY_SIZE` -/
def adXattrEntrySize : Nat := 11

/-- `TC_AD_MAX_HEADER` -/
def adMaxHeader : Nat := 64 * 1024

/-- `TC_AD_MAX_ENTRIES` -/
def adMaxEntries : Nat := 1024

/-- `AFP_FinderSize` -/
def afpFinderSize : Nat := 32

/-- `AFP_INFO_SIZE` -/
def afpInfoSize : Nat := 60

/-- `AFP_OFF_FinderInfo` -/
def afpOffFinderInfo : Nat := 16

/-- `AFP_Signature`, the text `AFP` and a zero. -/
def afpSignature : Nat := 0x41465000

/-- `AFP_Version` -/
def afpVersion : Nat := 0x00010000

/-- `PULL_BE_U16` -/
def be16At (data : Bytes) (off : Nat) : Nat := ofBe (slice data off (off + 2))

def allZero (bytes : Bytes) : Bool := bytes.all (· = 0)

structure AdEntry where
  offset : Nat
  length : Nat
deriving DecidableEq, Repr

/-- A parsed sidecar; the header is all that is kept of the file. -/
structure AppleDouble where
  header : Bytes
  finderinfo : Option AdEntry
  resource : Option AdEntry
  unsupportedEntries : Bool
deriving DecidableEq, Repr

inductive AdParse where
  | appleDouble (ad : AppleDouble)
  | ordinary
  | corrupt (error : Errno)
deriving DecidableEq, Repr

/-- The descriptors from the given one on, for a file of `size` bytes. -/
def parseDescriptors (size : Nat) (ad : AppleDouble) : (count descriptor : Nat) →
    Except Errno AppleDouble
  | 0, _ => .ok ad
  | count + 1, descriptor =>
      let id := be32At ad.header descriptor
      let entry : AdEntry := ⟨be32At ad.header (descriptor + 4), be32At ad.header (descriptor + 8)⟩
      if size < entry.offset + entry.length then .error .einval
      else if id = adFinderi then
        if ad.finderinfo.isSome then .error .einval
        else parseDescriptors size { ad with finderinfo := some entry } count (descriptor + adEntrySize)
      else if id = adRfork then
        if ad.resource.isSome then .error .einval
        else parseDescriptors size { ad with resource := some entry } count (descriptor + adEntrySize)
      else
        parseDescriptors size { ad with unsupportedEntries := true } count (descriptor + adEntrySize)

/-- The header of a file of `size` bytes, of which the first bytes are given. -/
def parseHeader (size : Nat) (header : Bytes) : AdParse :=
  if be32At header 0 ≠ adMagic ∨ be32At header 4 ≠ adVersion then .ordinary
  else
    let count := be16At header 24
    if count = 0 ∨ adMaxEntries < count ∨ header.length < adHeaderSize + count * adEntrySize then
      .corrupt .einval
    else
      match parseDescriptors size ⟨header, none, none, false⟩ count adHeaderSize with
      | .error e => .corrupt e
      | .ok ad =>
          if ad.finderinfo.any fun entry => entry.length < afpFinderSize ||
              header.length < entry.offset + entry.length
          then .corrupt .einval
          else .appleDouble ad

/-- `tc_appledouble_entry`: the first entry with this id in a database value. -/
def tcAppledoubleEntry (data : Bytes) (wantedId : Nat) : Except Errno Bytes :=
  if data.length < adHeaderSize ∨ be32At data 0 ≠ adMagic ∨ be32At data 4 ≠ adVersion then
    .error .einval
  else
    let count := be16At data 24
    if data.length < adHeaderSize + count * adEntrySize then .error .einval
    else
      match (List.range count).find? fun i => be32At data (adHeaderSize + i * adEntrySize) = wantedId with
      | none => .error .enoattr
      | some i =>
          let descriptor := adHeaderSize + i * adEntrySize
          let offset := be32At data (descriptor + 4)
          let length := be32At data (descriptor + 8)
          if data.length < offset + length then .error .einval
          else .ok (slice data offset (offset + length))

/-! ## Attributes inside the Finder entry -/

/-- The table of attributes: where its data starts, where it ends, and its entries. -/
structure XattrTable where
  totalSize : Nat
  dataStart : Nat
  count : Nat
  entryOffset : Nat
deriving DecidableEq, Repr

/-- The table, if the Finder entry is longer than the Finder information alone. -/
def parseXattrTable (ad : AppleDouble) : Except Errno (Option XattrTable) :=
  match ad.finderinfo with
  | none => .ok none
  | some finder =>
      if finder.length = afpFinderSize then .ok none
      else if finder.length < afpFinderSize + 2 + adXattrHeaderSize then .error .einval
      else if slice ad.header adFillerOffset (adFillerOffset + adOsxFiller.length) ≠ adOsxFiller then
        .error .einval
      else
        let headerOffset := finder.offset + afpFinderSize + 2
        let totalSize := be32At ad.header (headerOffset + 8)
        let dataStart := be32At ad.header (headerOffset + 12)
        let dataLength := be32At ad.header (headerOffset + 16)
        let count := be16At ad.header (headerOffset + 34)
        if be32At ad.header headerOffset ≠ adXattrMagic then .error .einval
        else if adMaxEntries < count ∨ ad.header.length < totalSize ∨
            finder.offset + finder.length < totalSize ∨
            dataStart < headerOffset + adXattrHeaderSize ∨
            totalSize < dataStart + dataLength then .error .einval
        else .ok (some ⟨totalSize, dataStart, count, headerOffset + adXattrHeaderSize⟩)

structure XattrEntry where
  name : Name
  valueOffset : Nat
  valueLength : Nat
  next : Nat
deriving DecidableEq, Repr

/-- The entry at or behind an offset, on a multiple of four. -/
def parseXattrEntry (header : Bytes) (table : XattrTable) (offset : Nat) :
    Except Errno XattrEntry :=
  let entry := (offset + 3) / 4 * 4
  if table.dataStart < entry + adXattrEntrySize then .error .einval
  else
    let valueOffset := be32At header entry
    let valueLength := be32At header (entry + 4)
    let nameLength := (header.getD (entry + 10) 0).toNat
    let nameStart := entry + adXattrEntrySize
    if nameLength = 0 ∨ table.dataStart < nameStart + nameLength ∨
        header.getD (nameStart + nameLength - 1) 0 ≠ 0 ∨
        table.totalSize < valueOffset + valueLength then .error .einval
    else
      .ok
        { name := (slice header nameStart (nameStart + nameLength)).takeWhile (· ≠ 0)
          valueOffset := valueOffset
          valueLength := valueLength
          next := nameStart + nameLength }

/-- The placeholder that the file server leaves for an intentionally blank fork. -/
@[irreducible] def tcEmptyResourcefork : Bytes :=
  [0x00, 0x00, 0x01, 0x00, 0x00, 0x00, 0x01, 0x00, 0x00, 0x00, 0x00, 0x00, 0x00, 0x00, 0x00, 0x1E] ++
  ascii "This resource fork intentionally left blank   " ++ zeros 178 ++
  [0x00, 0x00, 0x01, 0x00, 0x00, 0x00, 0x01, 0x00, 0x00, 0x00, 0x00, 0x00, 0x00, 0x00, 0x00, 0x1E,
    0x00, 0x00, 0x00, 0x00, 0x00, 0x00, 0x00, 0x00, 0x00, 0x1C, 0x00, 0x1E, 0xFF, 0xFF]

example : tcEmptyResourcefork.length = 270 := by decide +kernel

end TimeCapsule.Migrate
