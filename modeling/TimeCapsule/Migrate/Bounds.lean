import TimeCapsule.Lib.Checked
import TimeCapsule.Migrate.Phases

/-!
# The sidecar parser and its memory

The parser of sidecar files with every read of the retained header checked.  No contents of a file take it
outside of the header, what it accepts is described by entries that lie inside the file, and what is
written of the attributes in it are the bytes that its table describes.
-/

namespace TimeCapsule.Migrate

open Lib

/-! ## The checked parser -/

namespace Bounded

/-- `PULL_BE_U32` -/
def be32At (data : Bytes) (off : Nat) : Checked Nat := (bytesAt data off 4).map ofBe

/-- `PULL_BE_U16` -/
def be16At (data : Bytes) (off : Nat) : Checked Nat := (bytesAt data off 2).map ofBe

/-- The bytes of a C string, up to its zero; the fuel is the number of bytes from the offset on. -/
def cStringAt (data : Bytes) : (fuel off : Nat) → Checked Name
  | 0, _ => .error .outOfBounds
  | fuel + 1, off => do
      let ch ← byteAt data off
      if ch = 0 then .ok []
      else do
        let rest ← cStringAt data fuel (off + 1)
        .ok (ch :: rest)

def parseDescriptors (size : Nat) (ad : AppleDouble) : (count descriptor : Nat) →
    Checked (Except Errno AppleDouble)
  | 0, _ => .ok (.ok ad)
  | count + 1, descriptor => do
      let id ← be32At ad.header descriptor
      let offset ← be32At ad.header (descriptor + 4)
      let length ← be32At ad.header (descriptor + 8)
      if size < offset + length then .ok (.error .einval)
      else if id = adFinderi then
        if ad.finderinfo.isSome then .ok (.error .einval)
        else
          parseDescriptors size { ad with finderinfo := some ⟨offset, length⟩ } count
            (descriptor + adEntrySize)
      else if id = adRfork then
        if ad.resource.isSome then .ok (.error .einval)
        else
          parseDescriptors size { ad with resource := some ⟨offset, length⟩ } count
            (descriptor + adEntrySize)
      else
        parseDescriptors size { ad with unsupportedEntries := true } count (descriptor + adEntrySize)

/-- What follows the descriptors. -/
def checkFinderinfo (header : Bytes) (parsed : Except Errno AppleDouble) : AdParse :=
  match parsed with
  | .error e => .corrupt e
  | .ok ad =>
      if ad.finderinfo.any fun entry => entry.length < afpFinderSize ||
          header.length < entry.offset + entry.length
      then .corrupt .einval
      else .appleDouble ad

def parseHeader (size : Nat) (header : Bytes) : Checked AdParse := do
  let magic ← be32At header 0
  if magic ≠ adMagic then .ok .ordinary
  else do
    let version ← be32At header 4
    if version ≠ adVersion then .ok .ordinary
    else do
      let count ← be16At header 24
      if count = 0 ∨ adMaxEntries < count then .ok (.corrupt .einval)
      else if header.length < adHeaderSize + count * adEntrySize then .ok (.corrupt .einval)
      else do
        let parsed ← parseDescriptors size ⟨header, none, none, false⟩ count adHeaderSize
        .ok (checkFinderinfo header parsed)

/-- `tc_parse_appledouble` on a file; the retained header are its first bytes. -/
def tcParseAppledouble (file : Bytes) : Checked AdParse :=
  if file.length < adHeaderSize then .ok .ordinary
  else parseHeader file.length (file.take (min adMaxHeader file.length))

def parseXattrTable (ad : AppleDouble) : Checked (Except Errno (Option XattrTable)) :=
  match ad.finderinfo with
  | none => .ok (.ok none)
  | some finder =>
      if finder.length = afpFinderSize then .ok (.ok none)
      else if finder.length < afpFinderSize + 2 + adXattrHeaderSize then .ok (.error .einval)
      else do
        let filler ← bytesAt ad.header adFillerOffset adOsxFiller.length
        if filler ≠ adOsxFiller then .ok (.error .einval)
        else do
          let headerOffset := finder.offset + afpFinderSize + 2
          let magic ← be32At ad.header headerOffset
          if magic ≠ adXattrMagic then .ok (.error .einval)
          else do
            let totalSize ← be32At ad.header (headerOffset + 8)
            let dataStart ← be32At ad.header (headerOffset + 12)
            let dataLength ← be32At ad.header (headerOffset + 16)
            let count ← be16At ad.header (headerOffset + 34)
            if adMaxEntries < count ∨ ad.header.length < totalSize ∨
                finder.offset + finder.length < totalSize ∨
                dataStart < headerOffset + adXattrHeaderSize ∨
                totalSize < dataStart + dataLength then .ok (.error .einval)
            else .ok (.ok (some ⟨totalSize, dataStart, count, headerOffset + adXattrHeaderSize⟩))

def parseXattrEntry (header : Bytes) (table : XattrTable) (offset : Nat) :
    Checked (Except Errno XattrEntry) :=
  let entry := (offset + 3) / 4 * 4
  if table.dataStart < entry + adXattrEntrySize then .ok (.error .einval)
  else do
    let valueOffset ← be32At header entry
    let valueLength ← be32At header (entry + 4)
    let nameLength ← byteAt header (entry + 10)
    let nameStart := entry + adXattrEntrySize
    if nameLength.toNat = 0 ∨ table.dataStart < nameStart + nameLength.toNat then .ok (.error .einval)
    else do
      let last ← byteAt header (nameStart + nameLength.toNat - 1)
      if last ≠ 0 ∨ table.totalSize < valueOffset + valueLength then .ok (.error .einval)
      else do
        let name ← cStringAt header (header.length - nameStart) nameStart
        .ok (.ok ⟨name, valueOffset, valueLength, nameStart + nameLength.toNat⟩)

/-- A program that ends where the reads of the header fault. -/
def faulting {α : Type} (x : Checked α) (k : α → Mig (Checked Unit)) : Mig (Checked Unit) :=
  match x with
  | .error fault => return .error fault
  | .ok a => k a

def tcMigrateXattrEntry (m : Migration) (base : FileId) (header : Bytes) (entry : XattrEntry) :
    Mig (Checked Unit) :=
  if entry.name = finderinfoXattr ∨ entry.name = resourceforkXattr then return .ok ()
  else if hfsXattrSize < entry.valueLength then throw .eoverflow
  else
    faulting (bytesAt header entry.valueOffset entry.valueLength) fun value => do
      tcNativeWriteVerified m.phase base entry.name value true
      return .ok ()

def migrateXattrEntries (m : Migration) (base : FileId) (header : Bytes) (table : XattrTable) :
    (count offset : Nat) → Mig (Checked Unit)
  | 0, _ => return .ok ()
  | count + 1, offset =>
      faulting (parseXattrEntry header table offset) fun parsed =>
        match parsed with
        | .error e => throw e
        | .ok entry => do
            let written ← tcMigrateXattrEntry m base header entry
            faulting written fun _ => migrateXattrEntries m base header table count entry.next

def tcMigrateAppledoubleXattrs (m : Migration) (base : FileId) (ad : AppleDouble) :
    Mig (Checked Unit) :=
  faulting (parseXattrTable ad) fun parsed =>
    match parsed with
    | .error e => throw e
    | .ok none => return .ok ()
    | .ok (some table) => migrateXattrEntries m base ad.header table table.count table.entryOffset

end Bounded

/-! ## No read is outside of the header -/

variable {header : Bytes} {size : Nat} {ad : AppleDouble}

theorem bounded_be32At {off : Nat} (h : off + 4 ≤ header.length) :
    Bounded.be32At header off = .ok (be32At header off) := by
  rw [Bounded.be32At, bytesAt, if_pos h]
  rfl

theorem bounded_be16At {off : Nat} (h : off + 2 ≤ header.length) :
    Bounded.be16At header off = .ok (be16At header off) := by
  rw [Bounded.be16At, bytesAt, if_pos h]
  rfl

theorem bounded_byteAt {off : Nat} (h : off < header.length) :
    byteAt header off = .ok (header.getD off 0) := by
  rw [byteAt, List.getD_eq_getElem?_getD, List.getElem?_eq_getElem h]
  rfl

/-- A string whose zero is inside the header. -/
theorem bounded_cStringAt {fuel off count : Nat} (hzero : header.getD (off + count) 0 = 0)
    (hlt : off + count < header.length) (hfuel : count < fuel) :
    Bounded.cStringAt header fuel off =
      .ok (((header.drop off).take (count + 1)).takeWhile (· ≠ 0)) := by
  induction fuel generalizing off count with
  | zero => omega
  | succ fuel ih =>
    have hcons : header.drop off = header.getD off 0 :: header.drop (off + 1) := by
      rw [List.drop_eq_getElem_cons (by omega), List.getD_eq_getElem?_getD,
        List.getElem?_eq_getElem (by omega)]
      rfl
    rw [Bounded.cStringAt, byteAt_eq hcons, ok_bind, hcons, List.take_succ_cons]
    by_cases hch : header.getD off 0 = 0
    · rw [if_pos hch, List.takeWhile_cons_of_neg (by simpa using hch)]
    rw [if_neg hch, List.takeWhile_cons_of_pos (by simpa using hch)]
    cases count with
    | zero => exact absurd hzero hch
    | succ count =>
      rw [ih (by rwa [Nat.add_right_comm, Nat.add_assoc]) (by omega) (by omega), ok_bind]

theorem bounded_parseDescriptors {count descriptor : Nat}
    (h : descriptor + count * adEntrySize ≤ ad.header.length) :
    Bounded.parseDescriptors size ad count descriptor = .ok (parseDescriptors size ad count descriptor) := by
  induction count generalizing ad descriptor with
  | zero => rfl
  | succ count ih =>
    have hnext : descriptor + adEntrySize + count * adEntrySize ≤ ad.header.length := by
      rw [Nat.succ_mul] at h
      omega
    unfold adEntrySize at h
    rw [Bounded.parseDescriptors, bounded_be32At (by omega), ok_bind, bounded_be32At (by omega), ok_bind,
      bounded_be32At (by omega), ok_bind, parseDescriptors]
    split
    · rfl
    split
    · split
      · rfl
      · exact @ih { ad with finderinfo := some _ } _ hnext
    split
    · split
      · rfl
      · exact @ih { ad with resource := some _ } _ hnext
    · exact @ih { ad with unsupportedEntries := true } _ hnext

theorem bounded_parseHeader (h : adHeaderSize ≤ header.length) :
    Bounded.parseHeader size header = .ok (parseHeader size header) := by
  unfold adHeaderSize at h
  rw [Bounded.parseHeader, bounded_be32At (by omega), ok_bind, parseHeader]
  by_cases hmagic : be32At header 0 = adMagic
  swap
  · rw [if_pos hmagic, if_pos (.inl hmagic)]
  rw [if_neg (not_not_intro hmagic), bounded_be32At (by omega), ok_bind]
  by_cases hversion : be32At header 4 = adVersion
  swap
  · rw [if_pos hversion, if_pos (.inr hversion)]
  rw [if_neg (not_not_intro hversion), bounded_be16At (by omega), ok_bind,
    if_neg (not_or.mpr ⟨not_not_intro hmagic, not_not_intro hversion⟩)]
  dsimp only
  by_cases hcount : be16At header 24 = 0 ∨ adMaxEntries < be16At header 24
  · rw [if_pos hcount, if_pos (by rcases hcount with h | h <;> simp [h])]
  rw [if_neg hcount]
  by_cases hshort : header.length < adHeaderSize + be16At header 24 * adEntrySize
  · rw [if_pos hshort, if_pos (.inr (.inr hshort))]
  rw [if_neg hshort, if_neg (by
    rintro (h | h | h)
    · exact hcount (.inl h)
    · exact hcount (.inr h)
    · exact hshort h), bounded_parseDescriptors (not_lt.mp hshort), ok_bind]
  rfl

/-- What `tc_parse_appledouble` does with a file. -/
def parseSidecar (file : Bytes) : AdParse :=
  if file.length < adHeaderSize then .ordinary
  else parseHeader file.length (file.take (min adMaxHeader file.length))

theorem bounded_tcParseAppledouble (file : Bytes) :
    Bounded.tcParseAppledouble file = .ok (parseSidecar file) := by
  rw [Bounded.tcParseAppledouble, parseSidecar]
  split
  · rfl
  · next hlong =>
    refine bounded_parseHeader ?_
    rw [List.length_take]
    unfold adMaxHeader adHeaderSize at *
    omega

theorem bounded_parseXattrTable (hlong : adHeaderSize ≤ ad.header.length)
    (hfinder : ∀ finder, ad.finderinfo = some finder → finder.offset + finder.length ≤ ad.header.length) :
    Bounded.parseXattrTable ad = .ok (parseXattrTable ad) := by
  rw [Bounded.parseXattrTable, parseXattrTable]
  rcases hsome : ad.finderinfo with _ | finder
  · rfl
  have hinside := hfinder finder hsome
  dsimp only
  split
  · rfl
  split
  · rfl
  next htable =>
  have hfiller : adOsxFiller.length = 16 := by decide +kernel
  unfold afpFinderSize adXattrHeaderSize at htable
  unfold adHeaderSize at hlong
  rw [bytesAt, if_pos (by rw [hfiller]; unfold adFillerOffset; omega), ok_bind]
  split
  · rfl
  unfold afpFinderSize
  rw [bounded_be32At (by omega), ok_bind]
  split
  · rfl
  rw [bounded_be32At (by omega), ok_bind, bounded_be32At (by omega), ok_bind, bounded_be32At (by omega),
    ok_bind, bounded_be16At (by omega), ok_bind]
  split <;> rfl

/-- The table lies inside the header. -/
theorem parseXattrTable_bounds {table : XattrTable} (h : parseXattrTable ad = .ok (some table)) :
    table.totalSize ≤ ad.header.length ∧ table.dataStart ≤ table.totalSize := by
  rw [parseXattrTable] at h
  rcases hsome : ad.finderinfo with _ | finder
  · rw [hsome] at h
    cases h
  rw [hsome] at h
  dsimp only at h
  split at h
  · cases h
  split at h
  · cases h
  split at h
  · cases h
  split at h
  · cases h
  split at h
  · cases h
  next hbounds =>
  obtain rfl := Option.some.inj (Except.ok.inj h)
  dsimp only
  omega

theorem bounded_parseXattrEntry {table : XattrTable} (hstart : table.dataStart ≤ header.length)
    (offset : Nat) :
    Bounded.parseXattrEntry header table offset = .ok (parseXattrEntry header table offset) := by
  rw [Bounded.parseXattrEntry, parseXattrEntry]
  dsimp only
  generalize (offset + 3) / 4 * 4 = entry
  split
  · rfl
  next hentry =>
  unfold adXattrEntrySize at hentry ⊢
  rw [bounded_be32At (by omega), ok_bind, bounded_be32At (by omega), ok_bind,
    bounded_byteAt (by omega), ok_bind]
  generalize (header.getD (entry + 10) 0).toNat = nameLength
  by_cases hname : nameLength = 0 ∨ table.dataStart < entry + 11 + nameLength
  · rw [if_pos hname, if_pos (by rcases hname with h | h <;> simp [h])]
  rw [if_neg hname]
  rw [not_or] at hname
  rw [bounded_byteAt (by omega), ok_bind]
  by_cases hlast : header.getD (entry + 11 + nameLength - 1) 0 ≠ 0 ∨
      table.totalSize < be32At header entry + be32At header (entry + 4)
  · rw [if_pos hlast, if_pos (.inr (.inr hlast))]
  have hall : ¬(nameLength = 0 ∨ table.dataStart < entry + 11 + nameLength ∨
      header.getD (entry + 11 + nameLength - 1) 0 ≠ 0 ∨
        table.totalSize < be32At header entry + be32At header (entry + 4)) := by
    rintro (h | h | h)
    · exact hname.1 h
    · exact hname.2 h
    · exact hlast h
  rw [if_neg hlast, if_neg hall]
  rw [not_or, ne_eq, not_not] at hlast
  obtain ⟨count, rfl⟩ : ∃ count, nameLength = count + 1 := ⟨nameLength - 1, by omega⟩
  have hname' := @bounded_cStringAt header (header.length - (entry + 11)) (entry + 11) count hlast.1
    (by omega) (by omega)
  rw [hname', ok_bind, slice_add]

theorem parseXattrEntry_bounds {table : XattrTable} {offset : Nat} {entry : XattrEntry}
    (h : parseXattrEntry header table offset = .ok entry) :
    entry.valueOffset + entry.valueLength ≤ table.totalSize := by
  rw [parseXattrEntry] at h
  dsimp only at h
  split at h
  · cases h
  split at h
  · cases h
  next hbounds =>
  obtain rfl := Except.ok.inj h
  dsimp only
  omega

variable {m : Migration} {base : FileId}

theorem bounded_tcMigrateXattrEntry {entry : XattrEntry}
    (h : entry.valueOffset + entry.valueLength ≤ header.length) :
    Bounded.tcMigrateXattrEntry m base header entry =
      (do
        tcMigrateXattrEntry m base header entry
        return .ok ()) := by
  rw [Bounded.tcMigrateXattrEntry, tcMigrateXattrEntry]
  split
  · rfl
  split
  · rfl
  rw [bytesAt, if_pos h]
  rfl

theorem mig_bind_assoc {α β γ : Type} (p : Mig α) (f : α → Mig β) (g : β → Mig γ) :
    p >>= f >>= g = p >>= fun a => f a >>= g := by
  refine (Prog.bind_assoc p.run (ExceptT.bindCont f) (ExceptT.bindCont g)).trans ?_
  refine congrArg (Prog.bind p.run) (funext fun r => ?_)
  cases r <;> rfl

theorem bounded_migrateXattrEntries {table : XattrTable} (hsize : table.totalSize ≤ header.length)
    (hstart : table.dataStart ≤ table.totalSize) (count offset : Nat) :
    Bounded.migrateXattrEntries m base header table count offset =
      (do
        migrateXattrEntries m base header table count offset
        return .ok ()) := by
  induction count generalizing offset with
  | zero => rfl
  | succ count ih =>
    rw [Bounded.migrateXattrEntries, migrateXattrEntries,
      bounded_parseXattrEntry (hstart.trans hsize)]
    rcases hparsed : parseXattrEntry header table offset with e | entry
    · rfl
    show (Bounded.tcMigrateXattrEntry m base header entry >>= fun written =>
      Bounded.faulting written fun _ => Bounded.migrateXattrEntries m base header table count entry.next) =
        _
    rw [bounded_tcMigrateXattrEntry ((parseXattrEntry_bounds hparsed).trans hsize), mig_bind_assoc]
    show (tcMigrateXattrEntry m base header entry >>= fun _ =>
      Bounded.migrateXattrEntries m base header table count entry.next) = _
    rw [ih entry.next, mig_bind_assoc]

theorem bounded_tcMigrateAppledoubleXattrs (hlong : adHeaderSize ≤ ad.header.length)
    (hfinder : ∀ finder, ad.finderinfo = some finder → finder.offset + finder.length ≤ ad.header.length) :
    Bounded.tcMigrateAppledoubleXattrs m base ad =
      (do
        tcMigrateAppledoubleXattrs m base ad
        return .ok ()) := by
  rw [Bounded.tcMigrateAppledoubleXattrs, tcMigrateAppledoubleXattrs,
    bounded_parseXattrTable hlong hfinder]
  rcases htable : parseXattrTable ad with e | table
  · rfl
  rcases table with _ | table
  · rfl
  obtain ⟨hsize, hstart⟩ := parseXattrTable_bounds htable
  exact bounded_migrateXattrEntries hsize hstart table.count table.entryOffset

/-! ## What is accepted -/

structure Descriptor where
  id : Nat
  offset : Nat
  length : Nat
deriving DecidableEq, Repr

/-- The descriptors of a header, from the given one on. -/
def descriptors (header : Bytes) : (count descriptor : Nat) → List Descriptor
  | 0, _ => []
  | count + 1, descriptor =>
      ⟨be32At header descriptor, be32At header (descriptor + 4), be32At header (descriptor + 8)⟩ ::
        descriptors header count (descriptor + adEntrySize)

/-- The descriptors of entries of one kind. -/
def ofKind (id : Nat) (entries : List Descriptor) : List Descriptor := entries.filter (·.id = id)

theorem parseDescriptors_ok {ad ad' : AppleDouble} {count descriptor : Nat}
    (h : parseDescriptors size ad count descriptor = .ok ad') :
    ad'.header = ad.header ∧
      (∀ d ∈ descriptors ad.header count descriptor, d.offset + d.length ≤ size) ∧
      (ofKind adFinderi (descriptors ad.header count descriptor)).length + ad.finderinfo.toList.length ≤
        1 ∧
      (ofKind adRfork (descriptors ad.header count descriptor)).length + ad.resource.toList.length ≤ 1 ∧
      (ad'.unsupportedEntries = true ↔ ad.unsupportedEntries = true ∨
        ∃ d ∈ descriptors ad.header count descriptor, d.id ≠ adFinderi ∧ d.id ≠ adRfork) := by
  induction count generalizing ad descriptor with
  | zero =>
    obtain rfl := Except.ok.inj h
    refine ⟨rfl, by simp [descriptors], ?_, ?_, by simp [descriptors]⟩
    · rcases ad.finderinfo with _ | _ <;> simp [descriptors, ofKind]
    · rcases ad.resource with _ | _ <;> simp [descriptors, ofKind]
  | succ count ih =>
    rw [parseDescriptors] at h
    dsimp only at h
    split at h
    · cases h
    next hinside =>
    rw [not_lt] at hinside
    have hkinds : adFinderi ≠ adRfork := by decide
    have hkind : ∀ kind (d : Descriptor) ds, (ofKind kind (d :: ds)).length =
        (if d.id = kind then 1 else 0) + (ofKind kind ds).length := by
      intro kind d ds
      unfold ofKind
      by_cases hd : d.id = kind
      · rw [List.filter_cons_of_pos (by simpa using hd), if_pos hd, List.length_cons, Nat.add_comm]
      · rw [List.filter_cons_of_neg (by simpa using hd), if_neg hd, Nat.zero_add]
    rw [descriptors]
    simp only [hkind, List.forall_mem_cons]
    split at h
    · next hid =>
      split at h
      · cases h
      next hnone =>
      obtain ⟨hheader, hall, hfinder, hresource, hunsupported⟩ := ih h
      rw [Option.not_isSome_iff_eq_none.mp hnone]
      dsimp only at hall hfinder
      rw [Option.toList_some, List.length_singleton] at hfinder
      refine ⟨hheader, ⟨hinside, hall⟩, ?_, ?_, ?_⟩
      · rw [if_pos hid, Option.toList_none, List.length_nil]
        omega
      · rw [if_neg (hid ▸ hkinds), Nat.zero_add]
        exact hresource
      · rw [hunsupported]
        simp [hid]
    split at h
    · next hid =>
      split at h
      · cases h
      next hnone =>
      obtain ⟨hheader, hall, hfinder, hresource, hunsupported⟩ := ih h
      rw [Option.not_isSome_iff_eq_none.mp hnone]
      dsimp only at hall hresource
      rw [Option.toList_some, List.length_singleton] at hresource
      refine ⟨hheader, ⟨hinside, hall⟩, ?_, ?_, ?_⟩
      · rw [if_neg (hid ▸ hkinds.symm), Nat.zero_add]
        exact hfinder
      · rw [if_pos hid, Option.toList_none, List.length_nil]
        omega
      · rw [hunsupported]
        simp [hid]
    · next hfinderi hrfork =>
      obtain ⟨hheader, hall, hfinder, hresource, hunsupported⟩ := ih h
      refine ⟨hheader, ⟨hinside, hall⟩, ?_, ?_, ?_⟩
      · rw [if_neg hfinderi, Nat.zero_add]
        exact hfinder
      · rw [if_neg hrfork, Nat.zero_add]
        exact hresource
      · rw [hunsupported]
        simp [hfinderi, hrfork]

/-- What the descriptors of an accepted file describe. -/
structure WellDescribed (file : Bytes) (ad : AppleDouble) (entries : List Descriptor) : Prop where
  header : ad.header = file.take (min adMaxHeader file.length)
  inside : ∀ d ∈ entries, d.offset + d.length ≤ file.length
  oneFinderinfo : (ofKind adFinderi entries).length ≤ 1
  oneResource : (ofKind adRfork entries).length ≤ 1
  unsupported : ad.unsupportedEntries = true ↔ ∃ d ∈ entries, d.id ≠ adFinderi ∧ d.id ≠ adRfork
  finderinfo : ∀ finder, ad.finderinfo = some finder →
    afpFinderSize ≤ finder.length ∧ finder.offset + finder.length ≤ ad.header.length

/-- The descriptors that the header of a file counts. -/
def fileDescriptors (file : Bytes) : List Descriptor :=
  descriptors (file.take (min adMaxHeader file.length))
    (be16At (file.take (min adMaxHeader file.length)) 24) adHeaderSize

theorem wellDescribed_of_parseSidecar {file : Bytes} (h : parseSidecar file = .appleDouble ad) :
    adHeaderSize ≤ ad.header.length ∧ WellDescribed file ad (fileDescriptors file) := by
  rw [parseSidecar] at h
  split at h
  · cases h
  next hlong =>
  rw [parseHeader] at h
  split at h
  · cases h
  dsimp only at h
  split at h
  · cases h
  split at h
  · cases h
  next parsed hparsed =>
  split at h
  · cases h
  next hfinder =>
  obtain rfl := AdParse.appleDouble.inj h
  obtain ⟨hheader, hinside, hone, hone', hunsupported⟩ := parseDescriptors_ok hparsed
  dsimp only at hheader hinside hone hone' hunsupported
  refine ⟨?_, ?_⟩
  · rw [hheader, List.length_take]
    unfold adHeaderSize adMaxHeader at *
    omega
  · unfold fileDescriptors
    refine ⟨hheader, hinside, by simpa using hone, by simpa using hone', by simpa using hunsupported, ?_⟩
    intro finder hsome
    rw [hsome] at hfinder
    simp only [Option.any_some, Bool.or_eq_true, decide_eq_true_eq, not_or, not_lt] at hfinder
    rw [hheader]
    exact hfinder

/-! ## What is written -/

/-- A name and a value that stand in the header, at an entry of a table. -/
def DescribedXattr (header : Bytes) (name : Name) (value : Bytes) : Prop :=
  ∃ entry, entry + adXattrEntrySize ≤ header.length ∧
    be32At header entry + be32At header (entry + 4) ≤ header.length ∧
    value = slice header (be32At header entry) (be32At header entry + be32At header (entry + 4)) ∧
    name = (slice header (entry + adXattrEntrySize)
      (entry + adXattrEntrySize + (header.getD (entry + 10) 0).toNat)).takeWhile (· ≠ 0)

/-- The operation is no write of an attribute, or writes this one. -/
def SetsOnly (base : FileId) (p : Name → Bytes → Prop) (op : MigrateOp) : Prop :=
  ∀ fd name value, op = .setxattr fd name value → fd = base ∧ p name value

section Sets

variable {phase : Phase} {name : Name} {value : Bytes} {p : Name → Bytes → Prop}

theorem setsOnly_tcNativeGet (fd : FileId) (name : Name) :
    Prog.UsesE (SetsOnly base p) (tcNativeGet fd name) := by
  apply Prog.UsesE.bind (usesE_sys (by intro _ _ _ h; cases h))
  intro size
  split
  · exact Prog.usesE_pure _
  · apply Prog.UsesE.bind (usesE_sys (by intro _ _ _ h; cases h))
    intro value
    split
    · exact Prog.usesE_throw _
    · exact Prog.usesE_pure _

theorem setsOnly_tcAirportFsetxattr (h : p name value) :
    Prog.UsesE (SetsOnly base p) (tcAirportFsetxattr base name value) := by
  apply Prog.UsesE.bind (usesE_sys (by intro _ _ _ h; cases h))
  intro _
  apply Prog.UsesE.bind (Prog.UsesE.attempt (usesE_sys (by
    intro _ _ _ hop
    cases hop
    exact ⟨rfl, h⟩)))
  intro result
  apply Prog.UsesE.bind (Prog.UsesE.attempt (usesE_sys (by intro _ _ _ h; cases h)))
  intro unlocked
  cases result <;> trivial

theorem setsOnly_tcNativeWriteVerified (h : p name value) (keepExisting : Bool) :
    Prog.UsesE (SetsOnly base p) (tcNativeWriteVerified phase base name value keepExisting) := by
  have hwrite : Prog.UsesE (SetsOnly base p) (tcNativeWrite phase base name value) := by
    unfold tcNativeWrite
    split
    · exact Prog.usesE_throw _
    · apply Prog.UsesE.bind (setsOnly_tcAirportFsetxattr h)
      intro _
      apply Prog.UsesE.bind (setsOnly_tcNativeGet _ _).attempt
      intro existing
      cases existing with
      | error e => exact Prog.usesE_throw _
      | ok existing =>
        show Prog.UsesE _ (if existing = value then pure () else throw _)
        split
        · exact Prog.usesE_pure _
        · exact Prog.usesE_throw _
  apply Prog.UsesE.bind (setsOnly_tcNativeGet _ _).attempt
  intro existing
  cases existing with
  | ok existing =>
    show Prog.UsesE _ (if existing = value then pure () else if keepExisting then pure () else _)
    split
    · exact Prog.usesE_pure _
    · split
      · exact Prog.usesE_pure _
      · exact hwrite
  | error e =>
    show Prog.UsesE _ (if tcMissingError e then _ else throw e)
    split
    · exact hwrite
    · exact Prog.usesE_throw _

end Sets

theorem setsOnly_migrateXattrEntries {table : XattrTable} (hsize : table.totalSize ≤ header.length)
    (hstart : table.dataStart ≤ table.totalSize) (count offset : Nat) :
    Prog.UsesE (SetsOnly base (DescribedXattr header))
      (migrateXattrEntries m base header table count offset) := by
  induction count generalizing offset with
  | zero => exact Prog.usesE_pure _
  | succ count ih =>
    rw [migrateXattrEntries]
    split
    · exact Prog.usesE_throw _
    next entry hentry =>
    refine Prog.UsesE.bind ?_ fun _ => ih entry.next
    have hbounds := parseXattrEntry_bounds hentry
    rw [parseXattrEntry] at hentry
    dsimp only at hentry
    split at hentry
    · cases hentry
    next hlt =>
    split at hentry
    · cases hentry
    next hinside =>
    obtain rfl := Except.ok.inj hentry
    rw [tcMigrateXattrEntry]
    split
    · exact Prog.usesE_pure _
    split
    · exact Prog.usesE_throw _
    · dsimp only at hbounds
      exact setsOnly_tcNativeWriteVerified ⟨(offset + 3) / 4 * 4, by omega, by omega, rfl, rfl⟩ _

theorem setsOnly_tcMigrateAppledoubleXattrs :
    Prog.UsesE (SetsOnly base (DescribedXattr ad.header)) (tcMigrateAppledoubleXattrs m base ad) := by
  rw [tcMigrateAppledoubleXattrs]
  rcases htable : parseXattrTable ad with e | table
  · exact Prog.usesE_throw _
  rcases table with _ | table
  · exact Prog.usesE_pure _
  obtain ⟨hsize, hstart⟩ := parseXattrTable_bounds htable
  exact setsOnly_migrateXattrEntries hsize hstart table.count table.entryOffset

/-- No contents of a file take the parser outside of the header.  A file that it accepts is described by
entries inside the file, with one of each kind at most; with an entry of another kind it is not migrated;
and the attributes that are written are the described bytes. -/
theorem sidecar_reads_inside (file : Bytes) :
    Bounded.tcParseAppledouble file = .ok (parseSidecar file) ∧
      ∀ ad, parseSidecar file = .appleDouble ad →
        WellDescribed file ad (fileDescriptors file) ∧
        (ad.unsupportedEntries = true → ∀ m base path source st,
          tcMigrateSidecar m base path source st ad = throw .enotsup) ∧
        ∀ m base, Bounded.tcMigrateAppledoubleXattrs m base ad =
            (do
              tcMigrateAppledoubleXattrs m base ad
              return .ok ()) ∧
          Prog.UsesE (SetsOnly base (DescribedXattr ad.header)) (tcMigrateAppledoubleXattrs m base ad) := by
  refine ⟨bounded_tcParseAppledouble file, fun ad hparsed => ?_⟩
  obtain ⟨hlong, hdescribed⟩ := wellDescribed_of_parseSidecar hparsed
  refine ⟨hdescribed, fun hunsupported m base path source st => if_pos hunsupported, fun m base => ?_⟩
  exact ⟨bounded_tcMigrateAppledoubleXattrs hlong fun finder hsome =>
    (hdescribed.finderinfo finder hsome).2, setsOnly_tcMigrateAppledoubleXattrs⟩

/-! ### An entry of another kind -/

/-- A sidecar with one entry, of kind 3 and without data. -/
def commentSidecar : Bytes :=
  be32 adMagic ++ be32 adVersion ++ zeros 16 ++ be16 1 ++ be32 3 ++ be32 38 ++ be32 0

/-- It is described as the theorem says, and none of it is migrated. -/
theorem comment_sidecar_described :
    WellDescribed commentSidecar ⟨commentSidecar, none, none, true⟩ (fileDescriptors commentSidecar) ∧
      ∀ m base path source st,
        tcMigrateSidecar m base path source st ⟨commentSidecar, none, none, true⟩ = throw .enotsup := by
  have hparsed := (sidecar_reads_inside commentSidecar).2 ⟨commentSidecar, none, none, true⟩
    (by decide +kernel)
  exact ⟨hparsed.1, hparsed.2.1 rfl⟩

/-- The parser accepts it. -/
theorem comment_sidecar_accepted :
    Bounded.tcParseAppledouble commentSidecar =
        .ok (.appleDouble ⟨commentSidecar, none, none, true⟩) ∧
      ¬∀ d ∈ fileDescriptors commentSidecar, d.id = adFinderi ∨ d.id = adRfork := by
  refine ⟨?_, by decide +kernel⟩
  rw [bounded_tcParseAppledouble]
  decide +kernel

end TimeCapsule.Migrate
