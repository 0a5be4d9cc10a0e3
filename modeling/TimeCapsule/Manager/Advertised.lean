import Mathlib.Data.List.Nodup
import Mathlib.Data.List.Perm.Subperm
import TimeCapsule.Manager.Consistency
import TimeCapsule.Mdns.Agreement
import TimeCapsule.Mdns.SharesFile

/-!
# The disks the advertiser reads

The adisk file that the manager writes for its shares is read back by the daemon, one disk for each
share, exactly when every volume has a device and a UUID of the form the daemon wants, no name begins
a comment or is cut after a blank, and there are not too many.
-/

namespace TimeCapsule.Manager

open Lib Mdns

variable {cfg : Config} {ans : Answers} {topology used base device suffix name : Bytes}
  {row : Row} {rows : List Row} {names : List Bytes} {max n : Nat} {b : UInt8}

/-! ## Names that are read back -/

/-- The name of a row as long as no other row has it. -/
def boundedName (cfg : Config) (row : Row) : Bytes :=
  boundShareName (sanitizeShareName row.partName row.partDevice)
    (adiskShareNameBudget row.partDevice row.partUuid cfg.adiskDiskAdvf)

/-- A name that neither begins a comment nor ends with a blank. -/
def Plain (name : Bytes) : Prop := name.head? ≠ some hash ∧ name.getLast? ≠ some space

/-- With room for four bytes, the bounded name is the beginning of the base, or stands for none. -/
theorem boundShareName_eq (hmax : 4 ≤ max) (hbase : echo base = base) :
    boundShareName base max = if base = [] then ascii "Disk" else base.take max := by
  have hdisk : truncateToBytes (ascii "Disk") max = ascii "Disk" := by
    have hlen : (ascii "Disk").length ≤ max := hmax
    rw [truncateToBytes, if_pos hlen]
    decide
  by_cases hlen : base.length ≤ max
  · have hcut : truncateToBytes base max = base := by rw [truncateToBytes, if_pos hlen, hbase]
    rw [boundShareName, hcut, hdisk, List.take_of_length_le hlen]
    split
    · decide
    · exact hbase
  · have hcut : truncateToBytes base max = base.take max := by rw [truncateToBytes, if_neg hlen]
    have htake : (base.take max).length = max := by
      rw [List.length_take]
      omega
    have hne : base.take max ≠ [] := by
      intro hnil
      rw [hnil] at htake
      simp at htake
      omega
    have hbasene : base ≠ [] := by
      rintro rfl
      simp at hne
    rw [boundShareName, hcut, if_neg hne, if_neg hbasene, echo_of_length (by omega)]

theorem shareNameWithSuffix_eq (hsuffix : 3 ≤ suffix.length) (hmax : suffix.length + 4 ≤ max)
    (hbase : echo base = base) : shareNameWithSuffix base suffix max =
      (if base = [] then ascii "Disk" else base.take (max - suffix.length)) ++ suffix := by
  rw [shareNameWithSuffix, if_neg (by omega), boundShareName_eq (by omega) hbase]
  refine echo_of_length ?_
  rw [List.length_append]
  omega

theorem length_nameSuffix_none (device : Bytes) :
    (nameSuffix device none).length = device.length + 3 := by
  have hopen : (ascii " (").length = 2 := by decide
  have hclose : (ascii ")").length = 1 := by decide
  rw [nameSuffix_none, List.length_append, List.length_append, hopen, hclose]
  omega

theorem length_nameSuffix_some (device : Bytes) (n : Nat) :
    (nameSuffix device (some n)).length = device.length + (decimal n).length + 4 := by
  have hopen : (ascii " (").length = 2 := by decide
  have hdash : (ascii "-").length = 1 := by decide
  have hclose : (ascii ")").length = 1 := by decide
  simp only [nameSuffix, Option.elim_some, List.length_append, hopen, hdash, hclose]
  omega

theorem length_decimal_le (h : n < 100) : (decimal n).length ≤ 2 := by
  rw [decimal, List.length_map]
  exact (Nat.length_toDigits_le_iff (by omega) (by omega)).mpr h

/-- The names with two digits are all different. -/
theorem nodup_numberedShareName (hmax : device.length + 10 ≤ max) (hbase : echo base = base) :
    ((List.range' 10 90).map (numberedShareName base device max)).Nodup := by
  have hdigits : ((List.range' 10 90).map decimal).Nodup := by decide +kernel
  have hlen : ∀ k ∈ List.range' 10 90, (decimal k).length = 2 := by decide +kernel
  have heq : (List.range' 10 90).map (numberedShareName base device max) =
      ((List.range' 10 90).map decimal).map fun digits =>
        (if base = [] then ascii "Disk" else base.take (max - (device.length + 6))) ++
          (ascii " (" ++ device ++ (ascii "-" ++ digits) ++ ascii ")") := by
    rw [List.map_map]
    refine List.map_congr_left fun k hk => ?_
    have hsuffix : (nameSuffix device (some k)).length = device.length + 6 := by
      rw [length_nameSuffix_some, hlen k hk]
    rw [numberedShareName_eq, shareNameWithSuffix_eq (by omega) (by omega) hbase, hsuffix]
    rfl
  rw [heq]
  refine List.Nodup.map (fun d₁ d₂ h => ?_) hdigits
  simpa using h

/-- With few names in use, a number is not reached that has more than two digits. -/
theorem number_lt_of_taken (hmax : device.length + 10 ≤ max) (hbase : echo base = base)
    (hused : (hereLines used).length < 90) (htaken : ∀ k, 1 ≤ k → k < n →
      shareNameExists used (numberedShareName base device max k) = true) : n < 100 := by
  by_contra hn
  have hsub : (List.range' 10 90).map (numberedShareName base device max) ⊆ hereLines used := by
    intro candidate hcandidate
    obtain ⟨k, hk, rfl⟩ := List.mem_map.mp hcandidate
    rw [List.mem_range'_1] at hk
    simpa [shareNameExists] using htaken k (by omega) (by omega)
  have hle := (List.subperm_of_subset (nodup_numberedShareName hmax hbase) hsub).length_le
  rw [List.length_map, List.length_range'] at hle
  omega

/-- What the reader needs of a name, the comment sign and the blank at its end apart. -/
theorem name_of_sanitized {partName : Bytes} (hlabel : device.any isControl = false)
    (h : uniqueShareName used (sanitizeShareName partName device) device max = some name) :
    name.any isControl = false := by
  have hsafe : ∀ b, isUnsafe b = false → isControl b = false := by
    intro b hb
    simp only [isUnsafe, Bool.or_eq_false_iff] at hb
    simp [isControl, hb.1.1, hb.1.2]
  have hdevice : ∀ b ∈ device, isControl b = false := by simpa using hlabel
  have hbase : ∀ b ∈ sanitizeShareName partName device, isControl b = false :=
    forall_mem_sanitizeShareName (forall_mem_of_all (by decide)) (by decide) hsafe hdevice
  have hname := forall_mem_uniqueShareName (P := fun b => isControl b = false)
    (forall_mem_of_all (by decide))
    (fun b h48 h57 => by
      rw [UInt8.le_iff_toNat_le] at h48 h57
      have h48' : (48 : UInt8).toNat = 48 := rfl
      have h57' : (57 : UInt8).toNat = 57 := rfl
      have hlow : ¬ b < 0x20 := by
        rw [UInt8.lt_iff_toNat_lt]
        have : (0x20 : UInt8).toNat = 32 := rfl
        omega
      have hdel : b ≠ 0x7f := by
        rintro rfl
        have : (0x7f : UInt8).toNat = 127 := rfl
        omega
      simp [isControl, hlow, hdel])
    hbase hdevice h
  simpa using hname

theorem echo_sanitizeShareName (partName device : Bytes) :
    echo (sanitizeShareName partName device) = sanitizeShareName partName device := echo_echo _

theorem head?_sanitizeShareName (partName device : Bytes) :
    (sanitizeShareName partName device).head? ≠ some space := by
  intro h
  have hecho : ∀ value : Bytes, (echo value).head? = some space → value.head? = some space := by
    intro value h
    unfold echo at h
    split at h
    · cases h
    · exact h
  have h := hecho _ h
  split at h
  · exact absurd (Option.some.inj h) (by decide)
  · exact absurd (trimmed_head? h) (by decide)

/-- A name that is not the bounded one ends with its suffix and begins as the bounded one does. -/
theorem name_cases {partName : Bytes} (hmax : device.length + 10 ≤ max)
    (hused : (hereLines used).length < 90)
    (h : uniqueShareName used (sanitizeShareName partName device) device max = some name) :
    name = boundShareName (sanitizeShareName partName device) max ∨
      (name.head? = (boundShareName (sanitizeShareName partName device) max).head? ∧
        name.getLast? = some 41) := by
  have hbase := echo_sanitizeShareName partName device
  generalize sanitizeShareName partName device = base at h hbase
  rcases uniqueShareName_cases h with rfl | ⟨-, number, rfl, hnumber⟩
  · exact .inl rfl
  · refine .inr ?_
    have hlen : 3 ≤ (nameSuffix device number).length ∧
        (nameSuffix device number).length + 4 ≤ max := by
      cases number with
      | none =>
        rw [length_nameSuffix_none]
        omega
      | some n =>
        have hn := length_decimal_le (number_lt_of_taken hmax hbase hused (hnumber n rfl).2)
        rw [length_nameSuffix_some]
        omega
    rw [shareNameWithSuffix_eq hlen.1 hlen.2 hbase, boundShareName_eq (by omega) hbase]
    constructor
    · split
      · rfl
      · rename_i hne
        obtain ⟨first, rest, rfl⟩ := List.exists_cons_of_ne_nil hne
        rw [List.head?_append, List.head?_take, List.head?_take, if_neg (by omega),
          if_neg (by omega)]
        rfl
    · rw [nameSuffix, ← List.append_assoc, List.getLast?_append]
      rfl

/-! ## The names in use -/

theorem hereLines_recordShareName (hname : newline ∉ name) :
    hereLines (recordShareName used name) =
      if used = [] then [name] else hereLines used ++ [name] := by
  unfold recordShareName
  split
  · exact List.splitOn_eq_singleton hname
  · rw [hereLines, List.append_assoc, List.singleton_append, List.splitOn_append_cons_self,
      List.splitOn_eq_singleton hname]
    rfl

theorem mem_hereLines_recordShareName {line : Bytes} (hname : newline ∉ name)
    (h : line ∈ hereLines (recordShareName used name)) : line ∈ hereLines used ∨ line = name := by
  rw [hereLines_recordShareName hname] at h
  split at h
  · exact .inr (List.mem_singleton.mp h)
  · rcases List.mem_append.mp h with h | h
    · exact .inl h
    · exact .inr (List.mem_singleton.mp h)

theorem length_hereLines_recordShareName (used : Bytes) (hname : newline ∉ name) :
    (hereLines (recordShareName used name)).length ≤ (hereLines used).length + 1 := by
  rw [hereLines_recordShareName hname]
  split <;> simp

theorem newline_not_mem_name (hrow : row ∈ rowsOf topology)
    (h : shareNameFor cfg used row = some name) : newline ∉ name := by
  obtain ⟨htab, hnew, -⟩ := partDevice_of_mem_rowsOf hrow
  exact (name_of_shareNameFor htab hnew h).2

/-- When all names are plain, so are the bounded names, which are names or in use. -/
theorem plain_boundedName (hrows : ∀ row ∈ rows, row ∈ rowsOf topology)
    (h : Named cfg used rows names) (hused : ∀ line ∈ hereLines used, Plain line)
    (hnames : ∀ name ∈ names, Plain name) : ∀ row ∈ rows, Plain (boundedName cfg row) := by
  induction h with
  | nil => simp
  | @cons used row rest name names hname _ ih =>
    have hnew := newline_not_mem_name (hrows row List.mem_cons_self) hname
    have hfirst := hnames name List.mem_cons_self
    have hrest := ih (fun row hr => hrows row (List.mem_cons_of_mem _ hr)) (fun line hline => by
      rcases mem_hereLines_recordShareName hnew hline with h | rfl
      · exact hused line h
      · exact hfirst) fun name hn => hnames name (List.mem_cons_of_mem _ hn)
    intro r hr
    rcases List.mem_cons.mp hr with rfl | hr
    · rcases uniqueShareName_cases hname with hsame | ⟨htaken, -⟩
      · have hsame : name = boundedName cfg r := hsame
        exact hsame ▸ hfirst
      · exact hused (boundedName cfg r) (List.contains_iff_mem.mp htaken)
    · exact hrest r hr

/-! ## Rows that are read back -/

def AdiskRow.adiskShareRow (row : AdiskRow) : AdiskShareRow :=
  ⟨row.shareName, row.partDevice, row.partUuid, row.adiskDiskAdvf⟩

/-- The disk that stands for a share. -/
def ShareRow.disk (cfg : Config) (row : ShareRow) : AdiskDisk :=
  ⟨row.shareName, row.partDevice, cfg.adiskDiskAdvf, row.partUuid⟩

/-- What the daemon needs of a volume. -/
structure Advertisable (cfg : Config) (row : Row) : Prop where
  device : validateSingleDnsLabel row.partDevice = true
  deviceTrimmed : trimAsciiWhitespace row.partDevice = row.partDevice
  uuidLength : row.partUuid.length = adiskDiskUuidLen
  uuid : IsField row.partUuid
  name : Plain (boundedName cfg row)

theorem adiskText_eq (adisks : List AdiskRow) :
    adiskText adisks = sharesText (adisks.map AdiskRow.adiskShareRow) := by
  rw [adiskText, sharesText, List.map_map]
  congr 1
  exact List.map_congr_left fun row _ => by rw [AdiskRow.text_eq]; rfl

theorem control_of_label {label : Bytes} (h : validateSingleDnsLabel label = true) :
    label.any isControl = false ∧ label ≠ [] ∧ label.length ≤ maxLabel := by
  simp only [validateSingleDnsLabel, validateDnsLabelText, Bool.and_eq_true, decide_eq_true_eq,
    Bool.not_eq_true', List.isEmpty_eq_false_iff] at h
  exact ⟨h.2, h.1.1.1, h.1.1.2⟩

theorem plain_bytes_of_control {value : Bytes} (h : value.any isControl = false) :
    ∀ b ∈ value, b ≠ 0 ∧ b ≠ tab ∧ b ≠ newline ∧ b ≠ carriageReturn := by
  intro b hb
  have hb : isControl b = false := by
    rw [List.any_eq_false] at h
    simpa using h b hb
  refine ⟨?_, ?_, ?_, ?_⟩ <;> rintro rfl <;> exact absurd hb (by decide)

theorem isSpace_of_not_control (h : isControl b = false) (hb : b ≠ space) : isSpace b = false := by
  by_contra hspace
  simp only [isSpace, Bool.not_eq_false, Bool.or_eq_true, Bool.and_eq_true, beq_iff_eq,
    decide_eq_true_eq] at hspace
  simp only [isControl, Bool.or_eq_false_iff, decide_eq_false_iff_not] at h
  rcases hspace with rfl | ⟨-, h13⟩
  · exact hb rfl
  · apply h.1
    rw [UInt8.le_iff_toNat_le] at h13
    rw [UInt8.lt_iff_toNat_lt]
    have h13' : (13 : UInt8).toNat = 13 := rfl
    have h32 : (0x20 : UInt8).toNat = 32 := rfl
    omega

theorem isField_adiskDiskAdvf (cfg : Config) : IsField cfg.adiskDiskAdvf ∧
    validateAdiskDiskAdvf cfg.adiskDiskAdvf = true ∧ cfg.adiskDiskAdvf.length = 4 := by
  unfold Config.adiskDiskAdvf
  cases cfg.mdnsAdvertiseAfp <;> exact ⟨⟨by decide, forall_mem_of_all (by decide)⟩, by decide, by decide⟩

theorem adiskShareNameBudget_eq {advf : Bytes} (hdevice : row.partDevice.length ≤ maxLabel)
    (huuid : row.partUuid.length = adiskDiskUuidLen) (hadvf : advf.length = 4) :
    adiskShareNameBudget row.partDevice row.partUuid advf = 197 - row.partDevice.length := by
  simp only [adiskShareNameBudget, adiskTxtMaxBytes, adiskTxtAdvfPrefixBytes,
    adiskTxtAdvnMidBytes, adiskTxtAdvuPrefixBytes, huuid, hadvf, adiskDiskUuidLen]
  simp only [maxLabel] at hdevice
  omega

/-- A row of a volume that can be advertised is read back under the name it was given. -/
theorem Advertisable.readable (h : Advertisable cfg row) (hused : (hereLines used).length < 90)
    (hname : shareNameFor cfg used row = some name) :
    Readable (adiskRow cfg row name).adiskShareRow := by
  obtain ⟨hcontrol, hdevicene, hdevicelen⟩ := control_of_label h.device
  obtain ⟨hadvf, hadvfvalid, hadvflen⟩ := isField_adiskDiskAdvf cfg
  have hbudget := adiskShareNameBudget_eq hdevicelen h.uuidLength hadvflen
  have hplain : Plain (boundShareName (sanitizeShareName row.partName row.partDevice)
      (197 - row.partDevice.length)) := hbudget ▸ h.name
  rw [shareNameFor, hbudget] at hname
  have hlen := length_uniqueShareName_le hname
  have hnamecontrol := name_of_sanitized hcontrol hname
  simp only [maxLabel] at hdevicelen
  have hbound := boundShareName_eq (show 4 ≤ 197 - row.partDevice.length by omega)
    (echo_sanitizeShareName row.partName row.partDevice)
  -- the bounded name begins with something, and not with a blank
  obtain ⟨first, hfirst, hblank⟩ : ∃ first, (boundShareName
      (sanitizeShareName row.partName row.partDevice) (197 - row.partDevice.length)).head? =
        some first ∧ first ≠ space := by
    rw [hbound]
    split
    · exact ⟨68, rfl, by decide⟩
    · rename_i hne
      obtain ⟨first, rest, hcons⟩ := List.exists_cons_of_ne_nil hne
      have hhead := head?_sanitizeShareName row.partName row.partDevice
      rw [hcons] at hhead ⊢
      refine ⟨first, ?_, fun h => hhead (by simp [h])⟩
      rw [List.head?_take, if_neg (by omega)]
      rfl
  have hhead : name.head? = some first ∧ name.getLast? ≠ some space := by
    rcases name_cases (by omega) hused hname with rfl | ⟨hsame, hlast⟩
    · exact ⟨hfirst, hplain.2⟩
    · rw [hlast]
      exact ⟨hsame.trans hfirst, by decide⟩
  have hnamene : name ≠ [] := by
    rintro rfl
    simp at hhead
  have hbyte : ∀ b ∈ name, isControl b = false := by simpa using hnamecontrol
  refine ⟨buildAdiskDiskTxt_isSome_iff.mpr ⟨hnamene, h.device, hnamecontrol, h.uuidLength,
    hadvfvalid, ?_⟩, ⟨?_, plain_bytes_of_control hnamecontrol⟩,
    ⟨h.deviceTrimmed, plain_bytes_of_control hcontrol⟩, h.uuid, hadvf, ?_⟩
  · show row.partDevice.length + name.length + row.partUuid.length + cfg.adiskDiskAdvf.length + 18 ≤ _
    rw [h.uuidLength, hadvflen]
    simp only [adiskDiskUuidLen, maxTxtString]
    omega
  · refine trimmed_eq_self (fun b hb => ?_) fun b hb => ?_
    · have hb' : b = first := Option.some.inj (hb.symm.trans hhead.1)
      exact isSpace_of_not_control (hbyte b (List.mem_of_mem_head? hb)) (hb' ▸ hblank)
    · exact isSpace_of_not_control (hbyte b (List.mem_of_getLast? hb)) fun hblank =>
        hhead.2 (hblank ▸ hb)
  · show name.head? ≠ some hash
    rw [hhead.1, ← hfirst]
    exact hplain.1

theorem readable_of_named (h : Named cfg used rows names)
    (hrows : ∀ row ∈ rows, row ∈ rowsOf topology) (hadvertisable : ∀ row ∈ rows, Advertisable cfg row)
    (hused : (hereLines used).length + rows.length < 90) :
    ∀ row ∈ List.zipWith (adiskRow cfg) rows names, Readable row.adiskShareRow := by
  induction h with
  | nil => simp
  | @cons used row rest name names hname _ ih =>
    have hnew := newline_not_mem_name (hrows row List.mem_cons_self) hname
    have hlines := length_hereLines_recordShareName used hnew
    simp only [List.length_cons] at hused
    have hfirst := (hadvertisable row List.mem_cons_self).readable (by omega) hname
    have hrest := ih (fun row hr => hrows row (List.mem_cons_of_mem _ hr))
      (fun row hr => hadvertisable row (List.mem_cons_of_mem _ hr)) (by omega)
    intro published hp
    rw [List.zipWith_cons_cons, List.mem_cons] at hp
    rcases hp with rfl | hp
    · exact hfirst
    · exact hrest published hp

theorem plain_of_readable {row : AdiskShareRow} (h : Readable row) : Plain row.shareName := by
  refine ⟨h.comment, fun hlast => ?_⟩
  rw [← h.shareName.trimmed] at hlast
  exact absurd (trimmed_getLast? hlast) (by decide)

/-- The names and the volumes of rows that are read back. -/
theorem forall_of_readable (h : Named cfg used rows names)
    (hread : ∀ row ∈ List.zipWith (adiskRow cfg) rows names, Readable row.adiskShareRow) :
    (∀ name ∈ names, Plain name) ∧ ∀ row ∈ rows, validateSingleDnsLabel row.partDevice = true ∧
      trimAsciiWhitespace row.partDevice = row.partDevice ∧
      row.partUuid.length = adiskDiskUuidLen ∧ IsField row.partUuid := by
  induction h with
  | nil => simp
  | @cons used row rest name names _ _ ih =>
    simp only [List.zipWith_cons_cons, List.forall_mem_cons] at hread ⊢
    obtain ⟨hnames, hrest⟩ := ih hread.2
    have hfirst := buildAdiskDiskTxt_isSome_iff.mp hread.1.accepted
    exact ⟨⟨plain_of_readable hread.1, hnames⟩,
      ⟨hfirst.2.1, hread.1.diskKey.trimmed, hfirst.2.2.2.1, hread.1.uuid⟩, hrest⟩

theorem txt_of_readable {row : AdiskShareRow} (h : Readable row) :
    ∃ txt, row.disk.txt = some txt ∧ txt.length ≤ maxTxtString := by
  obtain ⟨txt, htxt⟩ := Option.isSome_iff_exists.mp h.accepted
  refine ⟨txt, htxt, ?_⟩
  unfold buildAdiskDiskTxt at htxt
  split at htxt
  · cases htxt
  · split at htxt
    · cases htxt
    · simp only at htxt
      split at htxt
      · cases htxt
      · rename_i hfit
        cases htxt
        omega

/-- The adisk file of the shares that are built is read back, one disk for each share in order and
each with a text that fits, if and only if every volume can be advertised and there are not too
many. -/
theorem adisk_file_read_back_iff (cfg : Config) (ans : Answers) (topology : Bytes)
    (daemon : Mdns.Config) {shares : List ShareRow} {adisks : List AdiskRow}
    (hbuild : buildShareState cfg ans (rowsOf topology) = .rows shares adisks) :
    (∃ parsed, parseAdiskSharesFile { daemon with adiskDisks := [] } (adiskText adisks) =
        some parsed ∧ parsed.adiskDisks = shares.map (ShareRow.disk cfg) ∧
        ∀ disk ∈ parsed.adiskDisks, ∃ txt, disk.txt = some txt ∧ txt.length ≤ maxTxtString) ↔
      (∀ row ∈ (writableRows ans (rowsOf topology)).map Prod.fst, Advertisable cfg row) ∧
        (writableRows ans (rowsOf topology)).length ≤ adiskMaxDisks := by
  obtain ⟨-, names, hnamed, hshares, hadisks⟩ := appendShares_eq_rows hbuild
  rw [List.nil_append] at hshares hadisks
  have hrows : ∀ row ∈ (writableRows ans (rowsOf topology)).map Prod.fst, row ∈ rowsOf topology :=
    fun row hr => (map_fst_writableRows_sublist ans _).subset hr
  have hlength : adisks.length = (writableRows ans (rowsOf topology)).length := by
    rw [hadisks, List.length_zipWith, hnamed.length_eq, Nat.min_self, List.length_map]
  have hdisks : (adisks.map AdiskRow.adiskShareRow).map AdiskShareRow.disk =
      shares.map (ShareRow.disk cfg) := by
    rw [hadisks, hshares, List.map_map, List.map_zipWith, List.map_zipWith]
    rfl
  have hadvf : ∀ row ∈ adisks.map AdiskRow.adiskShareRow, row.diskAdvf.length < advfSize := by
    intro row hr
    obtain ⟨adisk, hadisk, rfl⟩ := List.mem_map.mp hr
    rw [hadisks] at hadisk
    obtain ⟨i, hi, hget⟩ := List.mem_iff_getElem.mp hadisk
    rw [List.getElem_zipWith] at hget
    have hlen := (isField_adiskDiskAdvf cfg).2.2
    rw [← hget]
    show cfg.adiskDiskAdvf.length < advfSize
    simp only [hlen, advfSize]
    omega
  have hiff := parseAdiskSharesFile_sharesText_iff daemon hadvf
  rw [adiskText_eq]
  constructor
  · rintro ⟨parsed, hparse, hparsed, -⟩
    obtain ⟨hread, hcount⟩ := hiff.mp ⟨parsed, hparse, hparsed.trans hdisks.symm⟩
    have hread : ∀ row ∈ List.zipWith (adiskRow cfg)
        ((writableRows ans (rowsOf topology)).map Prod.fst) names, Readable row.adiskShareRow := by
      rw [← hadisks]
      exact fun row hr => hread _ (List.mem_map_of_mem hr)
    obtain ⟨hnames, hvolumes⟩ := forall_of_readable hnamed hread
    have hplain := plain_boundedName hrows hnamed
      (by simp [hereLines, Plain]) hnames
    refine ⟨fun row hr => ?_, by simpa [hlength] using hcount⟩
    obtain ⟨hdevice, htrimmed, hlen, huuid⟩ := hvolumes row hr
    exact ⟨hdevice, htrimmed, hlen, huuid, hplain row hr⟩
  · rintro ⟨hadvertisable, hcount⟩
    have hread : ∀ row ∈ adisks.map AdiskRow.adiskShareRow, Readable row := by
      intro row hr
      obtain ⟨adisk, hadisk, rfl⟩ := List.mem_map.mp hr
      rw [hadisks] at hadisk
      refine readable_of_named hnamed hrows hadvertisable ?_ adisk hadisk
      have hnil : (hereLines []).length = 1 := rfl
      rw [hnil, List.length_map]
      simp only [adiskMaxDisks] at hcount
      omega
    obtain ⟨parsed, hparse, hparsed⟩ := hiff.mpr ⟨hread, by simpa [hlength] using hcount⟩
    refine ⟨parsed, hparse, hparsed.trans hdisks, fun disk hd => ?_⟩
    rw [hparsed] at hd
    obtain ⟨row, hr, rfl⟩ := List.mem_map.mp hd
    exact txt_of_readable (hread row hr)

/-! ### Two volumes -/

def dataUuid : Bytes := ascii "11111111-2222-3333-4444-555555555555"

/-- The topology of one internal volume. -/
def volumeTopology (name : Bytes) : Bytes :=
  [tab].intercalate [ascii "wd0", ascii "1", ascii "dk2", ascii "/Volumes/dk2", name, dataUuid]

def volumeShare (name : Bytes) : ShareRow :=
  ⟨name, ascii "/Volumes/dk2/ShareRoot", ascii "dk2", ascii "1", dataUuid⟩

def volumeAdisk (name : Bytes) : AdiskRow := ⟨name, ascii "dk2", dataUuid, ascii "0x82"⟩

theorem buildShareState_data : buildShareState migratingConfig (dataAnswers true true .done)
    (rowsOf (volumeTopology (ascii "Data"))) =
      .rows [volumeShare (ascii "Data")] [volumeAdisk (ascii "Data")] := by
  decide +kernel

theorem adisk_file_read_back_iff_data :
    ∃ parsed, parseAdiskSharesFile { capsuleOptions with adiskDisks := [] }
        (adiskText [volumeAdisk (ascii "Data")]) = some parsed ∧
      parsed.adiskDisks = [volumeShare (ascii "Data")].map (ShareRow.disk migratingConfig) ∧
      ∀ disk ∈ parsed.adiskDisks, ∃ txt, disk.txt = some txt ∧ txt.length ≤ maxTxtString := by
  refine (adisk_file_read_back_iff migratingConfig (dataAnswers true true .done)
    (volumeTopology (ascii "Data")) capsuleOptions buildShareState_data).mpr ⟨?_, by decide +kernel⟩
  intro row hrow
  have hone : (writableRows (dataAnswers true true .done)
      (rowsOf (volumeTopology (ascii "Data")))).map Prod.fst =
        [⟨ascii "wd0", ascii "1", ascii "dk2", ascii "/Volumes/dk2", ascii "Data", dataUuid⟩] := by
    decide +kernel
  rw [hone, List.mem_singleton] at hrow
  subst hrow
  exact ⟨by decide, by decide, by decide, ⟨by decide +kernel, by decide +kernel⟩,
    ⟨by decide +kernel, by decide +kernel⟩⟩

/-- A volume whose name begins with `#` is shared, and left out of the file by its reader. -/
theorem not_adisk_file_read_back :
    buildShareState migratingConfig (dataAnswers true true .done)
        (rowsOf (volumeTopology (ascii "#Backup"))) =
      .rows [volumeShare (ascii "#Backup")] [volumeAdisk (ascii "#Backup")] ∧
    ¬ ∃ parsed, parseAdiskSharesFile { capsuleOptions with adiskDisks := [] }
        (adiskText [volumeAdisk (ascii "#Backup")]) = some parsed ∧
      parsed.adiskDisks = [volumeShare (ascii "#Backup")].map (ShareRow.disk migratingConfig) := by
  refine ⟨by decide +kernel, ?_⟩
  rintro ⟨parsed, hparse, hdisks⟩
  have hnone : (parseAdiskSharesFile { capsuleOptions with adiskDisks := [] }
      (adiskText [volumeAdisk (ascii "#Backup")])).map Mdns.Config.adiskDisks = some [] := by
    decide +kernel
  rw [hparse, Option.map_some, hdisks] at hnone
  simp at hnone

end TimeCapsule.Manager
