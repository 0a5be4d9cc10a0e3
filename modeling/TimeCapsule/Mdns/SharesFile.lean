import TimeCapsule.Lib.Shell
import TimeCapsule.Mdns.Service

/-!
# The adisk shares file

The daemon's reader of the file that lists the Time Machine disks, and the rows it reads back as they
were written.
-/

namespace TimeCapsule.Mdns

open Lib

/-- `trim_ascii_whitespace` -/
def trimAsciiWhitespace (value : Bytes) : Bytes := (value.dropWhile isSpace).rdropWhile isSpace

/-- The lines that `fgets` reads into a buffer of `size` bytes, with the newlines; `line` is what
was read of the current one. -/
def fgetsLines (size : Nat) : (line : Bytes) → Bytes → List Bytes
  | line, [] => if line = [] then [] else [line]
  | line, b :: rest =>
      if b = newline || line.length + 2 = size then (line ++ [b]) :: fgetsLines size [] rest
      else fgetsLines size (line ++ [b]) rest

def carriageReturn : UInt8 := 13

def hash : UInt8 := 35

/-- One turn of the loop of `parse_adisk_shares_file`. -/
def parseAdiskSharesLine (cfg : Config) (line : Bytes) : Option Config :=
  let line := trimAsciiWhitespace
    (line.takeWhile fun b => b != 0 && b != carriageReturn && b != newline)
  if line = [] || line.head? = some hash then some cfg
  else
    match line.splitOn tab with
    | [name, key, uuid, advf] =>
        addAdiskDiskConfig cfg ⟨trimAsciiWhitespace name, trimAsciiWhitespace key,
          trimAsciiWhitespace uuid, trimAsciiWhitespace advf⟩
    | _ => none

def adiskSharesLineSize : Nat := 1024

/-- `parse_adisk_shares_file`, for a file that can be opened. -/
def parseAdiskSharesFile (cfg : Config) (file : Bytes) : Option Config :=
  (fgetsLines adiskSharesLineSize [] file).foldlM parseAdiskSharesLine cfg

/-! ## Trimming -/

variable {value line rest : Bytes} {b : UInt8}

theorem mem_of_mem_trimAsciiWhitespace (h : b ∈ trimAsciiWhitespace value) : b ∈ value :=
  List.dropWhile_subset _ ((List.rdropWhile_prefix _ _).subset h)

theorem trimAsciiWhitespace_idem (value : Bytes) :
    trimAsciiWhitespace (trimAsciiWhitespace value) = trimAsciiWhitespace value :=
  trimmed_eq_self (fun _ => trimmed_head?) fun _ => trimmed_getLast?

/-! ## Reading lines -/

theorem fgetsLines_append {size : Nat} {acc : Bytes} (h : newline ∉ line)
    (hlen : acc.length + line.length + 2 ≤ size) :
    fgetsLines size acc (line ++ newline :: rest) =
      (acc ++ line ++ [newline]) :: fgetsLines size [] rest := by
  induction line generalizing acc with
  | nil => simp [fgetsLines]
  | cons b line ih =>
    have hb : b ≠ newline := fun hb => h (hb ▸ List.mem_cons_self)
    have hroom : acc.length + 2 ≠ size := by
      simp only [List.length_cons] at hlen
      omega
    rw [List.cons_append, fgetsLines]
    simp only [hb, hroom, decide_false, Bool.or_self, Bool.false_eq_true, if_false]
    rw [ih (fun hn => h (List.mem_cons_of_mem _ hn)) (by simp at hlen ⊢; omega)]
    simp

/-! ## Rows -/

/-- The line of a row. -/
def AdiskShareRow.text (row : AdiskShareRow) : Bytes :=
  row.shareName ++ tab :: (row.diskKey ++ tab :: (row.uuid ++ tab :: row.diskAdvf))

def AdiskShareRow.disk (row : AdiskShareRow) : AdiskDisk :=
  ⟨row.shareName, row.diskKey, row.diskAdvf, row.uuid⟩

/-- A text that a field of the file can have: it is not trimmed, and has none of the bytes that end a
field or a line. -/
structure IsField (value : Bytes) : Prop where
  trimmed : trimAsciiWhitespace value = value
  plain : ∀ b ∈ value, b ≠ 0 ∧ b ≠ tab ∧ b ≠ newline ∧ b ≠ carriageReturn

/-- A row that the reader reads back. -/
structure Readable (row : AdiskShareRow) : Prop where
  accepted : (buildAdiskDiskTxt row.diskKey row.shareName row.uuid row.diskAdvf).isSome
  shareName : IsField row.shareName
  diskKey : IsField row.diskKey
  uuid : IsField row.uuid
  diskAdvf : IsField row.diskAdvf
  comment : row.shareName.head? ≠ some hash

/-- What `build_adisk_disk_txt` makes sure of. -/
theorem buildAdiskDiskTxt_isSome_iff {diskKey shareName uuid advf : Bytes} :
    (buildAdiskDiskTxt diskKey shareName uuid advf).isSome ↔
      shareName ≠ [] ∧ validateSingleDnsLabel diskKey = true ∧ shareName.any isControl = false ∧
        uuid.length = adiskDiskUuidLen ∧ validateAdiskDiskAdvf advf = true ∧
        diskKey.length + shareName.length + uuid.length + advf.length + 18 ≤ maxTxtString := by
  have hadvf : (ascii "=adVF=").length = 6 := by decide
  have hadvn : (ascii ",adVN=").length = 6 := by decide
  have hadvu : (ascii ",adVU=").length = 6 := by decide
  have hkey : validateSingleDnsLabel diskKey = true → diskKey ≠ [] := by
    rintro h rfl
    exact absurd h (by decide)
  have huuid : uuid.length = adiskDiskUuidLen → uuid ≠ [] := by
    rintro h rfl
    exact absurd h (by decide)
  have hadvfne : validateAdiskDiskAdvf advf = true → advf ≠ [] := by
    rintro h rfl
    exact absurd h (by decide)
  unfold buildAdiskDiskTxt
  split
  · rename_i hempty
    simp only [Bool.or_eq_true, decide_eq_true_eq] at hempty
    simp only [Option.isSome_none, Bool.false_eq_true, false_iff]
    rintro ⟨hname, hk, -, hu, ha, -⟩
    rcases hempty with ((h | h) | h) | h
    · exact hkey hk h
    · exact hname h
    · exact huuid hu h
    · exact hadvfne ha h
  · rename_i hne
    simp only [Bool.or_eq_true, decide_eq_true_eq, not_or] at hne
    split
    · rename_i hbad
      simp only [Bool.or_eq_true, Bool.not_eq_true', bne_iff_ne, ne_eq] at hbad
      simp only [Option.isSome_none, Bool.false_eq_true, false_iff]
      rintro ⟨-, hk, hc, hu, ha, -⟩
      rcases hbad with ((h | h) | h) | h
      · simp [hk] at h
      · simp [hc] at h
      · exact h hu
      · simp [ha] at h
    · rename_i hgood
      simp only [Bool.or_eq_true, Bool.not_eq_true', bne_iff_ne, ne_eq, not_or, not_not,
        Bool.not_eq_true, Bool.not_eq_false] at hgood
      obtain ⟨⟨⟨hk, hc⟩, hu⟩, ha⟩ := hgood
      simp only [List.length_append, hadvf, hadvn, hadvu]
      split
      · rename_i hlong
        simp only [Option.isSome_none, Bool.false_eq_true, false_iff]
        rintro ⟨-, -, -, -, -, hfit⟩
        omega
      · rename_i hfit
        simp only [Option.isSome_some, true_iff]
        exact ⟨hne.1.1.2, hk, hc, hu, ha, by omega⟩

theorem Readable.length_text {row : AdiskShareRow} (h : Readable row) :
    row.text.length + 2 ≤ adiskSharesLineSize := by
  have hfit := (buildAdiskDiskTxt_isSome_iff.mp h.accepted).2.2.2.2.2
  simp only [AdiskShareRow.text, List.length_append, List.length_cons, maxTxtString,
    adiskSharesLineSize] at hfit ⊢
  omega

/-- The size of the record's field for the flags, without the zero at its end. -/
def advfSize : Nat := 15

/-- The disk made of a row: its texts, cut to the sizes of the record's fields. -/
def AdiskShareRow.cutDisk (row : AdiskShareRow) : AdiskDisk :=
  ⟨row.shareName.take (maxName - 1), row.diskKey.take maxLabel, row.diskAdvf.take advfSize,
    row.uuid.take adiskDiskUuidLen⟩

theorem addAdiskDiskConfig_eq_some_iff {cfg cfg' : Config} {row : AdiskShareRow} :
    addAdiskDiskConfig cfg row = some cfg' ↔ cfg.adiskDisks.length < adiskMaxDisks ∧
      (buildAdiskDiskTxt row.diskKey row.shareName row.uuid row.diskAdvf).isSome ∧
      cfg' = { cfg with adiskDisks := cfg.adiskDisks ++ [row.cutDisk] } := by
  unfold addAdiskDiskConfig
  split
  · rename_i hfull
    simp [Nat.not_lt.mpr hfull]
  · rename_i hroom
    cases buildAdiskDiskTxt row.diskKey row.shareName row.uuid row.diskAdvf with
    | none => simp
    | some txt =>
      simp only [Option.bind_eq_bind, Option.bind_some, Option.pure_def, Option.some.injEq,
        Option.isSome_some, true_and, Nat.lt_of_not_le hroom]
      exact eq_comm

/-- An accepted row is not cut, its flags apart. -/
theorem cutDisk_eq {row : AdiskShareRow}
    (h : (buildAdiskDiskTxt row.diskKey row.shareName row.uuid row.diskAdvf).isSome) :
    row.cutDisk = ⟨row.shareName, row.diskKey, row.diskAdvf.take advfSize, row.uuid⟩ := by
  obtain ⟨-, hkey, -, huuid, -, hfit⟩ := buildAdiskDiskTxt_isSome_iff.mp h
  have hkeylen : row.diskKey.length ≤ maxLabel := by
    simp only [validateSingleDnsLabel, validateDnsLabelText, Bool.and_eq_true,
      decide_eq_true_eq] at hkey
    exact hkey.1.1.2
  have hname : row.shareName.length ≤ maxName - 1 := by
    simp only [maxTxtString, maxName] at hfit ⊢
    omega
  rw [AdiskShareRow.cutDisk, List.take_of_length_le hname, List.take_of_length_le hkeylen,
    List.take_of_length_le (Nat.le_of_eq huuid)]

/-- The line of a readable row adds its disk. -/
theorem Readable.parseAdiskSharesLine_eq {cfg : Config} {row : AdiskShareRow} (h : Readable row) :
    parseAdiskSharesLine cfg (row.text ++ [newline]) = addAdiskDiskConfig cfg row := by
  obtain ⟨hname, hkey, hcontrol, huuid, hadvf, -⟩ := buildAdiskDiskTxt_isSome_iff.mp h.accepted
  have hadvfne : row.diskAdvf ≠ [] := by
    intro hnil
    rw [hnil] at hadvf
    exact absurd hadvf (by decide)
  have hplain : ∀ b ∈ row.text, b ≠ 0 ∧ b ≠ carriageReturn ∧ b ≠ newline := by
    intro b hb
    have htab : tab ≠ 0 ∧ tab ≠ carriageReturn ∧ tab ≠ newline := by decide
    simp only [AdiskShareRow.text, List.mem_append, List.mem_cons] at hb
    have hfield : ∀ value, IsField value → b ∈ value → b ≠ 0 ∧ b ≠ carriageReturn ∧ b ≠ newline :=
      fun value hv hb => ⟨(hv.plain b hb).1, (hv.plain b hb).2.2.2, (hv.plain b hb).2.2.1⟩
    rcases hb with hb | rfl | hb | rfl | hb | rfl | hb
    · exact hfield _ h.shareName hb
    · exact htab
    · exact hfield _ h.diskKey hb
    · exact htab
    · exact hfield _ h.uuid hb
    · exact htab
    · exact hfield _ h.diskAdvf hb
  have htake : (row.text ++ [newline]).takeWhile
      (fun b => b != 0 && b != carriageReturn && b != newline) = row.text := by
    rw [List.takeWhile_append_of_pos fun b hb => by
      obtain ⟨h0, h13, h10⟩ := hplain b hb
      simp [h0, h13, h10]]
    simp
  obtain ⟨first, restName, hfirst⟩ := List.exists_cons_of_ne_nil hname
  have htextne : row.text ≠ [] := by simp [AdiskShareRow.text]
  have hhead : row.text.head? = row.shareName.head? := by
    simp [AdiskShareRow.text, hfirst]
  have htrim : trimAsciiWhitespace row.text = row.text := by
    refine trimmed_eq_self (fun b hb => ?_) fun b hb => ?_
    · rw [hhead, ← h.shareName.trimmed] at hb
      exact trimmed_head? hb
    · have hlast : row.text.getLast? = row.diskAdvf.getLast? := by
        obtain ⟨c, advfTail, hc⟩ := List.exists_cons_of_ne_nil hadvfne
        simp [AdiskShareRow.text, List.getLast?_append, hc, List.getLast?_cons]
      rw [hlast, ← h.diskAdvf.trimmed] at hb
      exact trimmed_getLast? hb
  have hsplit : row.text.splitOn tab = [row.shareName, row.diskKey, row.uuid, row.diskAdvf] := by
    have htab : ∀ value, IsField value → tab ∉ value := fun value hv hb => (hv.plain tab hb).2.1 rfl
    rw [AdiskShareRow.text, List.splitOn_append_cons_self_of_not_mem (htab _ h.shareName),
      List.splitOn_append_cons_self_of_not_mem (htab _ h.diskKey),
      List.splitOn_append_cons_self_of_not_mem (htab _ h.uuid),
      List.splitOn_eq_singleton (htab _ h.diskAdvf)]
  have hcomment : row.text.head? ≠ some hash := hhead ▸ h.comment
  simp only [parseAdiskSharesLine, htake, htrim, htextne, hcomment, decide_false, Bool.or_self,
    Bool.false_eq_true, if_false, hsplit, h.shareName.trimmed, h.diskKey.trimmed, h.uuid.trimmed,
    h.diskAdvf.trimmed]

/-- The name that is cut out of a line does not begin a comment. -/
theorem head?_firstField {name tail : Bytes} (hline : trimAsciiWhitespace line = line)
    (hcut : line = name ++ tail) (hname : trimAsciiWhitespace name ≠ [])
    (hcomment : line.head? ≠ some hash) : (trimAsciiWhitespace name).head? ≠ some hash := by
  have hne : name ≠ [] := by
    rintro rfl
    exact hname rfl
  obtain ⟨first, others, hfirst⟩ := List.exists_cons_of_ne_nil hne
  have hhead : line.head? = some first := by simp [hcut, hfirst]
  have hspace : isSpace first = false := by
    rw [← hline] at hhead
    exact trimmed_head? hhead
  obtain ⟨tail', htail⟩ : trimAsciiWhitespace name <+: name.dropWhile isSpace :=
    List.rdropWhile_prefix _ _
  rw [hfirst, List.dropWhile_cons_of_neg (by simp [hspace]), ← hfirst] at htail
  obtain ⟨c, rest, hc⟩ := List.exists_cons_of_ne_nil hname
  rw [hc, hfirst, List.cons_append, List.cons.injEq] at htail
  rw [hc, List.head?_cons, htail.1, ← hhead]
  exact hcomment

/-- A line that adds a disk is that of a readable row. -/
theorem parseAdiskSharesLine_eq_some {cfg cfg' : Config}
    (h : parseAdiskSharesLine cfg line = some cfg') :
    cfg' = cfg ∨ ∃ row, Readable row ∧ addAdiskDiskConfig cfg row = some cfg' := by
  unfold parseAdiskSharesLine at h
  have hline := trimAsciiWhitespace_idem
    (line.takeWhile fun b => b != 0 && b != carriageReturn && b != newline)
  have hplain : ∀ b ∈ trimAsciiWhitespace
      (line.takeWhile fun b => b != 0 && b != carriageReturn && b != newline),
      b ≠ 0 ∧ b ≠ carriageReturn ∧ b ≠ newline := fun b hb => by
    simpa [and_assoc] using List.mem_takeWhile_imp (mem_of_mem_trimAsciiWhitespace hb)
  generalize trimAsciiWhitespace
    (line.takeWhile fun b => b != 0 && b != carriageReturn && b != newline) = body at h hline hplain
  simp only at h
  split at h
  · exact .inl (Option.some.inj h).symm
  · rename_i hbody
    simp only [Bool.or_eq_true, decide_eq_true_eq, not_or] at hbody
    split at h
    · rename_i name key uuid advf hsplit
      refine .inr ⟨_, ?_, h⟩
      have haccepted := (addAdiskDiskConfig_eq_some_iff.mp h).2.1
      have hfield : ∀ value ∈ body.splitOn tab, IsField (trimAsciiWhitespace value) := by
        intro value hvalue
        obtain ⟨htab, hmem⟩ := not_mem_of_mem_splitOn hvalue
        refine ⟨trimAsciiWhitespace_idem value, fun b hb => ?_⟩
        have hb := mem_of_mem_trimAsciiWhitespace hb
        obtain ⟨h0, h13, h10⟩ := hplain b (hmem b hb)
        exact ⟨h0, fun h => htab (h ▸ hb), h10, h13⟩
      rw [hsplit] at hfield
      refine ⟨haccepted, hfield name (by simp), hfield key (by simp), hfield uuid (by simp),
        hfield advf (by simp), ?_⟩
      have hcut : body = name ++ tab :: (key ++ tab :: (uuid ++ tab :: advf)) := by
        have hjoin : [tab].intercalate (body.splitOn tab) = body := List.intercalate_splitOn tab
        rw [← hjoin, hsplit]
        simp [List.intercalate]
      exact head?_firstField hline hcut (buildAdiskDiskTxt_isSome_iff.mp haccepted).1 hbody.2
    · cases h

/-! ## The whole file -/

/-- The file with a line for each row. -/
def sharesText (rows : List AdiskShareRow) : Bytes :=
  (rows.map fun row => row.text ++ [newline]).flatten

theorem fgetsLines_sharesText {rows : List AdiskShareRow} (h : ∀ row ∈ rows, Readable row) :
    fgetsLines adiskSharesLineSize [] (sharesText rows) =
      rows.map fun row => row.text ++ [newline] := by
  induction rows with
  | nil => rfl
  | cons row rest ih =>
    have hrow := h row List.mem_cons_self
    have hnew : newline ∉ row.text := by
      have hfield : ∀ value, IsField value → newline ∉ value := fun value hv hb =>
        (hv.plain newline hb).2.2.1 rfl
      have htab : newline ≠ tab := by decide
      simp [AdiskShareRow.text, hfield _ hrow.shareName, hfield _ hrow.diskKey, hfield _ hrow.uuid,
        hfield _ hrow.diskAdvf, htab]
    have hrest := ih fun row hr => h row (List.mem_cons_of_mem _ hr)
    rw [sharesText, List.map_cons, List.flatten_cons, List.append_assoc, List.singleton_append,
      fgetsLines_append hnew (by simpa using hrow.length_text), List.nil_append]
    exact congrArg _ hrest

/-- Readable rows are all added, as long as there is room. -/
theorem foldlM_parseAdiskSharesLine {rows : List AdiskShareRow} {cfg : Config}
    (h : ∀ row ∈ rows, Readable row) (hcount : cfg.adiskDisks.length + rows.length ≤ adiskMaxDisks) :
    (rows.map fun row => row.text ++ [newline]).foldlM parseAdiskSharesLine cfg =
      some { cfg with adiskDisks := cfg.adiskDisks ++ rows.map AdiskShareRow.cutDisk } := by
  induction rows generalizing cfg with
  | nil => simp
  | cons row rest ih =>
    have hrow := h row List.mem_cons_self
    simp only [List.length_cons] at hcount
    have hadd : addAdiskDiskConfig cfg row =
        some { cfg with adiskDisks := cfg.adiskDisks ++ [row.cutDisk] } :=
      addAdiskDiskConfig_eq_some_iff.mpr ⟨by omega, hrow.accepted, rfl⟩
    rw [List.map_cons, List.foldlM_cons, hrow.parseAdiskSharesLine_eq, hadd, Option.bind_eq_bind,
      Option.bind_some, ih (fun row hr => h row (List.mem_cons_of_mem _ hr)) (by simp; omega)]
    simp

/-- Every disk that was read is one of a readable row, and there are not too many. -/
theorem adiskDisks_of_foldlM {lines : List Bytes} {cfg cfg' : Config}
    (h : lines.foldlM parseAdiskSharesLine cfg = some cfg')
    (hcount : cfg.adiskDisks.length ≤ adiskMaxDisks) :
    cfg'.adiskDisks.length ≤ adiskMaxDisks ∧ ∀ disk ∈ cfg'.adiskDisks,
      disk ∈ cfg.adiskDisks ∨ ∃ row, Readable row ∧ disk = row.cutDisk := by
  induction lines generalizing cfg with
  | nil =>
    obtain rfl := Option.some.inj h
    exact ⟨hcount, fun disk hdisk => .inl hdisk⟩
  | cons line rest ih =>
    rw [List.foldlM_cons] at h
    obtain ⟨next, hnext, hrest⟩ := Option.bind_eq_some_iff.mp h
    rcases parseAdiskSharesLine_eq_some hnext with rfl | ⟨row, hrow, hadd⟩
    · exact ih hrest hcount
    · obtain ⟨hroom, -, rfl⟩ := addAdiskDiskConfig_eq_some_iff.mp hadd
      obtain ⟨hlen, hdisks⟩ := ih hrest (by simp; omega)
      refine ⟨hlen, fun disk hdisk => ?_⟩
      rcases hdisks disk hdisk with hdisk | hdisk
      · rcases List.mem_append.mp hdisk with hdisk | hdisk
        · exact .inl hdisk
        · exact .inr ⟨row, hrow, List.mem_singleton.mp hdisk⟩
      · exact .inr hdisk

/-- The file is read back, one disk for each row and as the row says, exactly when every row is
readable and there are not too many. -/
theorem parseAdiskSharesFile_sharesText_iff {rows : List AdiskShareRow} (cfg : Config)
    (hadvf : ∀ row ∈ rows, row.diskAdvf.length < advfSize) :
    (∃ cfg', parseAdiskSharesFile { cfg with adiskDisks := [] } (sharesText rows) = some cfg' ∧
      cfg'.adiskDisks = rows.map AdiskShareRow.disk) ↔
    (∀ row ∈ rows, Readable row) ∧ rows.length ≤ adiskMaxDisks := by
  have hcut : ∀ row ∈ rows, Readable row → row.cutDisk = row.disk := fun row hr hrow => by
    rw [cutDisk_eq hrow.accepted, List.take_of_length_le (hadvf row hr).le]
    rfl
  constructor
  · rintro ⟨cfg', hparse, hdisks⟩
    obtain ⟨hlen, hread⟩ := adiskDisks_of_foldlM hparse (by simp)
    refine ⟨fun row hr => ?_, by simpa [hdisks] using hlen⟩
    have hmem : row.disk ∈ cfg'.adiskDisks := hdisks ▸ List.mem_map_of_mem hr
    rcases hread row.disk hmem with hnil | ⟨row', hrow', hsame⟩
    · simp at hnil
    · rw [cutDisk_eq hrow'.accepted] at hsame
      simp only [AdiskShareRow.disk, AdiskDisk.mk.injEq] at hsame
      obtain ⟨hname, hkey, hflags, huuid⟩ := hsame
      have hflags : row'.diskAdvf = row.diskAdvf := by
        have hlen := hadvf row hr
        rw [hflags, List.length_take] at hlen
        rw [hflags, List.take_of_length_le (by omega)]
      have hrow : row = row' := by
        rw [show row = ⟨row.shareName, row.diskKey, row.uuid, row.diskAdvf⟩ from rfl, hname, hkey,
          huuid, ← hflags]
      exact hrow ▸ hrow'
  · rintro ⟨hrows, hcount⟩
    refine ⟨{ cfg with adiskDisks := rows.map AdiskShareRow.cutDisk }, ?_, ?_⟩
    · rw [parseAdiskSharesFile, fgetsLines_sharesText hrows]
      exact foldlM_parseAdiskSharesLine hrows (by simpa using hcount)
    · exact List.map_congr_left fun row hr => hcut row hr (hrows row hr)

end TimeCapsule.Mdns
