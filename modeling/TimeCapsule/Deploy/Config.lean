import TimeCapsule.Lib.Except
import TimeCapsule.Lib.Text
import TimeCapsule.Migrate.Program

/-!
# The flash configuration of a deployment

`render_flash_runtime_config` writes one shell assignment for each setting; the boot scripts source
the file and fall back to their own defaults.  A setting is an override when one is given, and else
what the local configuration says.
-/

namespace TimeCapsule.Deploy

open Lib Migrate

/-- The values of `AppConfig`. -/
structure AppConfig where
  values : List (String × String)
deriving Repr

def AppConfig.get (config : AppConfig) (key default : String) : String :=
  (config.values.lookup key).getD default

/-- `parse_bool`: no letter beyond ASCII has one of these letters as its lower case. -/
def parseBool (value : String) : Bool := (strip value).toList.map Char.toLower == "true".toList

/-- `DEFAULTS`, the runtime settings. -/
def configDefaults : List (String × String) :=
  [("TC_INTERNAL_SHARE_USE_DISK_ROOT", "false"), ("TC_SMB_BIND_LAN_ONLY", "false"),
    ("TC_SMB_BROWSE_COMPATIBILITY", "false"), ("TC_MDNS_ADVERTISE_AFP", "false"),
    ("TC_ANY_PROTOCOL", "false"), ("TC_REQUIRE_SMB_ENCRYPTION", "false"),
    ("TC_FORCE_DISABLE_SMB_SIGNING_AND_ENCRYPTION", "false"),
    ("TC_FRUIT_METADATA_NETATALK", "true"), ("TC_VFS_AIO_FORK_ENABLED", "false"),
    ("TC_DEBUG_LOGGING", "false"), ("TC_ATA_IDLE_SECONDS", "300"), ("TC_ATA_STANDBY", "")]

def AppConfig.setting (config : AppConfig) (key : String) : String :=
  config.get key ((configDefaults.lookup key).getD "")

/-- An override of `ata_idle_seconds` or `ata_standby`. -/
inductive UnsignedOverride where
  | int (value : Int)
  | str (value : String)
deriving Repr

/-- `DeployRuntimeConfig`: `none` stands for an override that is not given. -/
structure DeployRuntimeConfig where
  nbnsEnabled : Bool
  telemetryEnabled : Bool := true
  rsyncEnabled : Bool := false
  debugLogging : Option Bool := none
  internalShareUseDiskRoot : Option Bool := none
  smbBindLanOnly : Option Bool := none
  smbBrowseCompatibility : Option Bool := none
  mdnsAdvertiseAfp : Option Bool := none
  anyProtocol : Option Bool := none
  requireSmbEncryption : Option Bool := none
  forceDisableSmbSigningAndEncryption : Option Bool := none
  fruitMetadataNetatalk : Option Bool := none
  vfsAioForkEnabled : Option Bool := none
  ataIdleSeconds : Option UnsignedOverride := none
  ataStandby : Option UnsignedOverride := none
deriving Repr

/-! ## Settings -/

/-- The value of an assignment. -/
inductive ConfigValue where
  | int (value : Nat)
  | str (value : String)
deriving Repr

/-- `ValueError` with its text. -/
abbrev Checked (α : Type) : Type := Except String α

/-- What the code points mean beyond ASCII: `str.isdigit`, and the decimal digits of `int`. -/
structure Numerals where
  unicode : UnicodeData
  isDigit : Char → Bool

section Unsigned

variable (num : Numerals)

/-- `str(int(raw))` where `raw.isdigit()`; a digit that is no decimal digit is refused by `int`. -/
def unsignedText (raw message : String) : Checked String :=
  if raw.toList.all num.isDigit then
    match digitsOf num.unicode 10 raw.toList with
    | some n => .ok (String.ofList (Nat.toDigits 10 n))
    | none => .error ("invalid literal for int() with base 10: '" ++ raw ++ "'")
  else .error message

def orDefault (value default : String) : String := if value = "" then default else value

def runtimeUnsignedConfigValue (config : AppConfig) (key default : String) :
    Checked ConfigValue := do
  let rawValue := orDefault (strip (config.get key default)) default
  if rawValue = "" then return .str ""
  else return .str (← unsignedText num rawValue (key ++ " must be a non-negative integer"))

def overrideMessage : String := "runtime setting override must be a non-negative integer"

def runtimeUnsignedOverrideValue : UnsignedOverride → Checked ConfigValue
  | .int value => if value < 0 then .error overrideMessage else .ok (.int value.toNat)
  | .str value => do
      let rawValue := strip value
      if rawValue = "" then return .str ""
      else return .str (← unsignedText num rawValue overrideMessage)

def runtimeUnsigned (config : AppConfig) (key : String) :
    Option UnsignedOverride → Checked ConfigValue
  | none => runtimeUnsignedConfigValue num config key ((configDefaults.lookup key).getD "")
  | some value => runtimeUnsignedOverrideValue num value

end Unsigned

/-- A setting with its fall-back. -/
def effective (config : AppConfig) (key : String) (override : Option Bool) : Bool :=
  override.getD (parseBool (config.setting key))

def smbProtocolEncryptionError : String :=
  "Require SMB Encryption cannot be used with Allow Any SMB Protocol; " ++
    "SMB encryption requires SMB3-only negotiation."

def smbEncryptionDisableConflictError : String :=
  "Require SMB Encryption cannot be used with Force Disable SMB Signing and Encryption."

def validateSmbProtocolOptions (anyProtocol requireSmbEncryption
    forceDisableSmbSigningAndEncryption : Bool) : Checked Unit :=
  if anyProtocol && requireSmbEncryption then .error smbProtocolEncryptionError
  else if requireSmbEncryption && forceDisableSmbSigningAndEncryption then
    .error smbEncryptionDisableConflictError
  else .ok ()

def releaseTag : String := "v3.1.2"

def cliVersionCode : Nat := 30102

def defaultDiskdUseVolumeAttempts : Nat := 2

def flag (b : Bool) : ConfigValue := .int (if b then 1 else 0)

/-- The assignments of the file, in order. -/
def flashRuntimeValues (num : Numerals) (config : AppConfig) (runtime : DeployRuntimeConfig) :
    Checked (List (String × ConfigValue)) := do
  let ataIdleSeconds ← runtimeUnsigned num config "TC_ATA_IDLE_SECONDS" runtime.ataIdleSeconds
  let ataStandby ← runtimeUnsigned num config "TC_ATA_STANDBY" runtime.ataStandby
  let anyProtocol := effective config "TC_ANY_PROTOCOL" runtime.anyProtocol
  let requireSmbEncryption :=
    effective config "TC_REQUIRE_SMB_ENCRYPTION" runtime.requireSmbEncryption
  let forceDisable := effective config "TC_FORCE_DISABLE_SMB_SIGNING_AND_ENCRYPTION"
    runtime.forceDisableSmbSigningAndEncryption
  validateSmbProtocolOptions anyProtocol requireSmbEncryption forceDisable
  let debugLogging := effective config "TC_DEBUG_LOGGING" runtime.debugLogging
  return [
    ("TC_CONFIG_VERSION", .int 2),
    ("TC_DEPLOY_RELEASE_TAG", .str releaseTag),
    ("TC_DEPLOY_CLI_VERSION_CODE", .int cliVersionCode),
    ("TELEMETRY", .str (if runtime.telemetryEnabled then "true" else "false")),
    ("INTERNAL_SHARE_USE_DISK_ROOT",
      flag (effective config "TC_INTERNAL_SHARE_USE_DISK_ROOT" runtime.internalShareUseDiskRoot)),
    ("SMB_BIND_LAN_ONLY", flag (effective config "TC_SMB_BIND_LAN_ONLY" runtime.smbBindLanOnly)),
    ("SMB_BROWSE_COMPATIBILITY",
      flag (effective config "TC_SMB_BROWSE_COMPATIBILITY" runtime.smbBrowseCompatibility)),
    ("MDNS_ADVERTISE_AFP",
      flag (effective config "TC_MDNS_ADVERTISE_AFP" runtime.mdnsAdvertiseAfp)),
    ("ANY_PROTOCOL", flag anyProtocol),
    ("REQUIRE_SMB_ENCRYPTION", flag requireSmbEncryption),
    ("FORCE_DISABLE_SMB_SIGNING_AND_ENCRYPTION", flag forceDisable),
    ("FRUIT_METADATA_NETATALK",
      flag (effective config "TC_FRUIT_METADATA_NETATALK" runtime.fruitMetadataNetatalk)),
    ("VFS_AIO_FORK_ENABLED",
      flag (effective config "TC_VFS_AIO_FORK_ENABLED" runtime.vfsAioForkEnabled)),
    ("DISKD_USE_VOLUME_ATTEMPTS", .int defaultDiskdUseVolumeAttempts),
    ("ATA_IDLE_SECONDS", ataIdleSeconds),
    ("ATA_STANDBY", ataStandby),
    ("NBNS_ENABLED", flag runtime.nbnsEnabled),
    ("RSYNC_ENABLED", flag runtime.rsyncEnabled),
    ("SMBD_DEBUG_LOGGING", flag debugLogging),
    ("MDNS_DEBUG_LOGGING", flag debugLogging)]

/-! ## The text of the file -/

/-- A character that `shlex.quote` leaves alone. -/
def isSafe (c : Char) : Bool := c.isAlphanum || "_@%+=:,./-".toList.contains c

/-- A single quote is left, quoted by double quotes, and entered again. -/
def quoteChars : List Char → List Char
  | [] => []
  | c :: cs => (if c = '\'' then ['\'', '"', '\'', '"', '\''] else [c]) ++ quoteChars cs

/-- `shlex.quote` -/
def shellQuote (value : List Char) : List Char :=
  if value = [] then ['\'', '\'']
  else if value.all isSafe then value
  else '\'' :: quoteChars value ++ ['\'']

def ConfigValue.text : ConfigValue → List Char
  | .int value => Nat.toDigits 10 value
  | .str value => value.toList

def ConfigValue.word : ConfigValue → List Char
  | .int value => Nat.toDigits 10 value
  | .str value => shellQuote value.toList

def renderFlashConfigAssignment (key : String) (value : ConfigValue) : List Char :=
  key.toList ++ '=' :: value.word

def renderAssignments (values : List (String × ConfigValue)) : List Char :=
  ['\n'].intercalate (values.map fun kv => renderFlashConfigAssignment kv.1 kv.2) ++ ['\n']

def renderFlashRuntimeConfig (num : Numerals) (config : AppConfig)
    (runtime : DeployRuntimeConfig) : Checked (List Char) := do
  return renderAssignments (← flashRuntimeValues num config runtime)

/-! ## What the device reads -/

/-- A word of the shell up to the first blank, outside quotes or inside the given ones. -/
def unquote : Option Char → List Char → List Char
  | _, [] => []
  | some quote, c :: cs => if c = quote then unquote none cs else c :: unquote (some quote) cs
  | none, c :: cs =>
      if c = '\'' ∨ c = '"' then unquote (some c) cs
      else if c = ' ' ∨ c = '\t' then []
      else c :: unquote none cs

theorem unquote_quoteChars (value rest : List Char) :
    unquote (some '\'') (quoteChars value ++ '\'' :: rest) = value ++ unquote none rest := by
  induction value with
  | nil => simp [quoteChars, unquote]
  | cons c cs ih =>
    by_cases hc : c = '\''
    · simp [quoteChars, unquote, hc, ih]
    · simp [quoteChars, unquote, hc, ih]

/-- Characters that need no quotes stand for themselves. -/
theorem unquote_plain {value : List Char}
    (h : ∀ c ∈ value, c ≠ '\'' ∧ c ≠ '"' ∧ c ≠ ' ' ∧ c ≠ '\t') : unquote none value = value := by
  induction value with
  | nil => rfl
  | cons c cs ih =>
    obtain ⟨hsingle, hdouble, hblank, htab⟩ := h c List.mem_cons_self
    have hcs := ih fun c hc => h c (List.mem_cons_of_mem _ hc)
    simp [unquote, hsingle, hdouble, hblank, htab, hcs]

example : unquote none "'a b'c".toList = "a bc".toList := by decide +kernel

theorem isSafe_plain {c : Char} (h : isSafe c = true) :
    c ≠ '\'' ∧ c ≠ '"' ∧ c ≠ ' ' ∧ c ≠ '\t' ∧ c ≠ '\n' := by
  refine ⟨?_, ?_, ?_, ?_, ?_⟩ <;> rintro rfl <;> exact absurd h (by decide)

/-- The shell reads the value that was quoted. -/
theorem unquote_shellQuote (value : List Char) : unquote none (shellQuote value) = value := by
  unfold shellQuote
  split
  · rename_i h
    simp [unquote, h]
  · split
    · rename_i h
      rw [List.all_eq_true] at h
      apply unquote_plain
      intro c hc
      obtain ⟨hsingle, hdouble, hblank, htab, -⟩ := isSafe_plain (h c hc)
      exact ⟨hsingle, hdouble, hblank, htab⟩
    · have h := unquote_quoteChars value []
      simpa [unquote] using h

theorem newline_not_mem_shellQuote {value : List Char} (h : '\n' ∉ value) :
    '\n' ∉ shellQuote value := by
  have hquoted : '\n' ∉ quoteChars value := by
    induction value with
    | nil => simp [quoteChars]
    | cons c cs ih =>
      rw [List.mem_cons, not_or] at h
      rw [quoteChars, List.mem_append, not_or]
      refine ⟨?_, ih h.2⟩
      split
      · decide
      · simpa using h.1
  unfold shellQuote
  split
  · decide
  · split
    · exact h
    · simpa using hquoted

theorem digit_plain {c : Char} {n : Nat} (h : c ∈ Nat.toDigits 10 n) :
    c ≠ '\'' ∧ c ≠ '"' ∧ c ≠ ' ' ∧ c ≠ '\t' ∧ c ≠ '\n' := by
  have hd := Nat.isDigit_of_mem_toDigits (by omega) (by omega) h
  refine ⟨?_, ?_, ?_, ?_, ?_⟩ <;> rintro rfl <;> exact absurd hd (by decide)

/-- The shell reads the value of an assignment. -/
theorem unquote_word (value : ConfigValue) : unquote none value.word = value.text := by
  cases value with
  | int n =>
    apply unquote_plain
    intro c hc
    obtain ⟨hsingle, hdouble, hblank, htab, -⟩ := digit_plain hc
    exact ⟨hsingle, hdouble, hblank, htab⟩
  | str value => exact unquote_shellQuote _

/-- The value has no line break in it. -/
def ConfigValue.OneLine (value : ConfigValue) : Prop := '\n' ∉ value.text

instance (value : ConfigValue) : Decidable value.OneLine :=
  inferInstanceAs (Decidable ('\n' ∉ value.text))

theorem ConfigValue.OneLine.word {value : ConfigValue} (h : value.OneLine) :
    '\n' ∉ value.word := by
  cases value with
  | int n => exact h
  | str value => exact newline_not_mem_shellQuote h

theorem oneLine_int (n : Nat) : (ConfigValue.int n).OneLine := fun h => (digit_plain h).2.2.2.2 rfl

/-- What a line assigns to the variable.  No value of the file has a line break in it, so a line is
a command. -/
def assignedBy (name : String) (line : List Char) : Option (List Char) :=
  if line.takeWhile (· ≠ '=') = name.toList ∧ '=' ∈ line then
    some (unquote none ((line.dropWhile (· ≠ '=')).drop 1))
  else none

/-- The variable after the file was sourced. -/
def sourced (name : String) (text : List Char) : Option (List Char) :=
  ((text.splitOn '\n').filterMap (assignedBy name)).getLast?

/-- A name of a variable, as far as the lines are concerned. -/
def IsKey (key : String) : Prop := '=' ∉ key.toList ∧ '\n' ∉ key.toList

instance (key : String) : Decidable (IsKey key) :=
  inferInstanceAs (Decidable ('=' ∉ key.toList ∧ '\n' ∉ key.toList))

theorem assignedBy_assignment {key : String} (hkey : IsKey key) (name : String)
    (value : ConfigValue) : assignedBy name (renderFlashConfigAssignment key value) =
      if key = name then some value.text else none := by
  have hne : ∀ c ∈ key.toList, decide (c ≠ '=') = true := by
    intro c hc
    exact decide_eq_true fun h => hkey.1 (h ▸ hc)
  have htake : (renderFlashConfigAssignment key value).takeWhile (· ≠ '=') = key.toList := by
    rw [renderFlashConfigAssignment, List.takeWhile_append_of_pos hne]
    simp
  have hdrop : (renderFlashConfigAssignment key value).dropWhile (· ≠ '=') = '=' :: value.word := by
    rw [renderFlashConfigAssignment, List.dropWhile_append_of_pos hne]
    simp
  have hmem : '=' ∈ renderFlashConfigAssignment key value := by
    simp [renderFlashConfigAssignment]
  simp only [assignedBy, htake, hdrop, hmem, and_true, List.drop_one, List.tail_cons, unquote_word,
    String.toList_inj]

theorem intercalate_concat_nil {lines : List (List Char)} (hne : lines ≠ []) (x : Char) :
    [x].intercalate (lines ++ [[]]) = [x].intercalate lines ++ [x] := by
  induction lines with
  | nil => exact absurd rfl hne
  | cons line rest ih =>
    cases rest with
    | nil => simp
    | cons next rest =>
      rw [List.cons_append, List.intercalate_cons_of_ne_nil (by simp), ih (by simp)]
      simp

/-- A sourced file of one-line assignments: the last one of the name counts. -/
theorem sourced_renderAssignments {values : List (String × ConfigValue)} (hne : values ≠ [])
    (hkeys : ∀ kv ∈ values, IsKey kv.1) (hvalues : ∀ kv ∈ values, kv.2.OneLine) (name : String) :
    sourced name (renderAssignments values) =
      ((values.filter fun kv => kv.1 = name).map fun kv => kv.2.text).getLast? := by
  have hjoin : renderAssignments values =
      ['\n'].intercalate ((values.map fun kv => renderFlashConfigAssignment kv.1 kv.2) ++ [[]]) := by
    rw [renderAssignments, intercalate_concat_nil (by simpa using hne)]
  have hline : ∀ line ∈ (values.map fun kv => renderFlashConfigAssignment kv.1 kv.2) ++ [[]],
      '\n' ∉ line := by
    intro line hline
    rcases List.mem_append.mp hline with hline | hline
    · obtain ⟨kv, hkv, rfl⟩ := List.mem_map.mp hline
      have hword := (hvalues kv hkv).word
      simp [renderFlashConfigAssignment, (hkeys kv hkv).2, hword]
    · simp [List.mem_singleton.mp hline]
  rw [sourced, hjoin, List.splitOn_intercalate '\n' hline (by simp), List.filterMap_append]
  have hlast : [([] : List Char)].filterMap (assignedBy name) = [] := by simp [assignedBy]
  rw [hlast, List.append_nil, List.filterMap_map]
  congr 1
  clear hjoin hline hlast hvalues hne
  induction values with
  | nil => rfl
  | cons kv rest ih =>
    have hrest := ih fun kv h => hkeys kv (List.mem_cons_of_mem _ h)
    have hkv : (assignedBy name ∘ fun kv => renderFlashConfigAssignment kv.1 kv.2) kv =
        if kv.1 = name then some kv.2.text else none :=
      assignedBy_assignment (hkeys kv List.mem_cons_self) name kv.2
    rw [List.filterMap_cons, hkv, hrest]
    by_cases hname : kv.1 = name <;> simp [hname]

/-- `${name:-default}` -/
def expandOr (value : Option (List Char)) (default : String) : List Char :=
  match value with
  | none => default.toList
  | some [] => default.toList
  | some (c :: cs) => c :: cs

/-- `smbd_fruit_metadata` in the configuration that the boot scripts render for smbd. -/
def smbdFruitMetadata (text : List Char) : LegacyMetadata :=
  if expandOr (sourced "FRUIT_METADATA_NETATALK" text) "1" = ['1'] then .netatalk else .stream

/-! ## The metadata mode -/

theorem oneLine_unsignedText {num : Numerals} {raw message text : String}
    (h : unsignedText num raw message = .ok text) : (ConfigValue.str text).OneLine := by
  unfold unsignedText at h
  split at h
  · split at h
    · cases h
      rw [ConfigValue.OneLine, ConfigValue.text, String.toList_ofList]
      exact fun h => (digit_plain h).2.2.2.2 rfl
    · cases h
  · cases h

theorem oneLine_runtimeUnsigned {num : Numerals} {config : AppConfig} {key : String}
    {override : Option UnsignedOverride} {value : ConfigValue}
    (h : runtimeUnsigned num config key override = .ok value) : value.OneLine := by
  cases override with
  | none =>
    simp only [runtimeUnsigned, runtimeUnsignedConfigValue] at h
    split at h
    · cases h
      simp [ConfigValue.OneLine, ConfigValue.text]
    · obtain ⟨text, htext, hvalue⟩ := bind_eq_ok.mp h
      cases hvalue
      exact oneLine_unsignedText htext
  | some override =>
    cases override with
    | int n =>
      simp only [runtimeUnsigned, runtimeUnsignedOverrideValue] at h
      split at h
      · cases h
      · cases h
        exact oneLine_int _
    | str raw =>
      simp only [runtimeUnsigned, runtimeUnsignedOverrideValue] at h
      split at h
      · cases h
        simp [ConfigValue.OneLine, ConfigValue.text]
      · obtain ⟨text, htext, hvalue⟩ := bind_eq_ok.mp h
        cases hvalue
        exact oneLine_unsignedText htext

/-- The keys and values of the file make lines, and only one of them names the metadata mode. -/
theorem flashRuntimeValues_ok {num : Numerals} {config : AppConfig} {runtime : DeployRuntimeConfig}
    {values : List (String × ConfigValue)} (h : flashRuntimeValues num config runtime = .ok values) :
    values ≠ [] ∧ (∀ kv ∈ values, IsKey kv.1) ∧ (∀ kv ∈ values, kv.2.OneLine) ∧
      values.filter (fun kv => kv.1 = "FRUIT_METADATA_NETATALK") =
        [("FRUIT_METADATA_NETATALK",
          flag (effective config "TC_FRUIT_METADATA_NETATALK" runtime.fruitMetadataNetatalk))] := by
  obtain ⟨idle, hidle, h⟩ := bind_eq_ok.mp h
  obtain ⟨standby, hstandby, h⟩ := bind_eq_ok.mp h
  obtain ⟨_, -, h⟩ := bind_eq_ok.mp h
  have hflag : ∀ b, (flag b).OneLine := fun b => oneLine_int _
  have htag : (ConfigValue.str releaseTag).OneLine := by decide
  have htelemetry : (ConfigValue.str
      (if runtime.telemetryEnabled then "true" else "false")).OneLine := by
    cases runtime.telemetryEnabled <;> decide
  cases h
  refine ⟨List.cons_ne_nil _ _, ?_, ?_, by simp⟩
  · simp only [List.forall_mem_cons, List.not_mem_nil, IsEmpty.forall_iff, implies_true, and_true]
    decide
  · simp [hflag, htag, htelemetry, oneLine_int, oneLine_runtimeUnsigned hidle,
      oneLine_runtimeUnsigned hstandby]

/-- The metadata mode that the rendered file makes smbd use. -/
theorem smbdFruitMetadata_rendered {num : Numerals} {config : AppConfig}
    {runtime : DeployRuntimeConfig} {text : List Char}
    (h : renderFlashRuntimeConfig num config runtime = .ok text) :
    smbdFruitMetadata text =
      if effective config "TC_FRUIT_METADATA_NETATALK" runtime.fruitMetadataNetatalk then .netatalk
      else .stream := by
  obtain ⟨values, hvalues, h⟩ := bind_eq_ok.mp h
  obtain ⟨hne, hkeys, hlines, hfilter⟩ := flashRuntimeValues_ok hvalues
  cases h
  rw [smbdFruitMetadata, sourced_renderAssignments hne hkeys hlines, hfilter]
  cases effective config "TC_FRUIT_METADATA_NETATALK" runtime.fruitMetadataNetatalk <;> rfl

end TimeCapsule.Deploy
