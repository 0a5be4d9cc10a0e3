import TimeCapsule.Mdns.Link
import TimeCapsule.Mdns.Wire

/-!
# Configuration of the responder

The options the daemon was started with, their validation, the names and TXT texts made from them,
and the part of them that is shown on a link of wide-area scope.
-/

namespace TimeCapsule.Mdns

open Lib

def adiskMaxDisks : Nat := 16
def adiskDiskUuidLen : Nat := 36
def airportUsbPrinterMaxTxtItems : Nat := 12

/-! ## Service types -/

def smbServiceType : Bytes := ascii "_smb._tcp.local."
def adiskServiceType : Bytes := ascii "_adisk._tcp.local."
def afpServiceType : Bytes := ascii "_afpovertcp._tcp.local."
def deviceInfoServiceType : Bytes := ascii "_device-info._tcp.local."
def airportServiceType : Bytes := ascii "_airport._tcp.local."
def riousbprintServiceType : Bytes := ascii "_riousbprint._tcp.local."
def pdlDatastreamServiceType : Bytes := ascii "_pdl-datastream._tcp.local."
def dnsSdServiceEnumerationName : Bytes := ascii "_services._dns-sd._udp.local."

structure AdiskDisk where
  shareName : Bytes
  diskKey : Bytes
  diskAdvf : Bytes
  uuid : Bytes
deriving DecidableEq, Repr

/-- `struct config`; the service types are constants set before the options are read. -/
structure Config where
  instanceName : Bytes
  hostLabel : Bytes
  hostFqdn : Bytes
  adiskSysWama : Bytes
  adiskDisks : List AdiskDisk
  deviceModel : Bytes
  airportWama : Bytes
  airportRama : Bytes
  airportRam2 : Bytes
  airportRast : Bytes
  airportRana : Bytes
  airportSyfl : Bytes
  airportSyap : Bytes
  airportSyvs : Bytes
  airportSrcv : Bytes
  airportBjsd : Bytes
  riousbprintInstanceName : Bytes
  riousbprintNote : Bytes
  riousbprintMfg : Bytes
  riousbprintMdl : Bytes
  riousbprintSerial : Bytes
  riousbprintCmd : Bytes
  port : UInt16
  adiskPort : UInt16
  afpPort : UInt16
  airportPort : UInt16
  riousbprintPort : UInt16
  pdlDatastreamPort : UInt16
  ttl : UInt32
  diskless : Bool
  advertiseAfp : Bool
deriving DecidableEq, Repr

/-! ## Names -/

/-- `escape_dns_label` into a buffer of `outLen` bytes. -/
def escapeDnsLabel (outLen : Nat) (label : Bytes) : Option Bytes :=
  if label = [] then none else go label []
where
  go : Bytes → (out : Bytes) → Option Bytes
    | [], out => some out
    | ch :: rest, out =>
        if ch = dot || ch = backslash then
          if outLen ≤ out.length + 2 then none else go rest (out ++ [backslash, ch])
        else if outLen ≤ out.length + 1 then none
        else go rest (out ++ [ch])

def buildInstanceFqdn (instanceName serviceType : Bytes) : Option Bytes := do
  let escaped ← escapeDnsLabel maxName instanceName
  let fqdn := escaped ++ [dot] ++ serviceType
  if maxName ≤ fqdn.length then none else some fqdn

def buildHostFqdn (hostLabel : Bytes) : Option Bytes := do
  let escaped ← escapeDnsLabel maxName hostLabel
  let fqdn := escaped ++ ascii ".local."
  if maxName ≤ fqdn.length then none else some fqdn

/-! ## Checks of texts -/

def isControl (b : UInt8) : Bool := b < 0x20 || b == 0x7f

def isSpace (b : UInt8) : Bool := b == 32 || (9 ≤ b && b ≤ 13)

def asciiUpper (b : UInt8) : UInt8 := if 97 ≤ b && b ≤ 122 then b - 32 else b

def isHexDigit (b : UInt8) : Bool :=
  (48 ≤ b && b ≤ 57) || (65 ≤ b && b ≤ 70) || (97 ≤ b && b ≤ 102)

def validateDnsLabelText (value : Bytes) (allowDots : Bool) : Bool :=
  !value.isEmpty && value.length ≤ maxLabel && (allowDots || !value.contains dot) &&
    !value.any isControl

def validateSingleDnsLabel (value : Bytes) : Bool := validateDnsLabelText value false

def validateGeneratedDnsLabel (value : Bytes) : Bool := validateDnsLabelText value true

def validateAirportAsciiField (value : Bytes) : Bool :=
  !value.isEmpty && !value.any fun b => isControl b || b == 44

def validateTxtAsciiField (value : Bytes) : Bool := !value.any isControl

def validateAdiskDiskAdvf (value : Bytes) : Bool :=
  match value with
  | 48 :: x :: digits => (x == 120 || x == 88) && !digits.isEmpty && digits.all isHexDigit
  | _ => false

/-! ## TXT texts -/

def buildModelTxt (deviceModel : Bytes) : Option Bytes :=
  let txt := ascii "model=" ++ deviceModel
  if deviceModel = [] || maxTxtString < txt.length then none else some txt

def buildAdiskSystemTxt (wama : Bytes) : Option Bytes :=
  if wama = [] || 18 ≤ wama.length || !(wama.all fun b => isHexDigit b || b == 58) then none
  else
    let txt := ascii "sys=waMA=" ++ wama.map asciiUpper ++ ascii ",adVF=0x1010"
    if maxTxtString < txt.length || 128 ≤ txt.length then none else some txt

def buildAdiskDiskTxt (diskKey shareName adiskUuid adiskDiskAdvf : Bytes) : Option Bytes :=
  if diskKey = [] || shareName = [] || adiskUuid = [] || adiskDiskAdvf = [] then none
  else if !validateSingleDnsLabel diskKey || shareName.any isControl ||
      adiskUuid.length != adiskDiskUuidLen || !validateAdiskDiskAdvf adiskDiskAdvf then none
  else
    let txt := diskKey ++ ascii "=adVF=" ++ adiskDiskAdvf ++ ascii ",adVN=" ++ shareName ++
      ascii ",adVU=" ++ adiskUuid
    if maxTxtString < txt.length then none else some txt

def AdiskDisk.txt (disk : AdiskDisk) : Option Bytes :=
  buildAdiskDiskTxt disk.diskKey disk.shareName disk.uuid disk.diskAdvf

/-- The texts of an `_adisk` record: the system's, then one for each disk. -/
def buildAdiskTxts (cfg : Config) : Option (List Bytes) := do
  let system ← buildAdiskSystemTxt cfg.adiskSysWama
  let disks ← cfg.adiskDisks.mapM AdiskDisk.txt
  return system :: disks

/-- `normalize_mac_for_airport_txt`: twelve hexadecimal digits, in pairs joined by dashes. -/
def normalizeMacForAirportTxt (value : Bytes) : Option Bytes :=
  let digits := value.filter fun b => !(b == 58 || b == 45)
  if value = [] || !digits.all isHexDigit || digits.length != 12 then none
  else some (pairs (digits.map asciiUpper))
where
  pairs : Bytes → Bytes
    | a :: b :: c :: rest => a :: b :: 45 :: pairs (c :: rest)
    | rest => rest

def isAirportEnabled (cfg : Config) : Bool :=
  !cfg.airportWama.isEmpty || !cfg.airportRama.isEmpty || !cfg.airportRam2.isEmpty ||
    !cfg.airportRast.isEmpty || !cfg.airportRana.isEmpty || !cfg.airportSyfl.isEmpty ||
    !cfg.airportSyap.isEmpty || !cfg.airportSyvs.isEmpty || !cfg.airportSrcv.isEmpty ||
    !cfg.airportBjsd.isEmpty

/-- A MAC field that is set must be a MAC address; one that is not set stays empty. -/
def airportMac (value : Bytes) : Option Bytes :=
  if value = [] then some [] else normalizeMacForAirportTxt value

def airportText (value : Bytes) : Option Bytes :=
  if value = [] then some []
  else if validateAirportAsciiField value then some value else none

/-- The fields that are set, with their keys, separated by commas. -/
def appendAirportFields : List (Bytes × Bytes) → Writer
  | [] => some
  | (key, value) :: rest => fun out =>
      if value = [] then appendAirportFields rest out
      else
        (appendBytes maxTxtString ((if out = [] then [] else [44]) ++ key ++ value) out).bind
          (appendAirportFields rest)

def buildAirportTxt (cfg : Config) : Option Bytes := do
  if !isAirportEnabled cfg then none
  else
    let wama ← airportMac cfg.airportWama
    let rama ← airportMac cfg.airportRama
    let ram2 ← airportMac cfg.airportRam2
    let rast ← airportText cfg.airportRast
    let rana ← airportText cfg.airportRana
    let syfl ← airportText cfg.airportSyfl
    let syvs ← airportText cfg.airportSyvs
    let srcv ← airportText cfg.airportSrcv
    let bjsd ← airportText cfg.airportBjsd
    let syap ← airportText cfg.airportSyap
    let txt ← appendAirportFields
      [(ascii "waMA=", wama), (ascii "raMA=", rama), (ascii "raM2=", ram2), (ascii "raSt=", rast),
        (ascii "raNA=", rana), (ascii "syFl=", syfl), (ascii "syAP=", syap), (ascii "syVs=", syvs),
        (ascii "srcv=", srcv), (ascii "bjSd=", bjsd)] []
    if txt = [] then none else some txt

/-! ### Printer texts -/

def isAirportUsbPrinterEnabled (cfg : Config) : Bool := !cfg.riousbprintInstanceName.isEmpty

def isRiousbprintEnabled (cfg : Config) : Bool := isAirportUsbPrinterEnabled cfg

def isPdlDatastreamEnabled (cfg : Config) : Bool := isAirportUsbPrinterEnabled cfg

/-- `append_txt_itemf` on the formatted text. -/
def appendTxtItem (txts : List Bytes) (txt : Bytes) : Option (List Bytes) :=
  if airportUsbPrinterMaxTxtItems ≤ txts.length || maxTxtString < txt.length then none
  else some (txts ++ [txt])

/-- The texts of a command set between its commas, without the space around them. -/
def commandSetEntries (cmd : Bytes) : List Bytes :=
  (cmd.splitOn 44).map (fun s => ((s.dropWhile isSpace).reverse.dropWhile isSpace).reverse)
    |>.filter (· ≠ [])

def buildRiousbprintPdl (cmd : Bytes) : Option Bytes := do
  let txt ← writeAll ((commandSetEntries cmd).map fun entry out =>
    appendBytes maxTxtString
      ((if out = [] then [] else [44]) ++ ascii "application/" ++ entry) out) []
  if txt = [] then none else some txt

def validateAirportUsbPrinterTxtFields (cfg : Config) : Bool :=
  validateTxtAsciiField cfg.riousbprintNote && validateTxtAsciiField cfg.riousbprintMfg &&
    validateTxtAsciiField cfg.riousbprintMdl && validateTxtAsciiField cfg.riousbprintSerial &&
    validateTxtAsciiField cfg.riousbprintCmd

def appendAirportUsbPrinterIntroTxtItems (cfg : Config) (txts : List Bytes) :
    Option (List Bytes) := do
  let note := if cfg.riousbprintNote ≠ [] then cfg.riousbprintNote else cfg.instanceName
  let txts ← appendTxtItem txts (ascii "txtvers=1")
  let txts ← appendTxtItem txts (ascii "qtotal=1")
  let txts ← appendTxtItem txts (ascii "note=" ++ note)
  appendTxtItem txts (ascii "product=(" ++ cfg.riousbprintInstanceName ++ ascii ")")

/-- A text that is left out when its value is not set. -/
def appendTxtItemIfSet (txts : List Bytes) (key value : Bytes) : Option (List Bytes) :=
  if value = [] then some txts else appendTxtItem txts (key ++ value)

def appendAirportUsbPrinterDeviceTxtItems (cfg : Config) (txts : List Bytes) :
    Option (List Bytes) := do
  let txts ← appendTxtItemIfSet txts (ascii "usb_MFG=") cfg.riousbprintMfg
  let txts ← appendTxtItemIfSet txts (ascii "usb_CMD=") cfg.riousbprintCmd
  let txts ← appendTxtItemIfSet txts (ascii "usb_MDL=") cfg.riousbprintMdl
  let txts ← appendTxtItem txts (ascii "usb_CLS=PRINTER")
  appendTxtItem txts (ascii "usb_DES=" ++ cfg.riousbprintInstanceName)

/-- The text with the page description languages, if the command set is known. -/
def appendRiousbprintPdlTxtItem (cfg : Config) (txts : List Bytes) : Option (List Bytes) :=
  if cfg.riousbprintCmd = [] then some txts
  else (buildRiousbprintPdl cfg.riousbprintCmd).bind fun pdl => appendTxtItem txts (ascii "pdl=" ++ pdl)

def buildRiousbprintTxtItems (cfg : Config) : Option (List Bytes) := do
  if !isRiousbprintEnabled cfg || !validateAirportUsbPrinterTxtFields cfg then none
  else
    let txts ← appendAirportUsbPrinterIntroTxtItems cfg []
    let rp := ascii "rp=" ++ cfg.riousbprintInstanceName
    let txts ← appendTxtItem txts
      (if cfg.riousbprintSerial ≠ [] then rp ++ ascii " " ++ cfg.riousbprintSerial else rp)
    let txts ← appendRiousbprintPdlTxtItem cfg txts
    let txts ← appendTxtItem txts (ascii "priority=1")
    appendAirportUsbPrinterDeviceTxtItems cfg txts

def buildPdlDatastreamTxtItems (cfg : Config) : Option (List Bytes) := do
  if !isPdlDatastreamEnabled cfg || !validateAirportUsbPrinterTxtFields cfg then none
  else
    let txts ← appendAirportUsbPrinterIntroTxtItems cfg []
    let txts ← appendTxtItem txts (ascii "pdl=U")
    let txts ← appendTxtItem txts (ascii "priority=5")
    let txts ← appendAirportUsbPrinterDeviceTxtItems cfg txts
    appendTxtItem txts (ascii "ty=" ++ cfg.riousbprintInstanceName)

/-! ## What is enabled -/

def adiskConfigured (cfg : Config) : Bool := !cfg.adiskDisks.isEmpty

def adiskEnabled (cfg : Config) : Bool := !cfg.diskless && adiskConfigured cfg

def smbEnabled (cfg : Config) : Bool := !cfg.diskless

def afpEnabled (cfg : Config) : Bool := cfg.advertiseAfp

inductive MdnsServiceScope where
  | lan
  | wan
deriving DecidableEq, Repr

def mdnsConfigForScope (cfg : Config) : MdnsServiceScope → Config
  | .lan => cfg
  | .wan =>
      let wanCfg := { cfg with
        diskless := true
        advertiseAfp := false
        deviceModel := []
        riousbprintInstanceName := [] }
      if isAirportEnabled wanCfg then wanCfg else { wanCfg with hostFqdn := [] }

/-! ## Validation -/

inductive ExitCode where
  | missingRequiredArgs
  | invalidDnsLabel
  | invalidServiceType
  | invalidAdiskSystem
  | invalidAdiskDisk
  | invalidDeviceModel
  | invalidAirportTxt
deriving DecidableEq, Repr

/-- The fields of one row of the shares file. -/
structure AdiskShareRow where
  shareName : Bytes
  diskKey : Bytes
  uuid : Bytes
  diskAdvf : Bytes
deriving DecidableEq, Repr

/-- `add_adisk_disk_config`: the texts are cut to the sizes of the record's fields. -/
def addAdiskDiskConfig (cfg : Config) (row : AdiskShareRow) : Option Config := do
  if adiskMaxDisks ≤ cfg.adiskDisks.length then none
  else
    let _ ← buildAdiskDiskTxt row.diskKey row.shareName row.uuid row.diskAdvf
    return { cfg with adiskDisks := cfg.adiskDisks ++
      [⟨row.shareName.take (maxName - 1), row.diskKey.take maxLabel, row.diskAdvf.take 15,
        row.uuid.take adiskDiskUuidLen⟩] }

/-- `discover_riousbprint_usb_cmd`: without a command set, the one read from the printer. -/
def discoverRiousbprintUsbCmd (cfg : Config) (usbCmd : Bytes) : Config :=
  if cfg.riousbprintCmd = [] then { cfg with riousbprintCmd := usbCmd.take maxTxtString } else cfg

/-- The checks of the printer's options. -/
def validatePrinter (cfg : Config) (usbCmd : Bytes) : Except ExitCode Config :=
  if !isRiousbprintEnabled cfg then .ok cfg
  else if !validateGeneratedDnsLabel cfg.riousbprintInstanceName then .error .invalidDnsLabel
  else if cfg.riousbprintPort = 0 || cfg.pdlDatastreamPort = 0 then .error .invalidServiceType
  else
    let cfg := discoverRiousbprintUsbCmd cfg usbCmd
    if (buildRiousbprintTxtItems cfg).isNone || (buildPdlDatastreamTxtItems cfg).isNone then
      .error .invalidAirportTxt
    else .ok cfg

/-- The checks of the daemon's options before it starts.  No disk is known before the shares file,
whose rows are `rows`; `usbCmd` is the command set read from the printer, or empty. -/
def validateConfig (cfg : Config) (rows : List AdiskShareRow) (usbCmd : Bytes) :
    Except ExitCode Config :=
  if cfg.instanceName = [] || cfg.hostLabel = [] then .error .missingRequiredArgs
  else if !validateGeneratedDnsLabel cfg.instanceName || !validateGeneratedDnsLabel cfg.hostLabel then
    .error .invalidDnsLabel
  else do
    let cfg ← (rows.foldlM addAdiskDiskConfig { cfg with adiskDisks := [] }).elim
      (.error .invalidAdiskDisk) .ok
    if adiskEnabled cfg && (buildAdiskSystemTxt cfg.adiskSysWama).isNone then
      .error .invalidAdiskSystem
    else if cfg.deviceModel ≠ [] && (buildModelTxt cfg.deviceModel).isNone then
      .error .invalidDeviceModel
    else do
      let cfg ← validatePrinter cfg usbCmd
      if isAirportEnabled cfg && (buildAirportTxt cfg).isNone then .error .invalidAirportTxt
      else
        let fqdn ← (buildHostFqdn cfg.hostLabel).elim (.error .invalidDnsLabel) .ok
        return { cfg with hostFqdn := fqdn }

end TimeCapsule.Mdns
