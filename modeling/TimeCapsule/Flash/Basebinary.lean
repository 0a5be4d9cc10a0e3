import TimeCapsule.Lib.Cbc
import TimeCapsule.Flash.Bank

/-!
# Basebinary containers

Apple's firmware container: a header, a payload that may be encrypted, and an Adler-32 checksum of
header and plain payload.  Firmware files nest one container in another.
-/

namespace TimeCapsule.Flash

open Lib

def magicPrefix : Bytes := ascii "APPLE-FIRMWARE" ++ [0]

def encryptedFlag : UInt8 := 0x02

def aesBlockSize : Nat := 16

def aesChunkSize : Nat := 0x8000

def headerSize : Nat := 32

def pycryptodomeBootstrapMessage : String :=
  "Python package pycryptodome is required for basebinary firmware encryption. " ++
  "Run `./tcapsule bootstrap` to install it, then rerun `.venv/bin/tcapsule flash`."

/-- What payloads need beyond the analysis: AES under a key, if the package can be imported. -/
structure PayloadEnv extends FlashEnv where
  aesInstalled : Bool
  aes : (key : Bytes) → BlockCipher

/-! ## Keys -/

structure BasebinaryKey where
  keyId : String
  storedKey : Bytes
  storedKey_length : storedKey.length = aesBlockSize

/-- `BasebinaryKey.from_hex`, for a literal with 32 digits. -/
def BasebinaryKey.fromHex (keyId value : String)
    (h : (bytesOfHex value).length = aesBlockSize) : BasebinaryKey :=
  ⟨keyId, bytesOfHex value, h⟩

/-- `derive_basebinary_key` -/
def BasebinaryKey.derivedKey (key : BasebinaryKey) : Bytes :=
  key.storedKey.mapIdx fun index value => value ^^^ UInt8.ofNat (index + 0x19)

def defaultBasebinaryKeys : List BasebinaryKey :=
  [.fromHex "observed-acpd-78100" "513c1ca5bf035127335f7c2596aa20aa" (by decide +kernel),
   .fromHex "observed-airport5-104-78100" "ec7abae211819b1349880d2035a24d78" (by decide +kernel),
   .fromHex "observed-airport5-105-78100" "87f52f57c573e87499b6d69c8e4bcb8b" (by decide +kernel),
   .fromHex "observed-timecapsule6-109-78100" "cfb15a151a3998b983a5a48aaa859e80" (by decide +kernel),
   .fromHex "observed-k30a-78100" "c025fefa2320b0e985dfac106694db4a" (by decide +kernel),
   .fromHex "observed-k10a-78100" "a66e263e7b751242ac7fa0c90951ed08" (by decide +kernel),
   .fromHex "observed-airport5-117-78100" "74119d5182c7a317db0026e49efde79a" (by decide +kernel),
   .fromHex "observed-k30b-78100" "9d1259ee89f28a2ccfa64697adbb4193" (by decide +kernel),
   .fromHex "observed-j28-79100" "b19937ddcb78b3f151e4e0b48198e6a7" (by decide +kernel),
   .fromHex "airpyrt-107" "5249c351028bf1fd2bd1849e28b23f24" (by decide +kernel),
   .fromHex "airpyrt-108" "bb7deb0970d8ee2e00fa46cb1c3c098e" (by decide +kernel),
   .fromHex "airpyrt-115" "1075e806f4770cd4763bd285a64e9174" (by decide +kernel),
   .fromHex "airpyrt-120" "688cdd3b1b6bdda207b6cec2735292d2" (by decide +kernel)]

/-! ## Header -/

structure BasebinaryHeader where
  ivSuffix : UInt8
  model : UInt32
  version : UInt32
  byte0x18 : UInt8
  byte0x19 : UInt8
  byte0x1a : UInt8
  flags : UInt8
  unk0x1c : UInt32
deriving DecidableEq, Repr

namespace BasebinaryHeader

def encrypted (header : BasebinaryHeader) : Bool := header.flags &&& encryptedFlag ≠ 0

def iv (header : BasebinaryHeader) : Bytes := magicPrefix ++ [header.ivSuffix]

def toBytes (header : BasebinaryHeader) : Bytes :=
  magicPrefix ++ [header.ivSuffix] ++ be32 header.model.toNat ++ be32 header.version.toNat ++
    [header.byte0x18, header.byte0x19, header.byte0x1a, header.flags] ++
    be32 header.unk0x1c.toNat

end BasebinaryHeader

def parseBasebinaryHeader (data : Bytes) : Except FlashError BasebinaryHeader :=
  if data.length ≠ headerSize then
    .error (.basebinary s!"basebinary header must be {headerSize} bytes, got {data.length}")
  else if data.take magicPrefix.length ≠ magicPrefix then
    .error (.basebinary "bad basebinary header magic")
  else
    .ok
      { ivSuffix := data.getD 15 0
        model := UInt32.ofNat (be32At data 16)
        version := UInt32.ofNat (be32At data 20)
        byte0x18 := data.getD 24 0
        byte0x19 := data.getD 25 0
        byte0x1a := data.getD 26 0
        flags := data.getD 27 0
        unk0x1c := UInt32.ofNat (be32At data 28) }

/-! ## Payload encryption -/

/-- The chunks are encrypted one by one, each from the same initialization vector, in CBC mode; the
bytes behind the last whole block of a chunk stay in the clear. -/
def cryptBasebinaryPayload (env : PayloadEnv) (data key iv : Bytes) (decrypt : Bool) :
    Except FlashError Bytes :=
  if data ≠ [] ∧ !env.aesInstalled then .error (.basebinary pycryptodomeBootstrapMessage)
  else
    let crypt := if decrypt then cbcDecryptBytes aesBlockSize (env.aes key) iv
      else cbcEncryptBytes aesBlockSize (env.aes key) iv
    .ok ((chunksOf aesChunkSize data).flatMap (onWholeBlocks aesBlockSize crypt))

def decryptBasebinaryPayload (env : PayloadEnv) (data : Bytes) (key : BasebinaryKey) (iv : Bytes) :
    Except FlashError Bytes :=
  cryptBasebinaryPayload env data key.derivedKey iv true

def encryptBasebinaryPayload (env : PayloadEnv) (data : Bytes) (key : BasebinaryKey) (iv : Bytes) :
    Except FlashError Bytes :=
  cryptBasebinaryPayload env data key.derivedKey iv false

/-! ## Containers -/

structure BasebinaryContainer where
  header : BasebinaryHeader
  payload : Bytes
  checksum : Nat
  key : Option BasebinaryKey

structure NestedBasebinary where
  outer : BasebinaryContainer
  inner : BasebinaryContainer

/-- The loop over the candidate keys. -/
def tryBasebinaryKeys (env : PayloadEnv) (header : BasebinaryHeader)
    (headerBytes rawPayload : Bytes) (storedChecksum : Nat) :
    List BasebinaryKey → Except FlashError BasebinaryContainer
  | [] => .error (.basebinary
      s!"no candidate basebinary key validated checksum for model {header.model}")
  | key :: keys => do
      let payload ← decryptBasebinaryPayload env rawPayload key header.iv
      if adler32 (headerBytes ++ payload) = storedChecksum then
        .ok ⟨header, payload, storedChecksum, some key⟩
      else
        tryBasebinaryKeys env header headerBytes rawPayload storedChecksum keys

def parseBasebinary (env : PayloadEnv) (data : Bytes) (keys : List BasebinaryKey) :
    Except FlashError BasebinaryContainer :=
  let minimumSize := headerSize + 4
  if data.length < minimumSize then
    .error (.basebinary ("not enough data to parse basebinary: " ++
      s!"got {data.length}, need at least {minimumSize}"))
  else do
    let headerBytes := data.take headerSize
    let header ← parseBasebinaryHeader headerBytes
    let rawPayload := slice data headerSize (data.length - 4)
    let storedChecksum := be32At data (data.length - 4)
    if !header.encrypted then
      let checksum := adler32 (headerBytes ++ rawPayload)
      if checksum ≠ storedChecksum then
        .error (.basebinary ("bad basebinary checksum: " ++
          s!"got {hex08 checksum}, expected {hex08 storedChecksum}"))
      else
        .ok ⟨header, rawPayload, storedChecksum, none⟩
    else if keys.isEmpty then
      .error (.basebinary (s!"basebinary model {header.model} is encrypted, " ++
        "but no candidate keys were provided"))
    else
      tryBasebinaryKeys env header headerBytes rawPayload storedChecksum keys

def composeBasebinary (env : PayloadEnv) (header : BasebinaryHeader) (payload : Bytes)
    (key : Option BasebinaryKey) : Except FlashError Bytes :=
  let headerBytes := header.toBytes
  let checksum := adler32 (headerBytes ++ payload)
  let storedPayload : Except FlashError Bytes :=
    if header.encrypted then
      match key with
      | none => .error (.basebinary
          "cannot compose encrypted basebinary without the validated key")
      | some key => encryptBasebinaryPayload env payload key header.iv
    else .ok payload
  storedPayload >>= fun stored => .ok (headerBytes ++ stored ++ be32 checksum)

def isBasebinary (data : Bytes) : Bool :=
  headerSize ≤ data.length && data.take magicPrefix.length = magicPrefix

def parseNestedBasebinary (env : PayloadEnv) (data : Bytes) (keys : List BasebinaryKey) :
    Except FlashError NestedBasebinary := do
  let outer ← parseBasebinary env data keys
  if !isBasebinary outer.payload then
    .error (.basebinary "outer basebinary payload is not another basebinary container")
  else do
    let inner ← parseBasebinary env outer.payload keys
    return ⟨outer, inner⟩

def composeNestedBasebinary (env : PayloadEnv) (template : NestedBasebinary)
    (innerPayload : Bytes) : Except FlashError Bytes := do
  let innerBytes ← composeBasebinary env template.inner.header innerPayload template.inner.key
  composeBasebinary env template.outer.header innerBytes template.outer.key

/-! ## Round trips -/

theorem magicPrefix_eq :
    magicPrefix = [65, 80, 80, 76, 69, 45, 70, 73, 82, 77, 87, 65, 82, 69, 0] := by
  decide +kernel

theorem length_iv (header : BasebinaryHeader) : header.iv.length = aesBlockSize := by
  rw [BasebinaryHeader.iv, magicPrefix_eq]
  rfl

theorem length_toBytes (header : BasebinaryHeader) : header.toBytes.length = headerSize := by
  rw [BasebinaryHeader.toBytes, magicPrefix_eq]
  rfl

theorem ofNat_be32At {w : UInt32} {data : Bytes} {i : Nat}
    (h : slice data i (i + 4) = be32 w.toNat) : UInt32.ofNat (be32At data i) = w := by
  rw [be32At, h, ofBe_be32 w.toNat_lt]
  exact UInt32.ofNat_toNat

theorem parseBasebinaryHeader_toBytes (header : BasebinaryHeader) :
    parseBasebinaryHeader header.toBytes = .ok header := by
  have hmodel : UInt32.ofNat (be32At header.toBytes 16) = header.model :=
    ofNat_be32At (by rw [BasebinaryHeader.toBytes, magicPrefix_eq]; rfl)
  have hversion : UInt32.ofNat (be32At header.toBytes 20) = header.version :=
    ofNat_be32At (by rw [BasebinaryHeader.toBytes, magicPrefix_eq]; rfl)
  have hunk : UInt32.ofNat (be32At header.toBytes 28) = header.unk0x1c :=
    ofNat_be32At (by rw [BasebinaryHeader.toBytes, magicPrefix_eq]; rfl)
  have hmagic : header.toBytes.take magicPrefix.length = magicPrefix := by
    simp only [BasebinaryHeader.toBytes, List.append_assoc, List.take_left]
  rw [parseBasebinaryHeader, if_neg (not_not.mpr (length_toBytes header)),
    if_neg (not_not.mpr hmagic), hmodel, hversion, hunk]
  simp only [BasebinaryHeader.toBytes, magicPrefix_eq]
  rfl

section RoundTrip

variable {env : PayloadEnv} {key : BasebinaryKey} {iv data cipher : Bytes}

theorem crypt_round_trip (hc : (env.aes key.derivedKey).Lawful aesBlockSize)
    (hiv : iv.length = aesBlockSize)
    (h : encryptBasebinaryPayload env data key iv = .ok cipher) :
    decryptBasebinaryPayload env cipher key iv = .ok data := by
  obtain ⟨hinstalled, h⟩ := ite_error_eq_ok.mp h
  obtain rfl := Except.ok.inj h
  have hlen : ∀ c : Bytes, aesBlockSize ∣ c.length →
      (cbcEncryptBytes aesBlockSize (env.aes key.derivedKey) iv c).length = c.length :=
    fun c => length_cbcEncryptBytes (by decide) hc hiv
  have hempty : data = [] →
      (chunksOf aesChunkSize data).flatMap (onWholeBlocks aesBlockSize
        (cbcEncryptBytes aesBlockSize (env.aes key.derivedKey) iv)) = [] := by
    rintro rfl
    rfl
  rw [decryptBasebinaryPayload, cryptBasebinaryPayload, ite_error_eq_ok]
  refine ⟨fun ⟨hne, hni⟩ => hinstalled ⟨fun hd => hne (hempty hd), hni⟩, congrArg Except.ok ?_⟩
  exact flatMap_chunksOf_inverse (by decide) (length_onWholeBlocks hlen)
    (onWholeBlocks_inverse hlen fun c => cbcDecryptBytes_cbcEncryptBytes (by decide) hc hiv) data

variable {header : BasebinaryHeader} {payload stored composed : Bytes} {s : Nat}
  {key? : Option BasebinaryKey} {keys : List BasebinaryKey}

/-- The parts the parser cuts out of header, payload and checksum. -/
theorem assembled_parts (hs : s < 2 ^ 32) (hd : data = header.toBytes ++ stored ++ be32 s) :
    data.length = headerSize + stored.length + 4 ∧ data.take headerSize = header.toBytes ∧
      slice data headerSize (data.length - 4) = stored ∧ be32At data (data.length - 4) = s := by
  have hheader := length_toBytes header
  have hlen : data.length = headerSize + stored.length + 4 := by
    simp only [hd, List.length_append, hheader, length_be32]
  refine ⟨hlen, ?_, ?_, ?_⟩
  · rw [hd, List.append_assoc, List.take_left' hheader]
  · rw [hlen, Nat.add_sub_cancel, slice_add, hd, List.append_assoc, List.drop_left' hheader,
      List.take_left]
  · rw [hlen, Nat.add_sub_cancel, be32At, slice_add, hd,
      List.drop_left' (by rw [List.length_append, hheader]),
      List.take_of_length_le (by simp), ofBe_be32 hs]

theorem parseBasebinary_plain (henc : header.encrypted = false) :
    parseBasebinary env
      (header.toBytes ++ payload ++ be32 (adler32 (header.toBytes ++ payload))) keys =
      .ok ⟨header, payload, adler32 (header.toBytes ++ payload), none⟩ := by
  obtain ⟨hlen, htake, hraw, hsum⟩ := assembled_parts (adler32_lt (header.toBytes ++ payload)) rfl
  rw [parseBasebinary, if_neg (by rw [hlen]; omega), htake, hraw, hsum]
  simp only [parseBasebinaryHeader_toBytes, bind, Except.bind, henc, Bool.not_false, if_true]
  exact if_neg (not_not.mpr rfl)

theorem parseBasebinary_encrypted (henc : header.encrypted = true)
    (hdec : decryptBasebinaryPayload env stored key header.iv = .ok payload) :
    parseBasebinary env
      (header.toBytes ++ stored ++ be32 (adler32 (header.toBytes ++ payload))) (key :: keys) =
      .ok ⟨header, payload, adler32 (header.toBytes ++ payload), some key⟩ := by
  obtain ⟨hlen, htake, hraw, hsum⟩ := assembled_parts (adler32_lt (header.toBytes ++ payload)) rfl
  rw [parseBasebinary, if_neg (by rw [hlen]; omega), htake, hraw, hsum]
  simp only [parseBasebinaryHeader_toBytes, bind, Except.bind, henc, Bool.not_true,
    Bool.false_eq_true, if_false, List.isEmpty_cons, tryBasebinaryKeys, hdec, if_true]

/-- A composed container parses back under its own key. -/
theorem parseBasebinary_composeBasebinary
    (hc : ∀ key ∈ key?, (env.aes key.derivedKey).Lawful aesBlockSize)
    (h : composeBasebinary env header payload key? = .ok composed) :
    ∃ c, parseBasebinary env composed key?.toList = .ok c ∧
      c.header = header ∧ c.payload = payload := by
  obtain ⟨stored, hstored, h⟩ := bind_eq_ok.mp h
  obtain rfl := Except.ok.inj h
  cases henc : header.encrypted with
  | false =>
    rw [henc] at hstored
    obtain rfl := Except.ok.inj hstored
    exact ⟨_, parseBasebinary_plain henc, rfl, rfl⟩
  | true =>
    rw [henc] at hstored
    cases key? with
    | none => cases hstored
    | some key =>
      have hdec := crypt_round_trip (hc key rfl) (length_iv header) hstored
      exact ⟨_, parseBasebinary_encrypted henc hdec, rfl, rfl⟩

end RoundTrip

end TimeCapsule.Flash
