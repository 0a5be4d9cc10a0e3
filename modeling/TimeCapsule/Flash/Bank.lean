import TimeCapsule.Lib.Except
import TimeCapsule.Lib.Gzip
import TimeCapsule.Lib.Text
import TimeCapsule.Flash.Login

/-!
# Firmware banks

The analysis of a firmware bank dump: the footer with its Adler-32 checksum, the gzip member with
the decompressed image, and the patch that is rebuilt into the member's place.
-/

namespace TimeCapsule.Flash

open Lib

/-! ## Environment and errors -/

/-- What the analysis takes from outside: the gzip codec (zlib, zopfli), whether the zopfli package
can be imported, and the Unicode database. -/
structure FlashEnv where
  codec : GzipCodec
  zopfliInstalled : Bool
  unicode : UnicodeData

inductive FlashError where
  | analysis (message : String)
  | basebinary (message : String)
  | assertion
deriving DecidableEq, Repr

def gzipMagic : Bytes := [0x1f, 0x8b, 0x08]

def gzipReservedFlagBits : UInt8 := 0xE0

def footerScanBytes : Nat := 4096

def minFooterEndOffset : Nat := 16

def zopfliBootstrapMessage : String :=
  "Python package zopfli is required for flash patch compression. " ++
  "Run `./tcapsule bootstrap` to install it, then rerun `.venv/bin/tcapsule flash`."

/-! ## Footer -/

structure FooterInfo where
  offset : Nat
  checksum : Nat
  endOffset : Nat
deriving DecidableEq, Repr

/-- One turn of the footer scan, which reads two words at the start of the window. -/
def footerAt (data : Bytes) (offset : Nat) (window : Bytes) : Option FooterInfo :=
  let checksum := be32At window 0
  let endOffset := be32At window 4
  if endOffset < minFooterEndOffset then none
  else if data.length < endOffset then none
  else if offset ≤ endOffset then none
  else if adler32 (data.take endOffset) = checksum then some ⟨offset, checksum, endOffset⟩
  else none

/-- The loop over `count` offsets; `window` is `data[offset:]`. -/
def scanFooters (data : Bytes) : (count offset : Nat) → (window : Bytes) → List FooterInfo
  | 0, _, _ => []
  | count + 1, offset, window =>
      (footerAt data offset window).toList ++ scanFooters data count (offset + 1) window.tail

def footerMatches (data : Bytes) : List FooterInfo :=
  let start := data.length - footerScanBytes
  scanFooters data (data.length - 7 - start) start (data.drop start)

def findFooter (data : Bytes) : Except FlashError FooterInfo :=
  if data.length < 8 then
    .error (.analysis "expected exactly one valid footer, found 0")
  else
    match footerMatches data with
    | [footer] => .ok footer
    | found => .error (.analysis s!"expected exactly one valid footer, found {found.length}")

/-! ## Gzip member -/

structure GzipMemberInfo where
  offset : Nat
  consumedLength : Nat
  decompressed : Bytes
deriving DecidableEq, Repr

def GzipMemberInfo.endOffset (member : GzipMemberInfo) : Nat :=
  member.offset + member.consumedLength

def decompressGzipMember (env : FlashEnv) (data : Bytes) (offset : Nat) : Option GzipMemberInfo :=
  let remaining := data.drop offset
  match env.codec.decompress remaining with
  | none => none
  | some inflated =>
      let consumed := remaining.length - inflated.unused.length
      if consumed = 0 then none else some ⟨offset, consumed, inflated.output⟩

def hasValidGzipHeaderFlags (data : Bytes) (offset : Nat) : Bool :=
  match data[offset + gzipMagic.length]? with
  | none => false
  | some flags => flags &&& gzipReservedFlagBits = 0

/-- The member found at one of the offsets that hold the magic. -/
def gzipMemberAt (env : FlashEnv) (data : Bytes) (endOffset offset : Nat) :
    Option GzipMemberInfo :=
  if hasValidGzipHeaderFlags data offset then
    match decompressGzipMember env data offset with
    | none => none
    | some member => if member.endOffset ≤ endOffset then some member else none
  else none

def gzipMatches (env : FlashEnv) (data : Bytes) (endOffset : Nat) : List GzipMemberInfo :=
  (findAll data gzipMagic endOffset).filterMap (gzipMemberAt env data endOffset)

def findGzipMember (env : FlashEnv) (data : Bytes) (footer : FooterInfo) :
    Except FlashError GzipMemberInfo :=
  match gzipMatches env data footer.endOffset with
  | [member] => .ok member
  | found => .error (.analysis s!"expected exactly one valid gzip member, found {found.length}")

def classifyFirmwarePrefixLogin (env : FlashEnv) (data : Bytes) : Except FlashError LoginInfo := do
  let footer : FooterInfo := ⟨data.length, 0, data.length⟩
  let gzipMember ← findGzipMember env data footer
  return classifyLogin gzipMember.decompressed

/-! ## Patch -/

structure CompressionResult where
  method : String
  data : Bytes
deriving DecidableEq, Repr

def CompressionResult.length (compression : CompressionResult) : Nat := compression.data.length

structure PatchBuildInfo where
  targetBankSha256 : String
  patchedImageSha256 : String
  patchedGzipLength : Nat
  compressionMethod : String
  changedRangeStart : Nat
  changedRangeEnd : Nat
  footerChecksum : Nat
  targetBank : Bytes
deriving DecidableEq, Repr

def compressWithZopfliGzip (env : FlashEnv) (data : Bytes) : Except FlashError CompressionResult :=
  if env.zopfliInstalled then .ok ⟨"zopfli-gzip", env.codec.compress data⟩
  else .error (.analysis zopfliBootstrapMessage)

def compressPatchedImageWithZopfli (env : FlashEnv) (data : Bytes) (maxLength : Nat) :
    Except FlashError CompressionResult := do
  let compression ← compressWithZopfliGzip env data
  if maxLength < compression.length then
    .error (.analysis ("patched gzip member is too large: " ++
      s!"{compression.method}={compression.length}; limit={maxLength}"))
  else
    .ok compression

/-- The indexes at which two images of one length differ. -/
def changedIndexes (old new : Bytes) : List Nat :=
  ((old.zip new).zipIdx.filter fun entry => entry.1.1 ≠ entry.1.2).map Prod.snd

/-- The bank with a compressed image in the member's place, filled up with zeros. -/
def rebuiltBank (data : Bytes) (gzipMember : GzipMemberInfo) (patchedGzip : Bytes) : Bytes :=
  setSlice data gzipMember.offset gzipMember.endOffset
    (patchedGzip ++ zeros (gzipMember.consumedLength - patchedGzip.length))

/-- The bank with the checksum of its first `end_offset` bytes in the footer. -/
def withFooterChecksum (data : Bytes) (footer : FooterInfo) : Bytes :=
  setSlice data footer.offset (footer.offset + 4) (be32 (adler32 (data.take footer.endOffset)))

def buildPatch (env : FlashEnv) (data : Bytes) (footer : FooterInfo) (gzipMember : GzipMemberInfo)
    (login : LoginInfo) : Except FlashError (Option PatchBuildInfo) :=
  if !login.patchable then .ok none else
  match login.offset, login.length with
  | some offset, some length =>
      if length < patchedLoginScript.length then
        .error (.analysis "patched LOGIN script does not fit in the original script region")
      else
        let patched := patchedImage gzipMember.decompressed offset length
        let changed := changedIndexes gzipMember.decompressed patched
        match changed.head?, changed.getLast? with
        | some changedStart, some changedLast =>
            if changedStart < offset ∨ offset + length < changedLast + 1 then
              .error (.analysis
                "decompressed patch changed bytes outside the LOGIN script region")
            else do
              let compression ←
                compressPatchedImageWithZopfli env patched gzipMember.consumedLength
              let rebuilt := rebuiltBank data gzipMember compression.data
              let checksum := adler32 (rebuilt.take footer.endOffset)
              let target := withFooterChecksum rebuilt footer
              if (decompressGzipMember env target gzipMember.offset).map (·.decompressed) ≠
                  some patched then
                .error (.analysis ("patched gzip member did not round-trip to the expected " ++
                  "decompressed image"))
              else
                .ok (some
                  { targetBankSha256 := sha256Hex target
                    patchedImageSha256 := sha256Hex patched
                    patchedGzipLength := compression.length
                    compressionMethod := compression.method
                    changedRangeStart := changedStart
                    changedRangeEnd := changedLast + 1
                    footerChecksum := checksum
                    targetBank := target })
        | _, _ => .error (.analysis "patch did not change the decompressed image")
  | _, _ => .error .assertion

/-! ## Analysis -/

structure BankAnalysis where
  name : String
  device : String
  data : Bytes
  sha256 : String
  size : Nat
  footer : FooterInfo
  footerValid : Bool
  acpChecksum : Option Nat
  acpChecksumMatches : Option Bool
  gzipMember : GzipMemberInfo
  decompressedSha256 : String
  login : LoginInfo
  kernelIdentityMatch : Bool
  kernelIdentityDetail : String
  activeSelectionFailures : List String
  patch : Option PatchBuildInfo
  patchError : Option String
deriving DecidableEq, Repr

def identityMatches (env : FlashEnv) (decompressed : Bytes) (osRelease : String) : Bool × String :=
  let release := strip osRelease
  if release = "" then (false, "missing running OS release")
  else
    let releaseBytes := encodeAsciiIgnore release
    if releaseBytes ≠ [] ∧ (find decompressed releaseBytes 0 decompressed.length).isSome then
      (true, s!"running OS release {reprStr env.unicode release} found in decompressed image")
    else
      (false, s!"running OS release {reprStr env.unicode release} not found in decompressed image")

def checksumPropertyForBank (name : String) : String :=
  if name = "primary" then "cks1" else if name = "secondary" then "cks2" else "ACP checksum"

def activeSelectionFailures (name : String) (footerValid : Bool) (footerChecksum : Nat)
    (acpChecksum : Option Nat) (acpChecksumMatches : Option Bool) (kernelIdentityMatch : Bool)
    (kernelIdentityDetail : String) : List String :=
  let checksumProperty := checksumPropertyForBank name
  (if footerValid then [] else ["footer checksum invalid"]) ++
  (match acpChecksumMatches with
    | none => [s!"{checksumProperty} missing"]
    | some true => []
    | some false =>
        let detail := (acpChecksum.map hex08).getD "unknown"
        [s!"{checksumProperty} mismatch: acp={detail} footer={hex08 footerChecksum}"]) ++
  (if kernelIdentityMatch then [] else [kernelIdentityDetail])

/-- The text of a `FlashAnalysisError`; other errors are not caught with it. -/
def withPatchCandidate (env : FlashEnv) (bank : BankAnalysis) : Except FlashError BankAnalysis :=
  match buildPatch env bank.data bank.footer bank.gzipMember bank.login with
  | .error (.analysis message) => .ok { bank with patch := none, patchError := some message }
  | .error other => .error other
  | .ok patch => .ok { bank with patch := patch, patchError := none }

def analyzeBank (env : FlashEnv) (name device : String) (data : Bytes) (acpChecksum : Option Nat)
    (osRelease : String) (buildPatchCandidate : Bool) : Except FlashError BankAnalysis := do
  let footer ← findFooter data
  let footerValid := adler32 (data.take footer.endOffset) = footer.checksum
  let acpMatches := acpChecksum.map fun checksum => decide (checksum = footer.checksum)
  let gzipMember ← findGzipMember env data footer
  let login := classifyLogin gzipMember.decompressed
  let identity := identityMatches env gzipMember.decompressed osRelease
  let analysis : BankAnalysis :=
    { name := name
      device := device
      data := data
      sha256 := sha256Hex data
      size := data.length
      footer := footer
      footerValid := footerValid
      acpChecksum := acpChecksum
      acpChecksumMatches := acpMatches
      gzipMember := gzipMember
      decompressedSha256 := sha256Hex gzipMember.decompressed
      login := login
      kernelIdentityMatch := identity.1
      kernelIdentityDetail := identity.2
      activeSelectionFailures := activeSelectionFailures name footerValid footer.checksum
        acpChecksum acpMatches identity.1 identity.2
      patch := none
      patchError := none }
  if buildPatchCandidate then withPatchCandidate env analysis else .ok analysis

end TimeCapsule.Flash
