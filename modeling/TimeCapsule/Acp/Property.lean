import TimeCapsule.Lib.Checksum
import TimeCapsule.Lib.Text

/-!
# The properties that a device returns

`get_property_int` asks for a property over ACP.  The reply is a header, and behind it the elements of
the properties: all in a body of the announced size with its checksum, or one after another as they
come.
-/

namespace TimeCapsule.Acp

open Lib

/-! ## Errors -/

/-- The errors of the module with their messages, and the one of `str.encode`. -/
inductive AcpError where
  | connection (message : String)
  | auth (message : String)
  | protocol (message : String)
  | property (message : String)
  | unicodeEncode
deriving DecidableEq, Repr

def hex (n : Nat) : String := "0x" ++ String.ofList (Nat.toDigits 16 n)

/-- `_format_error_code`, and the same as the format `#x` of a signed number. -/
def formatErrorCode (errorCode : Int) : String :=
  if errorCode < 0 then "-" ++ hex errorCode.natAbs else hex errorCode.natAbs

/-! ## The socket -/

/-- What the peer still sends, the error of `recv` behind it if the peer does not close the connection
there, and by how many bytes more than one the next calls of `recv` return at most. -/
structure Socket where
  pending : Bytes
  failure : Option String
  extra : List Nat
deriving Repr

def Socket.recv (s : Socket) (size : Nat) : Except AcpError (Bytes × Socket) :=
  if s.pending = [] ∧ s.failure.isSome then
    .error (.connection ("ACP receive failed: " ++ s.failure.getD ""))
  else
    let count := min size (s.extra.head?.elim size (· + 1))
    .ok (s.pending.take count, { s with pending := s.pending.drop count, extra := s.extra.tail })

def connectionClosed (size : Nat) : AcpError :=
  .connection ("ACP connection closed while reading " ++ toString size ++ " bytes")

/-- The loop of `_recv_exact`; a turn takes at least one byte. -/
def recvLoop (size : Nat) : (fuel remaining : Nat) → Bytes → Socket →
    Except AcpError (Bytes × Socket)
  | _, 0, chunks, s => .ok (chunks, s)
  | 0, _ + 1, _, _ => .error (connectionClosed size)
  | fuel + 1, remaining + 1, chunks, s => do
      let x ← s.recv (remaining + 1)
      if x.1 = [] then .error (connectionClosed size)
      else recvLoop size fuel (remaining + 1 - x.1.length) (chunks ++ x.1) x.2

def recvExact (s : Socket) (size : Nat) : Except AcpError (Bytes × Socket) :=
  recvLoop size size size [] s

/-! ## The header of a message -/

def acpMagic : Bytes := ascii "acpp"
def acpVersion : Int := 0x00030001
def supportedAcpResponseVersions : List Int := [0x00000001, 0x00030000, acpVersion]
def commandGetprop : Int := 0x14
def headerSize : Nat := 128

/-- `_signed_i32` -/
def signedI32 (value : Nat) : Int :=
  let value := value % 0x100000000
  if 0x80000000 ≤ value then (value : Int) - 0x100000000 else value

def adler32I32 (data : Bytes) : Int := signedI32 (adler32 data)

/-- `struct.pack(">i", n)` -/
def i32 (n : Int) : Bytes := be32 (n % 0x100000000).toNat

/-- `struct.unpack_from(">i", data, off)` -/
def i32At (data : Bytes) (off : Nat) : Int := signedI32 (be32At data off)

structure AcpMessageHeader where
  version : Int
  flags : Int
  command : Int
  errorCode : Int
  bodySize : Int
  bodyChecksum : Int
deriving DecidableEq, Repr

/-- `HEADER.pack` -/
def packHeader (h : AcpMessageHeader) (headerChecksum unused : Int) (key : Bytes) : Bytes :=
  acpMagic ++ i32 h.version ++ i32 headerChecksum ++ i32 h.bodyChecksum ++ i32 h.bodySize ++
    i32 h.flags ++ i32 unused ++ i32 h.command ++ i32 h.errorCode ++ zeros 12 ++ key ++ zeros 48

/-- `_compose_header`, with the key that it makes from the password. -/
def composeHeader (header : AcpMessageHeader) (key : Bytes) : Bytes :=
  packHeader header (adler32I32 (packHeader header 0 0 key)) 0 key

/-- The fields of `HEADER.unpack`. -/
def unpackHeader (data : Bytes) : AcpMessageHeader :=
  { version := i32At data 4
    flags := i32At data 20
    command := i32At data 28
    errorCode := i32At data 32
    bodySize := i32At data 16
    bodyChecksum := i32At data 12 }

def parseHeader (data : Bytes) : Except AcpError AcpMessageHeader :=
  let header := unpackHeader data
  let expectedChecksum := adler32I32 (packHeader header 0 (i32At data 24) (slice data 48 80))
  if data.length ≠ headerSize then
    .error (.protocol ("ACP header has " ++ toString data.length ++ " bytes, expected 128"))
  else if data.take 4 ≠ acpMagic then .error (.protocol "ACP response had invalid magic")
  else if header.version ∉ supportedAcpResponseVersions then
    .error (.protocol ("ACP response had unsupported version " ++ formatErrorCode header.version))
  else if i32At data 8 ≠ expectedChecksum then
    .error (.protocol ("ACP response header checksum mismatch: got " ++
      formatErrorCode (i32At data 8) ++ ", expected " ++ formatErrorCode expectedChecksum))
  else .ok header

def readReplyHeader (s : Socket) (expectedCommand : Int) :
    Except AcpError (AcpMessageHeader × Socket) := do
  let x ← recvExact s headerSize
  let header ← parseHeader x.1
  if header.command ≠ expectedCommand then
    .error (.protocol ("ACP response command mismatch: got " ++ formatErrorCode header.command ++
      ", expected " ++ formatErrorCode expectedCommand))
  else if header.errorCode ≠ 0 then
    .error (.auth ("ACP command failed with error_code " ++ formatErrorCode header.errorCode ++
      " (likely wrong AirPort admin password)"))
  else .ok (header, x.2)

def readReplyBody (s : Socket) (header : AcpMessageHeader) : Except AcpError (Bytes × Socket) :=
  if header.bodySize = -1 ∨ header.bodySize = 0 then .ok ([], s)
  else if header.bodySize < -1 then
    .error (.protocol ("ACP response had invalid body_size " ++ toString header.bodySize))
  else do
    let x ← recvExact s header.bodySize.toNat
    if adler32I32 x.1 ≠ header.bodyChecksum then
      .error (.protocol ("ACP response body checksum mismatch: got " ++
        formatErrorCode (adler32I32 x.1) ++ ", expected " ++ formatErrorCode header.bodyChecksum))
    else .ok x

/-! ## Elements -/

def propertyHeaderSize : Nat := 12

/-- A name has four bytes, and the one of zeros is none. -/
structure PropertyHeader where
  name : Option String
  flags : Nat
  size : Nat
deriving DecidableEq, Repr

/-- `raw_name.decode("ascii", errors="replace")` -/
def decodeAscii (raw : Bytes) : String :=
  String.ofList (raw.map fun b => if b.toNat < 128 then Char.ofNat b.toNat else '\uFFFD')

/-- `_parse_property_header`, of as many bytes as its callers read. -/
def parsePropertyHeader (data : Bytes) : PropertyHeader :=
  let rawName := data.take 4
  { name := if rawName = zeros 4 then none else some (decodeAscii rawName)
    flags := be32At data 4
    size := be32At data 8 }

/-- `name or '<end>'`; a name of four bytes is not empty. -/
def PropertyHeader.label (header : PropertyHeader) : String := header.name.getD "<end>"

/-- The result of a property, unless its flag for an error is set. -/
def propertyResult (header : PropertyHeader) (data : Bytes) : Except AcpError (PropertyHeader × Bytes) :=
  if header.flags % 2 = 1 then
    if data.length = 4 then
      .error (.property ("ACP property " ++ header.label ++ " failed with error_code " ++
        formatErrorCode (i32At data 0)))
    else .error (.property ("ACP property " ++ header.label ++ " failed"))
  else .ok (header, data)

/-- The result at the offset, and the offset behind it. -/
def parsePropertyResultFromBody (body : Bytes) (offset : Nat) :
    Except AcpError ((PropertyHeader × Bytes) × Nat) :=
  let endHeader := offset + propertyHeaderSize
  if body.length < endHeader then
    .error (.protocol ("ACP property header at offset " ++ toString offset ++
      " extends past body size " ++ toString body.length))
  else
    let header := parsePropertyHeader (slice body offset endHeader)
    let endValue := endHeader + header.size
    if body.length < endValue then
      .error (.protocol ("ACP property " ++ header.label ++ " value extends past body size " ++
        toString body.length))
    else (propertyResult header (slice body endHeader endValue)).map (·, endValue)

/-- The loop of `_iter_property_results_from_body`; a turn moves the offset on. -/
def propertyResultsFrom (body : Bytes) : (fuel offset : Nat) →
    Except AcpError (List (PropertyHeader × Bytes))
  | 0, _ => .ok []
  | fuel + 1, offset =>
      if offset < body.length then do
        let x ← parsePropertyResultFromBody body offset
        let results ← propertyResultsFrom body fuel x.2
        .ok (x.1 :: results)
      else .ok []

def iterPropertyResultsFromBody (body : Bytes) : Except AcpError (List (PropertyHeader × Bytes)) :=
  propertyResultsFrom body body.length 0

def readPropertyResult (s : Socket) : Except AcpError ((PropertyHeader × Bytes) × Socket) := do
  let x ← recvExact s propertyHeaderSize
  let header := parsePropertyHeader x.1
  let y ← recvExact x.2 header.size
  (propertyResult header y.1).map (·, y.2)

/-- The results of a body, or none when they are still to be read. -/
def readPropertyResults (s : Socket) (header : AcpMessageHeader) :
    Except AcpError (Option (List (PropertyHeader × Bytes))) :=
  if header.bodySize = -1 ∨ header.bodySize = 0 then .ok none
  else do
    let x ← readReplyBody s header
    let results ← iterPropertyResultsFromBody x.1
    .ok (some results)

/-! ## The property asked for -/

/-- `name.encode("ascii")` -/
def encodeAscii (name : String) : Option Bytes :=
  if name.toList.all fun c => c.toNat < 128 then some (name.toList.map fun c => UInt8.ofNat c.toNat)
  else none

/-- `_compose_property_element(name, None)` -/
def composePropertyElement (u : UnicodeData) (name : String) : Except AcpError Bytes :=
  match encodeAscii name with
  | none => .error .unicodeEncode
  | some nameBytes =>
      if nameBytes.length ≠ 4 then
        .error (.property ("ACP property names must be exactly 4 bytes: " ++ reprStr u name))
      else .ok (nameBytes ++ be32 0 ++ be32 4 ++ zeros 4)

def notReturned (name : String) : Except AcpError Nat :=
  .error (.property ("ACP property " ++ name ++ " was not returned"))

/-- What one result means for the search: how it ends there, or none to go on. -/
def searchResult (name : String) (result : PropertyHeader × Bytes) : Option (Except AcpError Nat) :=
  if result.1.name = none ∧ result.2 = zeros 4 then some (notReturned name)
  else if result.1.name = some name then
    if result.2.length ≠ 4 then
      some (.error (.protocol ("ACP property " ++ name ++ " returned " ++ toString result.2.length ++
        " bytes, expected 4")))
    else some (.ok (ofBe result.2))
  else none

def searchResults (name : String) : List (PropertyHeader × Bytes) → Except AcpError Nat
  | [] => notReturned name
  | result :: results => (searchResult name result).getD (searchResults name results)

/-- The search when each result is read only once the ones before it did not end it. -/
def searchStream (name : String) : (fuel : Nat) → Socket → Except AcpError Nat
  | 0, _ => notReturned name
  | fuel + 1, s => do
      let x ← readPropertyResult s
      (searchResult name x.1).getD (searchStream name fuel x.2)

/-- `get_property_int`, from when the request is sent: the socket holds the reply. -/
def getPropertyInt (u : UnicodeData) (name : String) (s : Socket) : Except AcpError Nat := do
  let _ ← composePropertyElement u name
  let x ← readReplyHeader s commandGetprop
  let results ← readPropertyResults x.2 x.1
  match results with
  | none => searchStream name (x.2.pending.length + 1) x.2
  | some results => searchResults name results

end TimeCapsule.Acp
