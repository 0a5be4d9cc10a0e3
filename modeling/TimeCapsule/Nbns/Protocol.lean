import TimeCapsule.Lib.Checked

/-!
# The NetBIOS name service

What `maybe_respond_to_query_addr` sends for a datagram.  Every read of the datagram is checked.
-/

namespace TimeCapsule.Nbns

open Lib

def bufSize : Nat := 576
def sizeofNbnsHeader : Nat := 12

def dnsClassIn : UInt16 := 1
def nbTypeNull : UInt16 := 0x000A
def nbTypeNb : UInt16 := 0x0020
def nbTypeNbstat : UInt16 := 0x0021
def nbnsFlagResponse : UInt16 := 0x8000
def nbnsFlagAuthoritative : UInt16 := 0x0400
def nbnsFlagRecursionAvailable : UInt16 := 0x0080
def nbnsFlagBroadcast : UInt16 := 0x0010
def nbnsRcodePositive : UInt16 := 0x0000
def nbnsRcodeNameError : UInt16 := 0x0003
def nbnsSuffixWorkstation : UInt8 := 0x00
def nbnsSuffixServer : UInt8 := 0x20
def nbnsNameFlagsActive : UInt16 := 0x0400
def nbnsNodeStatusNameCount : UInt8 := 2
def nbnsNodeStatusStatsLen : Nat := 46

def space : UInt8 := 0x20
def asterisk : UInt8 := 0x2a

/-- `validate_netbios_name`; the name is a C string. -/
def validateNetbiosName (name : Bytes) : Bool :=
  !name.isEmpty && name.length ≤ 15 && name.all fun ch => !(ch < 0x20 || ch == 0x7f)

/-- `struct config`, its name validated by `nbns_main`. -/
structure Config where
  netbiosName : Bytes
  ipv4Addr : UInt32
  ttl : UInt32
  valid : validateNetbiosName netbiosName

/-- `struct nbns_header`, in host order. -/
structure NbnsHeader where
  id : UInt16
  flags : UInt16
  qdcount : UInt16
  ancount : UInt16
  nscount : UInt16
  arcount : UInt16
deriving DecidableEq, Repr

/-- `memcpy(&header, buf, sizeof(header))` -/
def readHeader (buf : Bytes) : Checked NbnsHeader := do
  let id ← wordAt buf 0
  let flags ← wordAt buf 2
  let qdcount ← wordAt buf 4
  let ancount ← wordAt buf 6
  let nscount ← wordAt buf 8
  let arcount ← wordAt buf 10
  .ok ⟨id, flags, qdcount, ancount, nscount, arcount⟩

def NbnsHeader.encode (header : NbnsHeader) : Bytes :=
  be16 header.id.toNat ++ be16 header.flags.toNat ++ be16 header.qdcount.toNat ++
    be16 header.ancount.toNat ++ be16 header.nscount.toNat ++ be16 header.arcount.toNat

/-! ## Names -/

/-- `toupper` of the C locale. -/
def toUpper (ch : UInt8) : UInt8 := if 0x61 ≤ ch ∧ ch ≤ 0x7a then ch - 0x20 else ch

def normalizeNetbiosName (name : Bytes) : Bytes :=
  (List.range 15).map fun i =>
    if i < name.length ∧ name.getD i 0 ≠ 0 then toUpper (name.getD i 0) else space

def namesMatch (configured queried : Bytes) : Bool :=
  (List.range 15).all fun i => configured.getD i 0 == toUpper (queried.getD i 0)

def nameIsWildcard (queried : Bytes) : Bool :=
  queried.getD 0 0 == asterisk && (List.range' 1 14).all fun i => queried.getD i 0 == space

/-- A half of an encoded byte: one of the letters from `A` to `P`. -/
def isHalf (ch : UInt8) : Bool := 0x41 ≤ ch && ch ≤ 0x50

/-- The loop of `decode_netbios_question_name`, from the offset on. -/
def decodeHalves (buf : Bytes) : (count off : Nat) → Checked (Option Bytes)
  | 0, _ => .ok (some [])
  | count + 1, off => do
      let hi ← byteAt buf off
      if !isHalf hi then .ok none
      else do
        let lo ← byteAt buf (off + 1)
        if !isHalf lo then .ok none
        else do
          let rest ← decodeHalves buf count (off + 2)
          .ok (rest.map (((hi - 0x41) <<< 4 ||| (lo - 0x41)) :: ·))

/-- The name in `out` and the suffix. -/
def decodeNetbiosQuestionName (buf : Bytes) (off encodedLen : Nat) : Checked (Option (Bytes × UInt8)) :=
  if encodedLen ≠ 32 then .ok none
  else (decodeHalves buf 16 off).map (·.map fun bytes => (bytes.take 15, bytes.getD 15 0))

/-- The loop over the labels of the scope; the fuel is the number of bytes from the offset on. -/
def skipLabels (buf : Bytes) : (fuel off : Nat) → Checked (Option Nat)
  | 0, _ => .ok none
  | fuel + 1, off =>
      if buf.length ≤ off then .ok none
      else do
        let labelLen ← byteAt buf off
        if labelLen = 0 then .ok (some (off + 1))
        else if labelLen &&& 0xC0 ≠ 0 || 63 < labelLen || buf.length < off + 1 + labelLen.toNat then .ok none
        else skipLabels buf fuel (off + 1 + labelLen.toNat)

/-- What `parse_question_name` returns. -/
structure QuestionName where
  queriedName : Bytes
  suffix : UInt8
  endOff : Nat
deriving DecidableEq, Repr

def parseQuestionName (buf : Bytes) (questionNameOff : Nat) : Checked (Option QuestionName) :=
  if buf.length ≤ questionNameOff then .ok none
  else do
    let first ← byteAt buf questionNameOff
    if first ≠ 32 then .ok none
    else if buf.length < questionNameOff + 1 + 32 then .ok none
    else do
      let decoded ← decodeNetbiosQuestionName buf (questionNameOff + 1) 32
      decoded.elim (.ok none) fun name => do
        let endOff ← skipLabels buf (buf.length - (questionNameOff + 33)) (questionNameOff + 33)
        .ok (endOff.map fun endOff => ⟨name.1, name.2, endOff⟩)

/-! ## Responses -/

def buildResourceResponse (outLen : Nat) (request : Bytes) (questionNameOff questionNameEndOff : Nat)
    (responseFlags answerCount rrTypeValue : UInt16) (ttl : UInt32) (rdata : Bytes) :
    Checked (Option Bytes) :=
  if request.length < sizeofNbnsHeader || request.length < questionNameEndOff ||
      questionNameEndOff ≤ questionNameOff then .ok none
  else do
    let rrNameLen := questionNameEndOff - questionNameOff
    let header ← readHeader request
    let responseHeader : NbnsHeader := ⟨header.id, responseFlags, 0, answerCount, 0, 0⟩
    if outLen < sizeofNbnsHeader then .ok none
    else if outLen < sizeofNbnsHeader + rrNameLen then .ok none
    else do
      let name ← bytesAt request questionNameOff rrNameLen
      if outLen < sizeofNbnsHeader + rrNameLen + 10 + rdata.length then .ok none
      else .ok (some (responseHeader.encode ++ name ++ be16 rrTypeValue.toNat ++ be16 dnsClassIn.toNat ++
        be32 ttl.toNat ++ be16 rdata.length ++ rdata))

def buildPositiveResponse (outLen : Nat) (request : Bytes) (questionNameOff questionNameEndOff : Nat)
    (ttl ipv4Addr : UInt32) : Checked (Option Bytes) :=
  buildResourceResponse outLen request questionNameOff questionNameEndOff
    (nbnsFlagResponse ||| nbnsFlagAuthoritative ||| nbnsFlagRecursionAvailable ||| nbnsRcodePositive) 1
    nbTypeNb ttl (be16 0 ++ be32 ipv4Addr.toNat)

def buildNegativeQueryResponse (outLen : Nat) (request : Bytes)
    (questionNameOff questionNameEndOff : Nat) : Checked (Option Bytes) :=
  buildResourceResponse outLen request questionNameOff questionNameEndOff
    (nbnsFlagResponse ||| nbnsFlagAuthoritative ||| nbnsFlagRecursionAvailable ||| nbnsRcodeNameError) 0
    nbTypeNull 0 []

def appendNodeStatusName (normalizedName : Bytes) (suffix : UInt8) : Bytes :=
  normalizedName.take 15 ++ [suffix] ++ be16 nbnsNameFlagsActive.toNat

def buildNodeStatusResponse (outLen : Nat) (request : Bytes) (questionNameOff questionNameEndOff : Nat)
    (netbiosName : Bytes) : Checked (Option Bytes) :=
  buildResourceResponse outLen request questionNameOff questionNameEndOff
    (nbnsFlagResponse ||| nbnsFlagAuthoritative ||| nbnsRcodePositive) 1 nbTypeNbstat 0
    ([nbnsNodeStatusNameCount] ++
      appendNodeStatusName (normalizeNetbiosName netbiosName) nbnsSuffixWorkstation ++
      appendNodeStatusName (normalizeNetbiosName netbiosName) nbnsSuffixServer ++
      zeros nbnsNodeStatusStatsLen)

/-! ## Queries -/

/-- The part of `maybe_respond_to_query_addr` behind the name of the question. -/
def respondToQuestion (cfg : Config) (buf : Bytes) (flags : UInt16) (question : QuestionName) :
    Checked (Option Bytes) :=
  let normalizedName := normalizeNetbiosName cfg.netbiosName
  if buf.length < question.endOff + 2 + 2 then .ok none
  else do
    let qtype ← wordAt buf question.endOff
    let qclass ← wordAt buf (question.endOff + 2)
    if qclass ≠ dnsClassIn then .ok none
    else if qtype = nbTypeNbstat then
      if !namesMatch normalizedName question.queriedName && !nameIsWildcard question.queriedName then
        .ok none
      else
        buildNodeStatusResponse bufSize buf sizeofNbnsHeader question.endOff cfg.netbiosName
    else if qtype ≠ nbTypeNb then .ok none
    else if question.suffix ≠ nbnsSuffixWorkstation && question.suffix ≠ nbnsSuffixServer then
      if flags &&& nbnsFlagBroadcast = 0 then
        buildNegativeQueryResponse bufSize buf sizeofNbnsHeader question.endOff
      else .ok none
    else if !namesMatch normalizedName question.queriedName then
      if flags &&& nbnsFlagBroadcast = 0 then
        buildNegativeQueryResponse bufSize buf sizeofNbnsHeader question.endOff
      else .ok none
    else
      buildPositiveResponse bufSize buf sizeofNbnsHeader question.endOff cfg.ttl cfg.ipv4Addr

/-- The packet that is passed to `sendto`, if there is one. -/
def maybeRespondToQueryAddr (cfg : Config) (buf : Bytes) : Checked (Option Bytes) :=
  if buf.length < sizeofNbnsHeader then .ok none
  else do
    let header ← readHeader buf
    if header.flags &&& nbnsFlagResponse ≠ 0 then .ok none
    else if header.flags &&& 0x7800 ≠ 0 then .ok none
    else if header.qdcount ≠ 1 then .ok none
    else if buf.length ≤ sizeofNbnsHeader then .ok none
    else do
      let question ← parseQuestionName buf sizeofNbnsHeader
      question.elim (.ok none) (respondToQuestion cfg buf header.flags)

end TimeCapsule.Nbns
