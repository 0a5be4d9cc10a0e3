import TimeCapsule.Lib.JsonText
import TimeCapsule.Lib.Checked

/-!
# The reply of the telemetry server

`telemetry_response_parse` reads a bounded JSON object.  Every byte it looks at is checked to be inside
the body, and the reader is what is left of the body.
-/

namespace TimeCapsule.Telemetry

open Lib Lib.JsonText

/-! ## The reader -/

/-- `struct reader`: the bytes from `p` up to `end`. -/
abbrev Reader := Bytes

/-- `*r->p` -/
def peek : Reader → Checked UInt8
  | [] => .error .outOfBounds
  | c :: _ => .ok c

/-- `r->p++` -/
def advance : Reader → Checked Reader
  | [] => .error .outOfBounds
  | _ :: r => .ok r

/-- `*r->p++` -/
def pop (r : Reader) : Checked (UInt8 × Reader) := do
  let c ← peek r
  let r ← advance r
  .ok (c, r)

def space (r : Reader) : Reader := r.dropWhile isSpace

def take (r : Reader) (c : UInt8) : Checked (Bool × Reader) :=
  let r := space r
  if r.isEmpty then .ok (false, r)
  else do
    let ch ← peek r
    if ch ≠ c then .ok (false, r)
    else do
      let r ← advance r
      .ok (true, r)

/-! ## Strings -/

def hexDigit (c : UInt8) : Option Nat :=
  if 0x30 ≤ c ∧ c ≤ 0x39 then some (c.toNat - 0x30)
  else if 0x61 ≤ c ∧ c ≤ 0x66 then some (c.toNat - 0x61 + 10)
  else if 0x41 ≤ c ∧ c ≤ 0x46 then some (c.toNat - 0x41 + 10)
  else none

/-- The loop of `hex4`. -/
def hexLoop : (count out : Nat) → Reader → Checked (Option (Nat × Reader))
  | 0, out, r => .ok (some (out, r))
  | count + 1, out, r =>
      if r.isEmpty then .ok none
      else do
        let got ← pop r
        (hexDigit got.1).elim (.ok none) fun n => hexLoop count (out <<< 4 ||| n) got.2

def hex4 (r : Reader) : Checked (Option (Nat × Reader)) := hexLoop 4 0 r

/-- The second unit of a surrogate pair; the code point only has to be none of the ASCII ones. -/
def lowSurrogate (r : Reader) : Checked (Option (Nat × Reader)) :=
  if r.length < 2 then .ok none
  else do
    let first ← pop r
    let second ← pop first.2
    if first.1 ≠ backslash ∨ second.1 ≠ 0x75 then .ok none
    else
      thenRead (hex4 second.2) fun low =>
        if low.1 < 0xdc00 ∨ 0xdfff < low.1 then .ok none else .ok (some (0x10000, low.2))

def unicodeEscape (r : Reader) : Checked (Option (Nat × Reader)) :=
  thenRead (hex4 r) fun c =>
    if 0xd800 ≤ c.1 ∧ c.1 ≤ 0xdbff then lowSurrogate c.2
    else if 0xdc00 ≤ c.1 ∧ c.1 ≤ 0xdfff then .ok none
    else .ok (some c)

/-- What follows a backslash. -/
def escape (r : Reader) : Checked (Option (Nat × Reader)) :=
  if r.isEmpty then .ok none
  else do
    let got ← pop r
    if got.1 = quote ∨ got.1 = backslash ∨ got.1 = 0x2f then .ok (some (got.1.toNat, got.2))
    else if got.1 = 0x62 then .ok (some (8, got.2))
    else if got.1 = 0x66 then .ok (some (12, got.2))
    else if got.1 = 0x6e then .ok (some (10, got.2))
    else if got.1 = 0x72 then .ok (some (13, got.2))
    else if got.1 = 0x74 then .ok (some (9, got.2))
    else if got.1 = 0x75 then unicodeEscape got.2
    else .ok none

/-- So many bytes of a UTF-8 sequence behind its first one. -/
def continuations : (count cp : Nat) → Reader → Checked (Option (Nat × Reader))
  | 0, cp, r => .ok (some (cp, r))
  | count + 1, cp, r =>
      if r.isEmpty then .ok none
      else do
        let got ← pop r
        if got.1 &&& 0xc0 ≠ 0x80 then .ok none
        else continuations count (cp <<< 6 ||| (got.1 &&& 63).toNat) got.2

def utf8Sequence (count cp least : Nat) (r : Reader) : Checked (Option (Nat × Reader)) :=
  thenRead (continuations count cp r) fun got =>
    if got.1 < least ∨ 0x10ffff < got.1 ∨ 0xd800 ≤ got.1 ∧ got.1 ≤ 0xdfff then .ok none
    else .ok (some got)

/-- A UTF-8 sequence behind its first byte. -/
def utf8 (c : UInt8) (r : Reader) : Checked (Option (Nat × Reader)) :=
  if 0xc2 ≤ c ∧ c ≤ 0xdf then utf8Sequence 1 (c &&& 31).toNat 0x80 r
  else if 0xe0 ≤ c ∧ c ≤ 0xef then utf8Sequence 2 (c &&& 15).toNat 0x800 r
  else if 0xf0 ≤ c ∧ c ≤ 0xf4 then utf8Sequence 3 (c &&& 7).toNat 0x10000 r
  else .ok none

/-- A character of a string behind its first byte, which is no quote. -/
def stringChar (c : UInt8) (r : Reader) : Checked (Option (Nat × Reader)) :=
  if c < 32 then .ok none
  else if c = backslash then escape r
  else if 128 ≤ c then utf8 c r
  else .ok (some (c.toNat, r))

/-- The character that `out` gets for a code point. -/
def stored (c : Nat) : UInt8 := if 127 < c ∨ c = 0 then 0x3f else UInt8.ofNat c

/-- The assignment to `out`, if there is one. -/
def store (cap : Option Nat) (out : Bytes) (c : Nat) : Option Bytes :=
  cap.elim (some out) fun cap => if cap ≤ out.length + 1 then none else some (out ++ [stored c])

/-- The loop of `string`; a turn takes at least one byte. -/
def stringLoop (cap : Option Nat) : (fuel : Nat) → Bytes → Reader → Checked (Option (Bytes × Reader))
  | 0, _, _ => .ok none
  | fuel + 1, out, r =>
      if r.isEmpty then .ok none
      else do
        let got ← pop r
        if got.1 = quote then .ok (some (out, got.2))
        else
          thenRead (stringChar got.1 got.2) fun c =>
            (store cap out c.1).elim (.ok none) fun out => stringLoop cap fuel out c.2

/-- What `out` holds up to its zero; `none` as the capacity is a null pointer. -/
def string (cap : Option Nat) (r : Reader) : Checked (Option (Bytes × Reader)) := do
  let opened ← take r quote
  if !opened.1 then .ok none else stringLoop cap opened.2.length [] opened.2

/-! ## Values -/

def literal (r : Reader) (s : Bytes) : Checked (Bool × Reader) :=
  let r := space r
  if r.length < s.length then .ok (false, r)
  else do
    let bytes ← bytesAt r 0 s.length
    if bytes ≠ s then .ok (false, r) else .ok (true, r.drop s.length)

/-- `do { r->p++; } while (r->p < r->end && isdigit(*r->p));` -/
def moreDigits (r : Reader) : Checked (Option Reader) := do
  let r ← advance r
  .ok (some (r.dropWhile isDigit))

/-- At least one digit. -/
def digits (r : Reader) : Checked (Option Reader) :=
  if r.isEmpty then .ok none
  else do
    let c ← peek r
    if !isDigit c then .ok none else moreDigits r

def minus (r : Reader) : Checked Reader := do
  let c ← peek r
  if c = 0x2d then advance r else .ok r

def integer (r : Reader) : Checked (Option Reader) :=
  if r.isEmpty then .ok none
  else do
    let c ← peek r
    if c = 0x30 then (advance r).map some
    else if c < 0x31 ∨ 0x39 < c then .ok none
    else moreDigits r

def fraction (r : Reader) : Checked (Option Reader) :=
  if r.isEmpty then .ok (some r)
  else do
    let c ← peek r
    if c ≠ 0x2e then .ok (some r)
    else do
      let r ← advance r
      digits r

def exponentSign (r : Reader) : Checked Reader :=
  if r.isEmpty then .ok r
  else do
    let c ← peek r
    if c = 0x2b ∨ c = 0x2d then advance r else .ok r

def exponent (r : Reader) : Checked (Option Reader) :=
  if r.isEmpty then .ok (some r)
  else do
    let c ← peek r
    if c ≠ 0x65 ∧ c ≠ 0x45 then .ok (some r)
    else do
      let r ← advance r
      let r ← exponentSign r
      digits r

/-- A number, from a byte that is there. -/
def number (r : Reader) : Checked (Option Reader) := do
  let r ← minus r
  thenRead (thenRead (integer r) fraction) exponent

/-- `literal(r, "true") || literal(r, "false") || literal(r, "null")`, or else a number. -/
def scalar (r : Reader) : Checked (Option Reader) := do
  let isTrue ← literal r (ascii "true")
  if isTrue.1 then .ok (some isTrue.2)
  else do
    let isFalse ← literal isTrue.2 (ascii "false")
    if isFalse.1 then .ok (some isFalse.2)
    else do
      let isNull ← literal isFalse.2 (ascii "null")
      if isNull.1 then .ok (some isNull.2) else number isNull.2

/-- The loop over the items of a container, each followed by a comma or by the closing bracket; a turn
takes at least one byte. -/
def itemLoop {σ : Type} (item : σ → Reader → Checked (Option (σ × Reader))) (close : UInt8) :
    (fuel : Nat) → σ → Reader → Checked (Option (σ × Reader))
  | 0, _, _ => .ok none
  | fuel + 1, s, r =>
      thenRead (item s r) fun got => do
        let closed ← take got.2 close
        if closed.1 then .ok (some (got.1, closed.2))
        else do
          let more ← take closed.2 comma
          if more.1 then itemLoop item close fuel got.1 more.2 else .ok none

/-- The items behind an opening bracket, up to the closing one. -/
def items {σ : Type} (item : σ → Reader → Checked (Option (σ × Reader))) (close : UInt8) (s : σ)
    (r : Reader) : Checked (Option (σ × Reader)) := do
  let closed ← take r close
  if closed.1 then .ok (some (s, closed.2)) else itemLoop item close closed.2.length s closed.2

/-- `string(&r, key, sizeof(key)) || !take(&r, ':')` -/
def key (cap : Option Nat) (r : Reader) : Checked (Option (Bytes × Reader)) :=
  thenRead (string cap r) fun key => do
    let behind ← take key.2 colon
    if behind.1 then .ok (some (key.1, behind.2)) else .ok none

/-- A value, with its key if the container is an object. -/
def valueItem (value : Reader → Checked (Option Reader)) (close : UInt8) (_ : Unit) (r : Reader) :
    Checked (Option (Unit × Reader)) :=
  if close = closeBrace then
    thenRead (key none r) fun key => (value key.2).map (·.map fun r => ((), r))
  else (value r).map (·.map fun r => ((), r))

/-- An object or an array, behind its opening bracket. -/
def container (value : Reader → Checked (Option Reader)) (close : UInt8) (r : Reader) :
    Checked (Option Reader) := (items (valueItem value close) close () r).map (·.map Prod.snd)

/-- `value`, for so many levels of nesting: at level 0 the depth is greater than 16. -/
def value : (levels : Nat) → Reader → Checked (Option Reader)
  | 0, _ => .ok none
  | levels + 1, r =>
      let r := space r
      if r.isEmpty then .ok none
      else do
        let c ← peek r
        if c = quote then (string none r).map (·.map Prod.snd)
        else if c = openBrace ∨ c = openBracket then do
          let r ← advance r
          container (value levels) (if c = openBrace then closeBrace else closeBracket) r
        else scalar r

/-! ## The response -/

def tcResponseMax : Nat := 4096

/-- `struct telemetry_response`, its signature up to the zero. -/
structure TelemetryResponse where
  debug : Bool
  signature : Bytes
deriving DecidableEq, Repr

def zeroed : TelemetryResponse := ⟨false, []⟩

structure ParseState where
  parsed : TelemetryResponse
  seenDebug : Bool
  seenSignature : Bool
deriving DecidableEq, Repr

def debugMember (s : ParseState) (r : Reader) : Checked (Option (ParseState × Reader)) :=
  if s.seenDebug then .ok none
  else do
    let isTrue ← literal r (ascii "true")
    if isTrue.1 then
      .ok (some ({ s with seenDebug := true, parsed := { s.parsed with debug := true } }, isTrue.2))
    else do
      let isFalse ← literal isTrue.2 (ascii "false")
      if isFalse.1 then .ok (some ({ s with seenDebug := true }, isFalse.2)) else .ok none

def signatureMember (s : ParseState) (r : Reader) : Checked (Option (ParseState × Reader)) :=
  if s.seenSignature then .ok none
  else
    thenRead (string (some 129) r) fun signature =>
      .ok (some ({ s with seenSignature := true,
                          parsed := { s.parsed with signature := signature.1 } }, signature.2))

/-- The body of the loop over the members. -/
def member (s : ParseState) (r : Reader) : Checked (Option (ParseState × Reader)) :=
  thenRead (key (some 256) r) fun key =>
    if key.1 = ascii "DEBUG" then debugMember s key.2
    else if key.1 = ascii "DEBUG_SIGNATURE" then signatureMember s key.2
    else (value 16 key.2).map (·.map fun r => (s, r))

/-- The object of a response, behind its opening brace. -/
def members (r : Reader) : Checked (Option (ParseState × Reader)) :=
  items member closeBrace ⟨zeroed, false, false⟩ r

/-- What is parsed of the body; nothing for a body that is rejected. -/
def parseResponse (json : Bytes) : Checked (Option TelemetryResponse) :=
  if tcResponseMax < json.length then .ok none
  else
    let r := space json
    if r.isEmpty then .ok (some zeroed)
    else do
      let opened ← take r openBrace
      if !opened.1 then .ok none
      else
        thenRead (members opened.2) fun parsed =>
          if (space parsed.2).isEmpty then .ok (some parsed.1.parsed) else .ok none

/-- The return value and what is left in `out`, which is cleared first. -/
def telemetryResponseParse (json : Bytes) : Checked (Int × TelemetryResponse) :=
  (parseResponse json).map fun parsed => parsed.elim (-1, zeroed) fun response => (0, response)

end TimeCapsule.Telemetry
