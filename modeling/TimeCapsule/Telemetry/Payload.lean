import Mathlib.Data.List.Forall2
import TimeCapsule.Telemetry.Accepted
import TimeCapsule.Telemetry.Signature

/-!
# The payload of a heartbeat

`telemetry_payload` puts what it read of the device into one JSON object.  Every field is escaped into a
buffer of its own; what does not fit is refused, not cut.
-/

namespace TimeCapsule.Telemetry

open Lib Lib.JsonText

/-! ## Strings of C, without their zero -/

/-- What `snprintf` leaves in a buffer. -/
def snprintf (cap : Nat) (text : Bytes) : Bytes := text.take (cap - 1)

/-- `%lu` -/
def decimal (n : Nat) : Bytes := (Nat.toDigits 10 n).map fun c => UInt8.ofNat c.toNat

/-- `trim_line` -/
def trimLine (value : Bytes) : Bytes := (value.dropWhile isspace).rdropWhile isspace

def heartbeatMaxField : Nat := 256

def heartbeatMaxJson : Nat := 4096

/-! ## Numbers -/

/-- The value of a digit in any base. -/
def digitValue (ch : UInt8) : Option Nat :=
  if 0x30 ≤ ch ∧ ch ≤ 0x39 then some (ch.toNat - 0x30)
  else if 0x61 ≤ ch ∧ ch ≤ 0x7a then some (ch.toNat - 0x61 + 10)
  else if 0x41 ≤ ch ∧ ch ≤ 0x5a then some (ch.toNat - 0x41 + 10)
  else none

/-- The number that all of the text is, in this base. -/
def wholeNumber (base : Nat) (text : Bytes) : Option Nat :=
  if text = [] then none
  else text.foldlM (fun n ch => (digitValue ch).bind fun d => if d < base then some (n * base + d) else none) 0

/-- `strtoul` with base 0, where it takes all of the text and does not overflow. -/
def strtoulWhole (ulongMax : Nat) (value : Bytes) : Option Nat :=
  let text := value.dropWhile isspace
  let negative := text.head? = some 0x2d
  let digits := if negative ∨ text.head? = some 0x2b then text.tail else text
  let number := match digits with
    | 0x30 :: x :: rest => if x = 0x78 ∨ x = 0x58 then wholeNumber 16 rest else wholeNumber 8 digits
    | _ => wholeNumber 10 digits
  number.bind fun n =>
    if ulongMax < n then none
    else some (if negative then (ulongMax + 1 - n) % (ulongMax + 1) else n)

/-- A value that is a number is written in decimal. -/
def normalizeDecimalAcp (ulongMax : Nat) (value : Bytes) : Bytes :=
  (strtoulWhole ulongMax value).elim value fun parsed => snprintf heartbeatMaxField (decimal parsed)

/-! ## Identities -/

/-- A labelled line behind what is in the buffer already, as far as it fits. -/
def appendHashInput (bufLen : Nat) (buf label value : Bytes) : Bytes :=
  if value = [] ∨ bufLen ≤ buf.length then buf
  else buf ++ snprintf (bufLen - buf.length) (label ++ ascii "=" ++ value ++ ascii "\n")

/-- `hash_text_hex`: the first 32 bytes of the hash. -/
def hashTextHex (crypto : Crypto) (text : Bytes) : Bytes := hexText ((crypto.hash text).take 32)

/-- `build_router_id` without a serial number. -/
def hashedRouterId (crypto : Crypto) (syap syam synm wama rama : Bytes) : Bytes :=
  let input := appendHashInput 1024 [] (ascii "namespace") (ascii "timecapsulesmb-router-heartbeat-v1")
  let input := appendHashInput 1024 input (ascii "syAP") syap
  let input := appendHashInput 1024 input (ascii "syAM") syam
  let input := appendHashInput 1024 input (ascii "syNm") synm
  let input := appendHashInput 1024 input (ascii "waMA") wama
  let input := appendHashInput 1024 input (ascii "raMA") rama
  snprintf 96 (ascii "tc1-" ++ hashTextHex crypto input)

def buildHeartbeatId (crypto : Crypto) (routerId reason : Bytes) (now pid : Nat) : Bytes :=
  let input := snprintf 512 (routerId ++ ascii "\n" ++ reason ++ ascii "\n" ++ decimal now ++ ascii "\n" ++
    decimal pid ++ ascii "\n")
  snprintf 96 (ascii "hb1-" ++ hashTextHex crypto input)

/-! ## Escaping -/

/-- What a byte is replaced by. -/
def escapeByte (ch : UInt8) : Bytes :=
  if ch = quote ∨ ch = backslash then [backslash, ch]
  else if ch = 0x08 then ascii "\\b"
  else if ch = 0x0c then ascii "\\f"
  else if ch = 0x0a then ascii "\\n"
  else if ch = 0x0d then ascii "\\r"
  else if ch = 0x09 then ascii "\\t"
  else if ch < 0x20 then ascii "\\u00" ++ [hexLower (ch.toNat / 16), hexLower (ch.toNat % 16)]
  else [ch]

/-- The loop of `json_escape`, with what is written already. -/
def jsonEscapeLoop (outLen : Nat) : (out cursor : Bytes) → Option Bytes
  | out, [] => some out
  | out, ch :: cursor =>
      if outLen ≤ out.length + (escapeByte ch).length then none
      else jsonEscapeLoop outLen (out ++ escapeByte ch) cursor

def jsonEscape (outLen : Nat) (value : Bytes) : Option Bytes :=
  if outLen = 0 then none else jsonEscapeLoop outLen [] value

/-! ## The object -/

/-- What is put into the object. -/
structure PayloadFields where
  nonce : Bytes
  heartbeatId : Bytes
  routerId : Bytes
  deployReleaseTag : Bytes
  syam : Bytes
  syap : Bytes
  synm : Bytes
  osVersion : Bytes
  /-- `read_uptime_seconds`, where it succeeds. -/
  uptimeSec : Option Nat
  reason : Bytes

/-- A member whose value is a string. -/
def stringMember (name : String) (value : Bytes) : Bytes :=
  ascii "\"" ++ ascii name ++ ascii "\":\"" ++ value ++ ascii "\""

/-- A member whose value stands by itself. -/
def plainMember (name : String) (value : Bytes) : Bytes := ascii "\"" ++ ascii name ++ ascii "\":" ++ value

/-- `TC_TELEMETRY_LANE` -/
def telemetryLane : Bytes := ascii "6"

def formatUptimeJson (uptimeSec : Option Nat) : Bytes := uptimeSec.elim (ascii "null") decimal

/-- The object of fields that are escaped already. -/
def payloadObject (f : PayloadFields) : Bytes :=
  ascii "\x7b" ++
    plainMember "schema_version" (ascii "1") ++ ascii "," ++
    stringMember "target_lane" telemetryLane ++ ascii "," ++
    stringMember "debug_nonce" f.nonce ++ ascii "," ++
    stringMember "heartbeat_id" f.heartbeatId ++ ascii "," ++
    stringMember "router_id" f.routerId ++ ascii "," ++
    stringMember "agent_version" (ascii "3") ++ ascii "," ++
    stringMember "deploy_release_tag" f.deployReleaseTag ++ ascii "," ++
    stringMember "device_model" f.syam ++ ascii "," ++
    stringMember "device_syap" f.syap ++ ascii "," ++
    stringMember "device_name" f.synm ++ ascii "," ++
    stringMember "device_os_version" f.osVersion ++ ascii "," ++
    plainMember "uptime_sec" (formatUptimeJson f.uptimeSec) ++ ascii "," ++
    stringMember "reason" f.reason ++ ascii "\x7d\n"

/-- The fields as they are escaped, each in its own buffer. -/
def PayloadFields.escaped (f : PayloadFields) : Option PayloadFields := do
  let routerId ← jsonEscape 192 f.routerId
  let heartbeatId ← jsonEscape 192 f.heartbeatId
  let reason ← jsonEscape 192 f.reason
  let syam ← jsonEscape 512 f.syam
  let synm ← jsonEscape 512 f.synm
  let syap ← jsonEscape 128 f.syap
  let osVersion ← jsonEscape 512 f.osVersion
  let deployReleaseTag ← jsonEscape (heartbeatMaxField * 6 + 1) f.deployReleaseTag
  pure ⟨f.nonce, heartbeatId, routerId, deployReleaseTag, syam, syap, synm, osVersion, f.uptimeSec, reason⟩

/-- The end of `telemetry_payload`. -/
def payloadText (cap : Nat) (f : PayloadFields) : Option Bytes :=
  f.escaped.bind fun escaped =>
    let json := payloadObject escaped
    if cap ≤ json.length then none else some json

/-! ## What is escaped -/

section Escape

variable {v : Bytes} {ch : UInt8}

theorem escapeByte_pos (ch : UInt8) : 0 < (escapeByte ch).length := by
  unfold escapeByte
  split_ifs <;> exact Nat.zero_lt_succ _

theorem jsonEscapeLoop_eq (cap : Nat) (out v : Bytes) (h : out.length < cap) :
    jsonEscapeLoop cap out v =
      if (out ++ v.flatMap escapeByte).length < cap then some (out ++ v.flatMap escapeByte) else none := by
  induction v generalizing out with
  | nil =>
    rw [List.flatMap_nil, List.append_nil, if_pos h]
    rfl
  | cons ch v ih =>
    rw [jsonEscapeLoop, List.flatMap_cons, ← List.append_assoc]
    by_cases hfull : cap ≤ out.length + (escapeByte ch).length
    · rw [if_pos hfull, if_neg]
      simp only [List.length_append]
      omega
    · rw [if_neg hfull, ih]
      rw [List.length_append]
      exact Nat.not_le.mp hfull

/-- A value is escaped whole or not at all. -/
theorem jsonEscape_eq_some {cap : Nat} {out : Bytes} :
    jsonEscape cap v = some out ↔ out = v.flatMap escapeByte ∧ out.length < cap := by
  rw [jsonEscape]
  split_ifs with hcap
  · simp only [false_iff, not_and]
    omega
  · rw [jsonEscapeLoop_eq cap [] v (by rw [List.length_nil]; omega), List.nil_append]
    split_ifs with hfits
    · rw [Option.some.injEq]
      exact ⟨fun h => ⟨h.symm, h ▸ hfits⟩, fun h => h.1.symm⟩
    · constructor
      · intro h
        cases h
      · rintro ⟨rfl, hlt⟩
        exact absurd hlt hfits

/-- The text in UTF-8. -/
def inUtf8 (chars : List Char) : Bytes := chars.flatMap String.utf8EncodeChar

/-- The code points of the text. -/
def codePoints (chars : List Char) : List Nat := chars.map fun c => c.val.toNat

end Escape

/-! ## What is sent is what was read -/

/-- The value of a member. -/
inductive FieldValue where
  | string (chars : List Char)
  | number (n : Nat)
  | null

/-- The text stands for the value. -/
def FieldValue.Stands (text : Bytes) : FieldValue → Prop
  | .string chars => StringText (codePoints chars) text
  | .number n => text = decimal n
  | .null => text = ascii "null"

/-- What is put into the object, where all of it is text. -/
structure PayloadChars where
  nonce : List Char
  heartbeatId : List Char
  routerId : List Char
  deployReleaseTag : List Char
  syam : List Char
  syap : List Char
  synm : List Char
  osVersion : List Char
  uptimeSec : Option Nat
  reason : List Char

def PayloadChars.fields (c : PayloadChars) : PayloadFields :=
  ⟨inUtf8 c.nonce, inUtf8 c.heartbeatId, inUtf8 c.routerId, inUtf8 c.deployReleaseTag, inUtf8 c.syam, inUtf8 c.syap,
    inUtf8 c.synm, inUtf8 c.osVersion, c.uptimeSec, inUtf8 c.reason⟩

/-- The members of the object, in order. -/
def PayloadChars.members (c : PayloadChars) : List (String × FieldValue) :=
  [("schema_version", .number 1), ("target_lane", .string ['6']), ("debug_nonce", .string c.nonce),
    ("heartbeat_id", .string c.heartbeatId), ("router_id", .string c.routerId),
    ("agent_version", .string ['3']), ("deploy_release_tag", .string c.deployReleaseTag),
    ("device_model", .string c.syam), ("device_syap", .string c.syap), ("device_name", .string c.synm),
    ("device_os_version", .string c.osVersion),
    ("uptime_sec", c.uptimeSec.elim .null .number), ("reason", .string c.reason)]

section Object

variable {α β : Type} {E : β → Bytes → Prop} {print : α → Bytes} {g : α → β}

/-- The members with commas between them. -/
def joined (print : α → Bytes) : List α → Bytes
  | [] => []
  | a :: items => print a ++ items.flatMap fun b => comma :: print b

def quoted (text : Bytes) : Bytes := quote :: (text ++ [quote])

/-- The members of the object with the texts of their values. -/
def PayloadFields.texts (f : PayloadFields) : List (String × Bytes) :=
  [("schema_version", ascii "1"), ("target_lane", quoted telemetryLane), ("debug_nonce", quoted f.nonce),
    ("heartbeat_id", quoted f.heartbeatId), ("router_id", quoted f.routerId),
    ("agent_version", quoted (ascii "3")), ("deploy_release_tag", quoted f.deployReleaseTag),
    ("device_model", quoted f.syam), ("device_syap", quoted f.syap), ("device_name", quoted f.synm),
    ("device_os_version", quoted f.osVersion), ("uptime_sec", formatUptimeJson f.uptimeSec),
    ("reason", quoted f.reason)]

end Object

section Stands

variable {f escaped : PayloadFields} {c : PayloadChars} {cap : Nat} {json : Bytes}

theorem digitChar_byte : ∀ d < 10, UInt8.ofNat (Nat.digitChar d).toNat = UInt8.ofNat (0x30 + d) := by decide

/-- A positive number has only digits, and no zero in front. -/
theorem decimal_pos {n : Nat} (h : 0 < n) : Digits (decimal n) ∧ (decimal n).head? ≠ some 0x30 := by
  induction n using Nat.strongRecOn with
  | _ n ih =>
    by_cases hsmall : n < 10
    · have hone : decimal n = [UInt8.ofNat (0x30 + n)] := by
        rw [decimal, Nat.toDigits_of_lt_base hsmall, List.map_singleton, digitChar_byte n hsmall]
      have hnat : (UInt8.ofNat (0x30 + n)).toNat = 0x30 + n := by
        rw [UInt8.toNat_ofNat']
        omega
      rw [hone]
      refine ⟨⟨List.cons_ne_nil _ _, fun c hc => ?_⟩, fun hzero => ?_⟩
      · rw [List.mem_singleton.mp hc, isDigit, Bool.and_eq_true, decide_eq_true_eq, decide_eq_true_eq]
        simp only [UInt8.le_iff_toNat_le, UInt8.reduceToNat, hnat]
        omega
      · have heq := congrArg UInt8.toNat (Option.some.inj hzero)
        simp only [hnat, UInt8.reduceToNat] at heq
        omega
    · obtain ⟨⟨hne, hdigits⟩, hhead⟩ := ih (n / 10) (by omega) (by omega)
      have hlast : decimal n = decimal (n / 10) ++ [UInt8.ofNat (0x30 + n % 10)] := by
        rw [decimal, Nat.toDigits_of_base_le (by decide) (Nat.not_lt.mp hsmall), List.map_append, List.map_singleton,
          digitChar_byte _ (Nat.mod_lt n (by decide))]
        rfl
      have hnat : (UInt8.ofNat (0x30 + n % 10)).toNat = 0x30 + n % 10 := by
        rw [UInt8.toNat_ofNat']
        omega
      rw [hlast]
      refine ⟨⟨List.append_ne_nil_of_left_ne_nil hne _, fun c hc => ?_⟩, ?_⟩
      · rcases List.mem_append.mp hc with hc | hc
        · exact hdigits c hc
        · rw [List.mem_singleton.mp hc, isDigit, Bool.and_eq_true, decide_eq_true_eq, decide_eq_true_eq]
          simp only [UInt8.le_iff_toNat_le, UInt8.reduceToNat, hnat]
          omega
      · rwa [List.head?_append_of_ne_nil _ hne]

theorem integer_decimal (n : Nat) : Integer (decimal n) := by
  rcases Nat.eq_zero_or_pos n with rfl | h
  · exact .inl (by decide)
  · exact .inr (decimal_pos h)

/-- What the text stands for in JSON. -/
theorem FieldValue.Stands.value {value : FieldValue} {text : Bytes} (h : value.Stands text) : ValueText 1 text := by
  cases value with
  | string chars => exact .inl ⟨codePoints chars, h⟩
  | number n =>
    obtain rfl : text = decimal n := h
    exact .inr (.inr (.inr (.inr ⟨[], decimal n, [], [], .inl rfl, integer_decimal n, .inl rfl, .inl rfl, by simp⟩)))
  | null =>
    refine .inr (.inr (.inr (.inl ?_)))
    rw [h]
    simp [literals]

theorem escaped_eq_some : f.escaped = some escaped ↔
    (f.routerId.flatMap escapeByte).length < 192 ∧ (f.heartbeatId.flatMap escapeByte).length < 192 ∧
      (f.reason.flatMap escapeByte).length < 192 ∧ (f.syam.flatMap escapeByte).length < 512 ∧
      (f.synm.flatMap escapeByte).length < 512 ∧ (f.syap.flatMap escapeByte).length < 128 ∧
      (f.osVersion.flatMap escapeByte).length < 512 ∧
      (f.deployReleaseTag.flatMap escapeByte).length < heartbeatMaxField * 6 + 1 ∧
      escaped = ⟨f.nonce, f.heartbeatId.flatMap escapeByte, f.routerId.flatMap escapeByte,
        f.deployReleaseTag.flatMap escapeByte, f.syam.flatMap escapeByte, f.syap.flatMap escapeByte,
        f.synm.flatMap escapeByte, f.osVersion.flatMap escapeByte, f.uptimeSec, f.reason.flatMap escapeByte⟩ := by
  simp only [PayloadFields.escaped, Option.bind_eq_bind, Option.bind_eq_some_iff, jsonEscape_eq_some,
    Option.pure_def, Option.some.injEq]
  constructor
  · rintro ⟨_, ⟨rfl, h1⟩, _, ⟨rfl, h2⟩, _, ⟨rfl, h3⟩, _, ⟨rfl, h4⟩, _, ⟨rfl, h5⟩, _, ⟨rfl, h6⟩, _, ⟨rfl, h7⟩, _,
      ⟨rfl, h8⟩, rfl⟩
    exact ⟨h1, h2, h3, h4, h5, h6, h7, h8, rfl⟩
  · rintro ⟨h1, h2, h3, h4, h5, h6, h7, h8, rfl⟩
    exact ⟨_, ⟨rfl, h1⟩, _, ⟨rfl, h2⟩, _, ⟨rfl, h3⟩, _, ⟨rfl, h4⟩, _, ⟨rfl, h5⟩, _, ⟨rfl, h6⟩, _, ⟨rfl, h7⟩, _,
      ⟨rfl, h8⟩, rfl⟩

example : (ascii "a\"b").flatMap escapeByte = ascii "a\\\"b" := by decide +kernel

end Stands

/-- The bytes in front of the nonce. -/
def beforeNonce : Bytes :=
  ascii "\x7b" ++ plainMember "schema_version" (ascii "1") ++ ascii "," ++
    stringMember "target_lane" telemetryLane ++ ascii "," ++ (ascii "\"" ++ ascii "debug_nonce" ++ ascii "\":\"")

theorem beforeNonce_prefix (f : PayloadFields) : beforeNonce ++ f.nonce <+: payloadObject f := by
  unfold payloadObject
  iterate 21 refine List.IsPrefix.trans ?_ (List.prefix_append _ _)
  refine ⟨ascii "\"", ?_⟩
  unfold beforeNonce stringMember
  simp only [List.append_assoc]

/-- Two payloads with different nonces are different, whatever else was read. -/
theorem payload_nonce_injective {f f' : PayloadFields} {cap cap' : Nat} {json : Bytes}
    (h : payloadText cap f = some json) (h' : payloadText cap' f' = some json)
    (hlength : f.nonce.length = f'.nonce.length) : f.nonce = f'.nonce := by
  have hstart : ∀ {f : PayloadFields} {cap : Nat}, payloadText cap f = some json →
      beforeNonce ++ f.nonce <+: json := by
    intro f cap h
    rw [payloadText, Option.bind_eq_some_iff] at h
    obtain ⟨escaped, hescaped, h⟩ := h
    dsimp only at h
    split_ifs at h
    obtain ⟨-, -, -, -, -, -, -, -, heq⟩ := escaped_eq_some.mp hescaped
    have hnonce : escaped.nonce = f.nonce := by rw [heq]
    rw [← Option.some.inj h, ← hnonce]
    exact beforeNonce_prefix escaped
  have hsame : (beforeNonce ++ f.nonce).length = (beforeNonce ++ f'.nonce).length := by
    rw [List.length_append, List.length_append, hlength]
  have hnonce := (List.prefix_of_prefix_length_le (hstart h) (hstart h') (Nat.le_of_eq hsame)).eq_of_length hsame
  exact List.append_cancel_left hnonce

end TimeCapsule.Telemetry
