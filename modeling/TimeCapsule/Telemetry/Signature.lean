import TimeCapsule.Telemetry.Reading

/-!
# Signatures

A signature comes as 64 raw bytes or as text in hexadecimal digits with any white space between them.
A reply is authorized by the signature over the hash of the payload that was sent.
-/

namespace TimeCapsule.Telemetry

open Lib Lib.JsonText

/-! ## Reading a signature -/

/-- `isspace` of the C locale. -/
def isspace (ch : UInt8) : Bool := ch == 0x20 || (0x09 ≤ ch && ch ≤ 0x0d)

def hexValue (ch : UInt8) : Option Nat :=
  if 0x30 ≤ ch ∧ ch ≤ 0x39 then some (ch.toNat - 0x30)
  else if 0x61 ≤ ch ∧ ch ≤ 0x66 then some (ch.toNat - 0x61 + 10)
  else if 0x41 ≤ ch ∧ ch ≤ 0x46 then some (ch.toNat - 0x41 + 10)
  else none

structure HexState where
  hexCount : Nat
  /-- The first digit of a byte, until the second one is read. -/
  high : Option Nat
  out : Bytes

/-- The body of the loop over the input. -/
def hexStep (s : HexState) (ch : UInt8) : Option HexState :=
  match hexValue ch with
  | none => if isspace ch then some s else none
  | some value =>
      if 128 ≤ s.hexCount then none
      else if s.hexCount % 2 = 0 then some ⟨s.hexCount + 1, some value, s.out⟩
      else some ⟨s.hexCount + 1, none,
        s.out.set (s.hexCount / 2) (UInt8.ofNat (s.high.getD 0 <<< 4 ||| value))⟩

def parseHeartbeatSignature (input : Bytes) : Option Bytes :=
  if input.length = 64 then some input
  else (input.foldlM hexStep ⟨0, none, zeros 64⟩).bind fun s =>
    if s.hexCount = 128 ∧ s.high = none then some s.out else none

/-! ## Verifying -/

/-- The primitives of the cryptographic library. -/
structure Crypto where
  /-- `crypto_sign_open`: the message behind the signature, if it verifies under the key. -/
  signOpen : (signed publicKey : Bytes) → Option Bytes
  /-- `crypto_hash`: 64 bytes. -/
  hash : Bytes → Bytes

/-- `TC_HEARTBEAT_PUBLIC_KEY_BYTES` -/
def publicKey : Bytes :=
  [0x86, 0x07, 0x80, 0x6e, 0x04, 0xbf, 0x0b, 0x35,
    0x02, 0x90, 0x48, 0x22, 0x06, 0x13, 0xdd, 0x05,
    0xd9, 0x2c, 0x84, 0xe0, 0x7c, 0xea, 0x37, 0xfe,
    0xe5, 0x1b, 0xdf, 0xc2, 0x65, 0x3c, 0xbc, 0xbe]

def tcDebugMax : Nat := 1048576

/-- The buffers could be allocated. -/
def verifyHeartbeatSignatureBytes (crypto : Crypto) (data signature publicKey : Bytes) : Bool :=
  if tcDebugMax < data.length then false
  else crypto.signOpen (signature ++ data) publicKey == some data

def telemetryVerify (crypto : Crypto) (data signature : Bytes) : Bool :=
  (parseHeartbeatSignature signature).any fun parsed =>
    verifyHeartbeatSignatureBytes crypto data parsed publicKey

/-- A digit of `%02x`. -/
def hexLower (v : Nat) : UInt8 := UInt8.ofNat (if v < 10 then 0x30 + v else 0x61 + (v - 10))

/-- `%02x` for each of the bytes. -/
def hexText (bytes : Bytes) : Bytes := bytes.flatMap fun b => [hexLower (b.toNat / 16), hexLower (b.toNat % 16)]

/-- What the server signs to allow debugging. -/
def authorizationMessage (crypto : Crypto) (payload : Bytes) : Bytes :=
  ascii "tc-debug-v1\n" ++ hexText (crypto.hash payload) ++ ascii "\n"

def telemetryAuthorized (crypto : Crypto) (response : TelemetryResponse) (payload : Bytes) : Bool :=
  let message := authorizationMessage crypto payload
  decide (message.length < 160) && response.debug && telemetryVerify crypto message response.signature

/-! ## The digits of a signature -/

/-- The digits of the bytes. -/
def nibbles (bytes : Bytes) : List Nat := bytes.flatMap fun b => [b.toNat / 16, b.toNat % 16]

/-- The text is the bytes in hexadecimal digits, white space apart. -/
def SpacedHex (bytes text : Bytes) : Prop :=
  List.Forall₂ HexDigit (nibbles bytes) (text.filter fun ch => !isspace ch)

section Digits

variable {v w : Nat} {c ch : UInt8} {bytes : Bytes}

theorem length_nibbles (bytes : Bytes) : (nibbles bytes).length = 2 * bytes.length := by
  induction bytes with
  | nil => rfl
  | cons b bytes ih =>
    show (nibbles bytes).length + 1 + 1 = 2 * (bytes.length + 1)
    rw [ih]
    ring

theorem nibbles_append (bytes bytes' : Bytes) : nibbles (bytes ++ bytes') = nibbles bytes ++ nibbles bytes' :=
  List.flatMap_append

theorem nibbles_injective : Function.Injective nibbles := by
  intro bytes bytes' h
  induction bytes generalizing bytes' with
  | nil =>
    cases bytes' with
    | nil => rfl
    | cons b' bytes' => cases h
  | cons b bytes ih =>
    cases bytes' with
    | nil => cases h
    | cons b' bytes' =>
      obtain ⟨hhigh, h⟩ := List.cons.inj h
      obtain ⟨hlow, hrest⟩ := List.cons.inj h
      rw [ih hrest]
      congr 1
      apply UInt8.toNat_inj.mp
      omega

theorem hexValue_eq_some : hexValue ch = some v ↔ HexDigit v ch := hexDigit_eq_some

theorem hexValue_of_isspace (h : isspace ch = true) : hexValue ch = none := by
  unfold isspace at h
  unfold hexValue
  simp only [Bool.or_eq_true, beq_iff_eq, Bool.and_eq_true, decide_eq_true_eq, UInt8.le_iff_toNat_le,
    UInt8.reduceToNat, ← UInt8.toNat_inj] at h ⊢
  rw [if_neg (by omega), if_neg (by omega), if_neg (by omega)]

theorem isspace_of_hexDigit (h : HexDigit v ch) : isspace ch = false := by
  rw [← Bool.not_eq_true]
  intro hspace
  have hnone := hexValue_of_isspace hspace
  rw [hexValue_eq_some.mpr h] at hnone
  cases hnone

end Digits

/-! ## What is read -/

section Reading

variable {s s' : HexState} {done sig text : Bytes} {ch : UInt8} {v : Nat}

/-- The state after the digits of the bytes, and of the first half of another one. -/
structure HexState.After (s : HexState) (done : Bytes) : Prop where
  count : s.hexCount = 2 * done.length + s.high.toList.length
  out : s.out = done ++ zeros (64 - done.length)
  le : s.hexCount ≤ 128
  high : ∀ v ∈ s.high, v < 16

/-- All of the digits that were read. -/
def HexState.digits (s : HexState) (done : Bytes) : List Nat := nibbles done ++ s.high.toList

theorem HexState.After.length_digits (h : s.After done) : (s.digits done).length = s.hexCount := by
  rw [HexState.digits, List.length_append, length_nibbles, h.count]

theorem hexStep_of_isspace (h : isspace ch = true) (s : HexState) : hexStep s ch = some s := by
  rw [hexStep, hexValue_of_isspace h]
  exact if_pos h

/-- One more digit. -/
theorem hexStep_of_hexDigit (h : s.After done) (hv : HexDigit v ch) (hlt : s.hexCount < 128) :
    ∃ s' done', hexStep s ch = some s' ∧ s'.After done' ∧ s'.digits done' = s.digits done ++ [v] := by
  have hv16 := hexDigit_lt hv
  have hcount := h.count
  rw [hexStep, hexValue_eq_some.mpr hv]
  dsimp only
  rw [if_neg (Nat.not_le.mpr hlt)]
  cases hhigh : s.high with
  | none =>
    rw [hhigh] at hcount
    simp only [Option.toList_none, List.length_nil] at hcount
    rw [if_pos (by omega)]
    refine ⟨_, done, rfl, ⟨?_, h.out, hlt, ?_⟩, ?_⟩
    · rw [hcount]
      rfl
    · rintro w ⟨⟩
      exact hv16
    · rw [HexState.digits, HexState.digits, hhigh, List.append_assoc]
      rfl
  | some high =>
    have hhigh16 := h.high high hhigh
    rw [hhigh] at hcount
    simp only [Option.toList_some, List.length_singleton] at hcount
    rw [if_neg (by omega), show s.hexCount / 2 = done.length by omega]
    have hbyte : (UInt8.ofNat (high <<< 4 ||| v)).toNat = high * 16 + v := by
      rw [shiftLeft_or 4 hv16, UInt8.toNat_ofNat']
      omega
    refine ⟨_, done ++ [UInt8.ofNat (high <<< 4 ||| v)], rfl, ⟨?_, ?_, hlt, ?_⟩, ?_⟩
    · rw [hcount, List.length_append]
      simp only [List.length_singleton, Option.toList_none, List.length_nil]
      ring
    · have hzeros : zeros (64 - done.length) = 0 :: zeros (64 - (done.length + 1)) := by
        rw [show 64 - done.length = (64 - (done.length + 1)) + 1 by omega]
        rfl
      rw [h.out, hzeros, Option.getD_some, List.set_append_right _ _ (Nat.le_refl _), Nat.sub_self,
        List.set_cons_zero, List.length_append, List.length_singleton, List.append_assoc]
      rfl
    · rintro w ⟨⟩
    · rw [HexState.digits, HexState.digits, nibbles_append, hhigh, List.append_assoc, List.append_assoc]
      congr 1
      simp only [nibbles, List.flatMap_cons, List.flatMap_nil, hbyte, Option.toList_none, Option.toList_some,
        List.append_nil, List.singleton_append]
      rw [show (high * 16 + v) / 16 = high by omega, show (high * 16 + v) % 16 = v by omega]

theorem hexStep_isSome (h : hexStep s ch = some s') :
    isspace ch = true ∧ s' = s ∨ s.hexCount < 128 ∧ ∃ v, HexDigit v ch := by
  rw [hexStep] at h
  cases hvalue : hexValue ch with
  | none =>
    rw [hvalue] at h
    dsimp only at h
    split_ifs at h with hspace
    exact .inl ⟨hspace, (Option.some.inj h).symm⟩
  | some v =>
    rw [hvalue] at h
    dsimp only at h
    by_cases hfull : 128 ≤ s.hexCount
    · rw [if_pos hfull] at h
      cases h
    · exact .inr ⟨Nat.not_le.mp hfull, v, hexValue_eq_some.mp hvalue⟩

/-- The loop reads to the end just when the text is digits and white space, and not too many digits. -/
theorem hexLoop_sound (h : s.After done) (hrun : text.foldlM hexStep s = some s') :
    ∃ done' vs, s'.After done' ∧ List.Forall₂ HexDigit vs (text.filter fun ch => !isspace ch) ∧
      s'.digits done' = s.digits done ++ vs := by
  induction text generalizing s done with
  | nil =>
    obtain rfl := Option.some.inj hrun
    exact ⟨done, [], h, .nil, (List.append_nil _).symm⟩
  | cons ch text ih =>
    rw [List.foldlM_cons] at hrun
    obtain ⟨s₁, hfirst, hrest⟩ := Option.bind_eq_some_iff.mp hrun
    rcases hexStep_isSome hfirst with ⟨hspace, rfl⟩ | ⟨hlt, v, hv⟩
    · rw [List.filter_cons_of_neg (by simp [hspace])]
      exact ih h hrest
    · obtain ⟨s₂, done₂, hstep, hafter, hdigits⟩ := hexStep_of_hexDigit h hv hlt
      obtain rfl := Option.some.inj (hfirst.symm.trans hstep)
      obtain ⟨done', vs, hafter', hvs, hdigits'⟩ := ih hafter hrest
      rw [List.filter_cons_of_pos (by simp [isspace_of_hexDigit hv])]
      refine ⟨done', v :: vs, hafter', hvs.cons hv, ?_⟩
      rw [hdigits', hdigits, List.append_assoc, List.singleton_append]

theorem hexLoop_complete {vs : List Nat} (h : s.After done)
    (hvs : List.Forall₂ HexDigit vs (text.filter fun ch => !isspace ch)) (hle : s.hexCount + vs.length ≤ 128) :
    ∃ s' done', text.foldlM hexStep s = some s' ∧ s'.After done' ∧
      s'.digits done' = s.digits done ++ vs := by
  induction text generalizing s done vs with
  | nil =>
    cases hvs
    exact ⟨s, done, rfl, h, (List.append_nil _).symm⟩
  | cons ch text ih =>
    rw [List.foldlM_cons]
    by_cases hspace : isspace ch = true
    · rw [List.filter_cons_of_neg (by simp [hspace])] at hvs
      rw [hexStep_of_isspace hspace]
      exact ih h hvs hle
    · rw [List.filter_cons_of_pos (by simp [hspace])] at hvs
      cases hvs with
      | @cons v _ vs _ hv hvs =>
        rw [List.length_cons] at hle
        obtain ⟨s₁, done₁, hstep, hafter, hdigits⟩ := hexStep_of_hexDigit h hv (by omega)
        have hcount : s₁.hexCount = s.hexCount + 1 := by
          rw [← hafter.length_digits, ← h.length_digits, hdigits, List.length_append, List.length_singleton]
        obtain ⟨s', done', hrun, hafter', hdigits'⟩ := ih hafter hvs (by omega)
        refine ⟨s', done', ?_, hafter', ?_⟩
        · rw [hstep]
          exact hrun
        · rw [hdigits', hdigits, List.append_assoc, List.singleton_append]

theorem HexState.After.initial : HexState.After ⟨0, none, zeros 64⟩ [] :=
  ⟨rfl, rfl, Nat.zero_le _, fun v hv => by cases hv⟩

/-- An input of 64 bytes is a signature as it stands; any other input is one just when it has the 128 digits
of it, in either case and with any white space. -/
theorem signature_read_iff (input sig : Bytes) :
    parseHeartbeatSignature input = some sig ↔
      sig.length = 64 ∧ if input.length = 64 then input = sig else SpacedHex sig input := by
  rw [parseHeartbeatSignature]
  by_cases hraw : input.length = 64
  · rw [if_pos hraw, if_pos hraw]
    constructor
    · rintro ⟨⟩
      exact ⟨hraw, rfl⟩
    · rintro ⟨-, rfl⟩
      rfl
  rw [if_neg hraw, if_neg hraw, Option.bind_eq_some_iff]
  constructor
  · rintro ⟨s, hrun, hend⟩
    split_ifs at hend with hdone
    obtain ⟨hcount, hhigh⟩ := hdone
    obtain ⟨done, vs, hafter, hvs, hdigits⟩ := hexLoop_sound .initial hrun
    have hlength : done.length = 64 := by
      have h := hafter.count
      rw [hhigh, hcount] at h
      simp only [Option.toList_none, List.length_nil] at h
      omega
    have hout : s.out = done := by
      rw [hafter.out, hlength]
      exact List.append_nil done
    obtain rfl : done = sig := hout.symm.trans (Option.some.inj hend)
    have hnibbles : nibbles done = vs := by
      rw [HexState.digits, hhigh, Option.toList_none, List.append_nil] at hdigits
      exact hdigits
    refine ⟨hlength, ?_⟩
    rw [SpacedHex, hnibbles]
    exact hvs
  · rintro ⟨hlength, hhex⟩
    have hcount : (nibbles sig).length = 128 := by rw [length_nibbles, hlength]
    obtain ⟨s, done, hrun, hafter, hdigits⟩ := hexLoop_complete .initial hhex (by rw [hcount])
    have hdone : s.digits done = nibbles sig := hdigits
    have hcount' : s.hexCount = 128 := by rw [← hafter.length_digits, hdone, hcount]
    have hhigh : s.high = none := by
      have h := hafter.count
      cases hhigh : s.high with
      | none => rfl
      | some v =>
        rw [hhigh, hcount', Option.toList_some, List.length_singleton] at h
        omega
    have hsame : done = sig := by
      rw [HexState.digits, hhigh, Option.toList_none, List.append_nil] at hdone
      exact nibbles_injective hdone
    refine ⟨s, hrun, ?_⟩
    rw [if_pos ⟨hcount', hhigh⟩, hafter.out, hsame, hlength]
    exact congrArg some (List.append_nil sig)

end Reading

end TimeCapsule.Telemetry
