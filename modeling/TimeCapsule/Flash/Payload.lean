import TimeCapsule.Flash.Basebinary
import TimeCapsule.Flash.Patch

/-!
# Flash payloads

The firmware file that carries a patched bank to the device: an Apple template whose inner payload
is exchanged.  The bank predicted from the payload is the bank the patch builder made.
-/

namespace TimeCapsule.Flash

open Lib

/-! ## Templates -/

structure FirmwareTemplateCandidate where
  data : Bytes
  source : String
  path : Option String
  productId : Option String
  version : Option String
deriving DecidableEq, Repr

inductive Syap where
  | missing
  | int (value : Int)
  | text (value : String)
deriving DecidableEq, Repr

/-- `int(normalize_syap(value), 10)`: the number that `normalize_syap` prints. -/
def normalizeSyap (env : PayloadEnv) (value : Syap) : Except FlashError Int :=
  match value with
  | .missing => .error (.analysis "cannot select firmware template because syAP is missing")
  | .int value => .ok value
  | .text value =>
      let text := strip value
      if text = "" then
        .error (.analysis "cannot select firmware template because syAP is empty")
      else
        match intLiteral env.unicode text with
        | some model => .ok model
        | none => .error (.analysis ("cannot select firmware template because syAP is invalid: " ++
            reprStr env.unicode text))

/-- `except BasebinaryError as exc: raise FlashAnalysisError(prefix + str(exc))` -/
def rethrowBasebinary {α : Type} (note : String) : Except FlashError α → Except FlashError α
  | .error (.basebinary message) => .error (.analysis (note ++ message))
  | result => result

def parseFirmwareTemplateForSyap (env : PayloadEnv) (candidate : FirmwareTemplateCandidate)
    (syap : Syap) : Except FlashError NestedBasebinary := do
  let syapModel ← normalizeSyap env syap
  let template ←
    rethrowBasebinary "" (parseNestedBasebinary env candidate.data defaultBasebinaryKeys)
  if (template.inner.header.model.toNat : Int) ≠ syapModel then
    .error (.analysis (s!"firmware template model {template.inner.header.model} " ++
      s!"does not match device syAP {syapModel}"))
  else
    .ok template

/-! ## Payloads -/

structure AcpFlashPayload where
  data : Bytes
  expectedPrefix : Bytes
  expectedLoginClassification : Option LoginClassification
  templateSource : String
  templatePath : Option String
  templateProductId : Option String
  templateVersion : Option String
  templateSha256 : String
  payloadSha256 : String
  keyId : Option String
  innerModel : UInt32
  innerVersion : UInt32
  innerPayloadSize : Nat
deriving DecidableEq, Repr

def payloadFromTemplate (candidate : FirmwareTemplateCandidate) (template : NestedBasebinary)
    (data expectedPrefix : Bytes) (expectedLoginClassification : Option LoginClassification) :
    AcpFlashPayload where
  data := data
  expectedPrefix := expectedPrefix
  expectedLoginClassification := expectedLoginClassification
  templateSource := candidate.source
  templatePath := candidate.path
  templateProductId := candidate.productId
  templateVersion := candidate.version
  templateSha256 := sha256Hex candidate.data
  payloadSha256 := sha256Hex data
  keyId := template.inner.key.map (·.keyId)
  innerModel := template.inner.header.model
  innerVersion := template.inner.header.version
  innerPayloadSize := template.inner.payload.length

def buildPatchPayloadFromTemplate (env : PayloadEnv) (bank : BankAnalysis) (syap : Syap)
    (candidate : FirmwareTemplateCandidate) (targetLabel : String) :
    Except FlashError AcpFlashPayload :=
  match bank.patch with
  | none => .error .assertion
  | some patch => do
      let template ← parseFirmwareTemplateForSyap env candidate syap
      let livePrefix := bank.data.take bank.footer.endOffset
      if template.inner.payload.length ≠ livePrefix.length then
        .error (.analysis (s!"firmware template payload length does not match {targetLabel} " ++
          s!"prefix: template={template.inner.payload.length}, " ++
          s!"target_prefix={livePrefix.length}"))
      else if template.inner.payload ≠ livePrefix then
        .error (.analysis ("firmware template decrypted payload does not match the live " ++
          targetLabel))
      else do
        let patchedPrefix := patch.targetBank.take bank.footer.endOffset
        let payload ← composeNestedBasebinary env template patchedPrefix
        let reparsed ← rethrowBasebinary "composed basebinary payload did not reparse: "
          (parseNestedBasebinary env payload defaultBasebinaryKeys)
        if reparsed.inner.payload ≠ patchedPrefix then
          .error (.analysis ("composed basebinary payload did not decrypt back to the patched " ++
            "bank prefix"))
        else if reparsed.inner.header ≠ template.inner.header ∨
            reparsed.outer.header ≠ template.outer.header then
          .error (.analysis "composed basebinary payload changed template headers unexpectedly")
        else
          .ok (payloadFromTemplate candidate template payload patchedPrefix
            (some .alreadyPatched))

/-- The bank and the footer checksum predicted for a write of the payload. -/
def expectedBankAfterWrite (active : BankAnalysis) (payload : AcpFlashPayload) :
    Except FlashError (Bytes × Nat) :=
  if payload.expectedPrefix.length ≠ active.footer.endOffset then
    .error (.analysis ("flash payload expected prefix length does not match target bank footer " ++
      s!"end_offset: payload={payload.expectedPrefix.length}, " ++
      s!"target_end_offset={active.footer.endOffset}"))
  else
    let expected := setSlice active.data 0 active.footer.endOffset payload.expectedPrefix
    let checksum := adler32 (expected.take active.footer.endOffset)
    .ok (setSlice expected active.footer.offset (active.footer.offset + 4) (be32 checksum),
      checksum)

/-! ## The prediction -/

namespace BankLayout

variable {data z : Bytes} (l : BankLayout data)

/-- The rebuilt bank, from the target's prefix and the old bank's rest. -/
theorem setSlice_take_target (hz : z.length ≤ l.member.consumedLength) :
    setSlice data 0 l.footer.endOffset ((l.target z).take l.footer.endOffset) =
      rebuiltBank data l.member z := by
  have hrest : (rebuiltBank data l.member z).drop l.footer.endOffset =
      data.drop l.footer.endOffset :=
    drop_setSlice l.member_start_le l.member_end_le_length (l.length_slot hz) l.member_le
  rw [setSlice, List.take_zero, List.nil_append, l.take_target hz l.end_lt.le, ← hrest,
    List.take_append_drop]

end BankLayout

section Prediction

variable {env : PayloadEnv} {name device osRelease label : String} {data : Bytes}
  {acpChecksum : Option Nat} {candidate : Bool} {a : BankAnalysis} {p : PatchBuildInfo}
  {syap : Syap} {template : FirmwareTemplateCandidate} {payload : AcpFlashPayload}

theorem Analysed.expectedBankAfterWrite_eq {fenv : FlashEnv} {offset length : Nat}
    (h : Analysed fenv name device data acpChecksum a)
    (hp : Patched fenv data a.footer a.gzipMember a.login p offset length)
    (hhead : payload.expectedPrefix = p.targetBank.take a.footer.endOffset) :
    expectedBankAfterWrite a payload = .ok (p.targetBank, p.footerChecksum) := by
  have htarget := h.targetBank_eq hp
  have hlen : payload.expectedPrefix.length = a.footer.endOffset := by
    have hlt : a.footer.endOffset < a.footer.offset := h.layout.end_lt
    have hle : a.footer.offset + 8 ≤ data.length := h.layout.footer_le
    rw [hhead, htarget, List.length_take, h.layout.length_target hp.gzip_fits]
    omega
  have hrebuilt : setSlice a.data 0 a.footer.endOffset payload.expectedPrefix =
      rebuiltBank data a.gzipMember (patchedGzip fenv a offset length) := by
    rw [h.data_eq, hhead, htarget]
    exact h.layout.setSlice_take_target hp.gzip_fits
  rw [expectedBankAfterWrite, if_neg (not_not.mpr hlen), hrebuilt]
  exact congrArg Except.ok (Prod.ext hp.target_eq.symm hp.checksum_eq.symm)

theorem rethrowBasebinary_eq_ok {α : Type} {note : String} {x : Except FlashError α} {b : α} :
    rethrowBasebinary note x = .ok b ↔ x = .ok b := by
  match x with
  | .ok _ => exact Iff.rfl
  | .error (.basebinary _) => exact ⟨nofun, nofun⟩
  | .error (.analysis _) => exact ⟨nofun, nofun⟩
  | .error .assertion => exact ⟨nofun, nofun⟩

theorem parseFirmwareTemplateForSyap_eq_ok {t : NestedBasebinary}
    (h : parseFirmwareTemplateForSyap env template syap = .ok t) :
    parseNestedBasebinary env template.data defaultBasebinaryKeys = .ok t := by
  obtain ⟨_, _, h⟩ := bind_eq_ok.mp h
  obtain ⟨t', ht, h⟩ := bind_eq_ok.mp h
  obtain ⟨_, h⟩ := ite_error_eq_ok.mp h
  obtain rfl := Except.ok.inj h
  exact rethrowBasebinary_eq_ok.mp ht

/-- What the payload builder has checked. -/
structure PayloadBuilt (env : PayloadEnv) (a : BankAnalysis) (p : PatchBuildInfo)
    (template : FirmwareTemplateCandidate) (payload : AcpFlashPayload)
    (t reparsed : NestedBasebinary) : Prop where
  template_parses : parseNestedBasebinary env template.data defaultBasebinaryKeys = .ok t
  composed : composeNestedBasebinary env t (p.targetBank.take a.footer.endOffset) =
    .ok payload.data
  reparses : parseNestedBasebinary env payload.data defaultBasebinaryKeys = .ok reparsed
  inner_payload : reparsed.inner.payload = p.targetBank.take a.footer.endOffset
  inner_header : reparsed.inner.header = t.inner.header
  outer_header : reparsed.outer.header = t.outer.header
  prefix_eq : payload.expectedPrefix = p.targetBank.take a.footer.endOffset

theorem buildPatchPayloadFromTemplate_eq_ok (hpatch : a.patch = some p)
    (h : buildPatchPayloadFromTemplate env a syap template label = .ok payload) :
    ∃ t reparsed, PayloadBuilt env a p template payload t reparsed := by
  rw [buildPatchPayloadFromTemplate, hpatch] at h
  obtain ⟨t, ht, h⟩ := bind_eq_ok.mp h
  obtain ⟨_, h⟩ := ite_error_eq_ok.mp h
  obtain ⟨_, h⟩ := ite_error_eq_ok.mp h
  obtain ⟨composed, hcomposed, h⟩ := bind_eq_ok.mp h
  obtain ⟨reparsed, hreparsed, h⟩ := bind_eq_ok.mp h
  obtain ⟨hpayload, h⟩ := ite_error_eq_ok.mp h
  obtain ⟨hheaders, h⟩ := ite_error_eq_ok.mp h
  obtain rfl := Except.ok.inj h
  obtain ⟨hinner, houter⟩ := not_or.mp hheaders
  exact ⟨t, reparsed, parseFirmwareTemplateForSyap_eq_ok ht, hcomposed,
    rethrowBasebinary_eq_ok.mp hreparsed, not_not.mp hpayload, not_not.mp hinner,
    not_not.mp houter, rfl⟩

theorem length_derivedKey (key : BasebinaryKey) : key.derivedKey.length = aesBlockSize := by
  rw [BasebinaryKey.derivedKey, List.length_mapIdx, key.storedKey_length]

/-- The two containers of a composed file, each decrypted with its own key of the template. -/
theorem composed_decrypts {t : NestedBasebinary} {inner composed : Bytes}
    (haes : ∀ key : Bytes, key.length = aesBlockSize → (env.aes key).Lawful aesBlockSize)
    (h : composeNestedBasebinary env t inner = .ok composed) :
    ∃ outerContainer innerContainer,
      parseBasebinary env composed t.outer.key.toList = .ok outerContainer ∧
      outerContainer.header = t.outer.header ∧
      parseBasebinary env outerContainer.payload t.inner.key.toList = .ok innerContainer ∧
      innerContainer.header = t.inner.header ∧ innerContainer.payload = inner := by
  obtain ⟨innerBytes, hinner, houter⟩ := bind_eq_ok.mp h
  obtain ⟨o, ho, hoh, hop⟩ := parseBasebinary_composeBasebinary
    (fun key _ => haes _ (length_derivedKey key)) houter
  obtain ⟨i, hi, hih, hip⟩ := parseBasebinary_composeBasebinary
    (fun key _ => haes _ (length_derivedKey key)) hinner
  exact ⟨o, i, ho, hoh, by rw [hop]; exact hi, hih, hip⟩

/-- The bank predicted from an accepted payload is the patched bank, with its checksum; the payload
decrypts, under the candidate keys and under the template's own keys, to the patched prefix inside
the template's headers. -/
theorem patch_payload_predicts_target
    (haes : ∀ key : Bytes, key.length = aesBlockSize → (env.aes key).Lawful aesBlockSize)
    (ha : analyzeBank env.toFlashEnv name device data acpChecksum osRelease candidate = .ok a)
    (hpatch : a.patch = some p)
    (hpayload : buildPatchPayloadFromTemplate env a syap template label = .ok payload) :
    expectedBankAfterWrite a payload = .ok (p.targetBank, p.footerChecksum) ∧
    ∃ t, parseNestedBasebinary env template.data defaultBasebinaryKeys = .ok t ∧
      (∃ n, parseNestedBasebinary env payload.data defaultBasebinaryKeys = .ok n ∧
        n.inner.payload = p.targetBank.take a.footer.endOffset ∧
        n.inner.header = t.inner.header ∧ n.outer.header = t.outer.header) ∧
      ∃ o i, parseBasebinary env payload.data t.outer.key.toList = .ok o ∧
        o.header = t.outer.header ∧
        parseBasebinary env o.payload t.inner.key.toList = .ok i ∧
        i.header = t.inner.header ∧ i.payload = p.targetBank.take a.footer.endOffset := by
  have h := analyzeBank_ok ha
  obtain ⟨offset, length, hp⟩ := buildPatch_eq_ok (h.patch_eq p hpatch)
  obtain ⟨t, n, hb⟩ := buildPatchPayloadFromTemplate_eq_ok hpatch hpayload
  exact ⟨h.expectedBankAfterWrite_eq hp hb.prefix_eq, t, hb.template_parses,
    ⟨n, hb.reparses, hb.inner_payload, hb.inner_header, hb.outer_header⟩,
    composed_decrypts haes hb.composed⟩

end Prediction

/-! ## A template for the small bank -/

def plainHeader : BasebinaryHeader := ⟨0, 113, 0x78100, 0, 0, 0, 0, 0⟩

/-- A container without encryption. -/
def plainContainer (payload : Bytes) : Bytes :=
  plainHeader.toBytes ++ payload ++ be32 (adler32 (plainHeader.toBytes ++ payload))

def smallTemplate : FirmwareTemplateCandidate :=
  ⟨plainContainer (plainContainer smallPrefix), "local", none, some "113", some "7.8.1"⟩

def plainEnv : PayloadEnv := { storedEnv with aesInstalled := true, aes := fun _ => ⟨id, id⟩ }

theorem parseBasebinary_plainContainer (payload : Bytes) (keys : List BasebinaryKey) :
    parseBasebinary plainEnv (plainContainer payload) keys =
      .ok ⟨plainHeader, payload, adler32 (plainHeader.toBytes ++ payload), none⟩ :=
  parseBasebinary_plain (by decide)

theorem length_plainContainer (payload : Bytes) :
    (plainContainer payload).length = headerSize + payload.length + 4 := by
  simp only [plainContainer, List.length_append, length_toBytes, length_be32]

theorem parseNestedBasebinary_plainContainer (payload : Bytes) (keys : List BasebinaryKey) :
    parseNestedBasebinary plainEnv (plainContainer (plainContainer payload)) keys =
      .ok ⟨⟨plainHeader, plainContainer payload,
          adler32 (plainHeader.toBytes ++ plainContainer payload), none⟩,
        ⟨plainHeader, payload, adler32 (plainHeader.toBytes ++ payload), none⟩⟩ := by
  have hinner : isBasebinary (plainContainer payload) = true := by
    rw [isBasebinary, length_plainContainer, Bool.and_eq_true, decide_eq_true_eq,
      decide_eq_true_eq]
    refine ⟨by omega, ?_⟩
    simp only [plainContainer, BasebinaryHeader.toBytes, List.append_assoc, List.take_left]
  simp only [parseNestedBasebinary, parseBasebinary_plainContainer, bind, Except.bind, hinner]
  rfl

/-- The small template is accepted for every patch of a bank with the small prefix. -/
theorem smallTemplate_accepted {a : BankAnalysis} {p : PatchBuildInfo} (hpatch : a.patch = some p)
    (hhead : a.data.take a.footer.endOffset = smallPrefix) :
    ∃ payload,
      buildPatchPayloadFromTemplate plainEnv a (.text "0x71") smallTemplate "primary" =
        .ok payload := by
  have hsyap : normalizeSyap plainEnv (.text "0x71") = .ok 113 := by decide +kernel
  have hparse : parseFirmwareTemplateForSyap plainEnv smallTemplate (.text "0x71") =
      .ok ⟨⟨plainHeader, plainContainer smallPrefix,
          adler32 (plainHeader.toBytes ++ plainContainer smallPrefix), none⟩,
        ⟨plainHeader, smallPrefix, adler32 (plainHeader.toBytes ++ smallPrefix), none⟩⟩ := by
    simp only [parseFirmwareTemplateForSyap, smallTemplate, hsyap, rethrowBasebinary,
      parseNestedBasebinary_plainContainer, bind, Except.bind]
    rfl
  have hcompose : ∀ payload : Bytes, composeBasebinary plainEnv plainHeader payload none =
      .ok (plainContainer payload) := fun _ => rfl
  simp only [buildPatchPayloadFromTemplate, hpatch, hparse, hhead, composeNestedBasebinary,
    hcompose, rethrowBasebinary, parseNestedBasebinary_plainContainer, bind, Except.bind, ne_eq,
    not_true_eq_false, if_false, or_self]
  exact ⟨_, rfl⟩

theorem smallTemplate_predicts_target : ∃ a p payload,
    analyzeBank storedEnv "primary" "/dev/rflash1" smallBank none "4.0" true = .ok a ∧
      a.patch = some p ∧
      buildPatchPayloadFromTemplate plainEnv a (.text "0x71") smallTemplate "primary" =
        .ok payload ∧
      expectedBankAfterWrite a payload = .ok (p.targetBank, p.footerChecksum) := by
  have hrun : ((analyzeBank storedEnv "primary" "/dev/rflash1" smallBank none "4.0"
      true).toOption.bind fun a => a.patch.map fun _ => a.footer.endOffset) =
      some smallPrefix.length := by
    decide +kernel
  obtain ⟨a, ha, hrun⟩ := Option.bind_eq_some_iff.mp hrun
  obtain ⟨p, hpatch, hend⟩ := Option.map_eq_some_iff.mp hrun
  have ha := toOption_eq_some.mp ha
  have hhead : a.data.take a.footer.endOffset = smallPrefix := by
    rw [(analyzeBank_ok ha).data_eq, hend, smallBank, List.append_assoc, List.append_assoc,
      List.take_left]
  obtain ⟨payload, hpayload⟩ := smallTemplate_accepted hpatch hhead
  have hcipher : ∀ key : Bytes, key.length = aesBlockSize →
      (plainEnv.aes key).Lawful aesBlockSize := fun _ _ _ hb => ⟨hb, rfl⟩
  obtain ⟨hpredicted, _⟩ := patch_payload_predicts_target hcipher ha hpatch hpayload
  exact ⟨a, p, payload, ha, hpatch, hpayload, hpredicted⟩

end TimeCapsule.Flash
