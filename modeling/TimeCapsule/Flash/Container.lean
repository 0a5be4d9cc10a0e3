import TimeCapsule.Flash.Payload

/-!
# Containers both ways

Composing what was parsed gives the bytes that were parsed, and parsing what was composed gives what
went in, under the keys the parser had validated.  The parser takes the first key whose decryption
fits the checksum, so with two keys the wrong one may fit first.
-/

namespace TimeCapsule.Flash

open Lib

/-! ## Composing what was parsed -/

section Recompose

variable {env : PayloadEnv} {data payload : Bytes} {header : BasebinaryHeader}
  {c : BasebinaryContainer} {keys : List BasebinaryKey}

theorem toNat_ofNat_be32At {i : Nat} (h : i + 4 ≤ data.length) :
    be32 (UInt32.ofNat (be32At data i)).toNat = slice data i (i + 4) := by
  have hlen : (slice data i (i + 4)).length = 4 := by
    rw [length_slice h]
    omega
  have hlt := ofBe_lt hlen
  rw [be32At, UInt32.toNat_ofNat', Nat.mod_eq_of_lt hlt, be32_ofBe hlen]

/-- The header keeps every byte behind the magic. -/
theorem toBytes_parseBasebinaryHeader (h : parseBasebinaryHeader data = .ok header) :
    header.toBytes = data := by
  obtain ⟨hlen, h⟩ := ite_error_eq_ok.mp h
  obtain ⟨hmagic, h⟩ := ite_error_eq_ok.mp h
  obtain rfl := Except.ok.inj h
  rw [not_not] at hlen hmagic
  have h32 : data.length = 32 := hlen
  have hrest : ∀ i : Nat, i < 32 → [data.getD i 0] = slice data i (i + 1) := by
    intro i hi
    rw [← h32] at hi
    rw [slice_add, List.take_one_drop_eq_of_lt_length hi, List.getD_eq_getElem?_getD,
      List.getElem?_eq_getElem hi]
    rfl
  have hjoin : ∀ i j k : Nat, i ≤ j → j ≤ k → slice data i j ++ slice data j k = slice data i k := by
    intro i j k hij hjk
    rw [slice, slice, slice, ← Nat.sub_add_sub_cancel hjk hij, Nat.add_comm (k - j),
      List.take_add, List.drop_drop, Nat.add_sub_cancel' hij]
  have hfirst : magicPrefix = slice data 0 15 := by
    rw [← hmagic]
    rfl
  unfold BasebinaryHeader.toBytes
  dsimp only
  rw [toNat_ofNat_be32At (by omega), toNat_ofNat_be32At (by omega), toNat_ofNat_be32At (by omega)]
  have hbytes : [data.getD 24 0, data.getD 25 0, data.getD 26 0, data.getD 27 0] =
      slice data 24 28 := by
    rw [← hjoin 24 25 28 (by omega) (by omega), ← hjoin 25 26 28 (by omega) (by omega),
      ← hjoin 26 27 28 (by omega) (by omega), ← hrest 24 (by omega), ← hrest 25 (by omega),
      ← hrest 26 (by omega), ← hrest 27 (by omega)]
    rfl
  rw [hbytes, hrest 15 (by omega), hfirst, hjoin 0 15 16 (by omega) (by omega),
    hjoin 0 16 20 (by omega) (by omega), hjoin 0 20 24 (by omega) (by omega),
    hjoin 0 24 28 (by omega) (by omega), hjoin 0 28 32 (by omega) (by omega), slice, List.drop_zero,
    List.take_of_length_le (by omega)]

theorem crypt_round_trip_back {key : BasebinaryKey} {iv plain : Bytes}
    (hc : (env.aes key.derivedKey).Permutes aesBlockSize) (hiv : iv.length = aesBlockSize)
    (h : decryptBasebinaryPayload env data key iv = .ok plain) :
    encryptBasebinaryPayload env plain key iv = .ok data := by
  obtain ⟨hinstalled, h⟩ := ite_error_eq_ok.mp h
  obtain rfl := Except.ok.inj h
  have hlen : ∀ c : Bytes, aesBlockSize ∣ c.length →
      (cbcDecryptBytes aesBlockSize (env.aes key.derivedKey) iv c).length = c.length :=
    fun c => length_cbcDecryptBytes (by decide) hc.2 hiv
  have hempty : data = [] →
      (chunksOf aesChunkSize data).flatMap (onWholeBlocks aesBlockSize
        (cbcDecryptBytes aesBlockSize (env.aes key.derivedKey) iv)) = [] := by
    rintro rfl
    rfl
  rw [encryptBasebinaryPayload, cryptBasebinaryPayload, ite_error_eq_ok]
  refine ⟨fun h => hinstalled ⟨fun hd => h.1 (hempty hd), h.2⟩, congrArg Except.ok ?_⟩
  exact flatMap_chunksOf_inverse (by decide) (length_onWholeBlocks hlen)
    (onWholeBlocks_inverse hlen fun c => cbcEncryptBytes_cbcDecryptBytes (by decide) hc.2 hiv) data

/-- The container of the first key whose decryption fits the checksum. -/
theorem tryBasebinaryKeys_eq_ok {headerBytes raw : Bytes} {sum : Nat}
    (h : tryBasebinaryKeys env header headerBytes raw sum keys = .ok c) :
    ∃ key ∈ keys, decryptBasebinaryPayload env raw key header.iv = .ok c.payload ∧
      adler32 (headerBytes ++ c.payload) = sum ∧ c = ⟨header, c.payload, sum, some key⟩ := by
  induction keys with
  | nil => cases h
  | cons key keys ih =>
    obtain ⟨plain, hplain, h⟩ := bind_eq_ok.mp h
    by_cases hsum : adler32 (headerBytes ++ plain) = sum
    · rw [if_pos hsum] at h
      obtain rfl := Except.ok.inj h
      exact ⟨key, List.mem_cons_self, hplain, hsum, rfl⟩
    · rw [if_neg hsum] at h
      obtain ⟨key', hmem, hrest⟩ := ih h
      exact ⟨key', List.mem_cons_of_mem _ hmem, hrest⟩

/-- What the parser has established about a container, with the payload as it is stored. -/
structure Parsed (env : PayloadEnv) (data : Bytes) (c : BasebinaryContainer) (stored : Bytes) :
    Prop where
  data_eq : data = c.header.toBytes ++ stored ++ be32 (adler32 (c.header.toBytes ++ c.payload))
  checksum_eq : c.checksum = adler32 (c.header.toBytes ++ c.payload)
  plain : c.header.encrypted = false → c.key = none ∧ stored = c.payload
  encrypted : c.header.encrypted = true → ∃ key, c.key = some key ∧
    decryptBasebinaryPayload env stored key c.header.iv = .ok c.payload

theorem parseBasebinary_eq_ok (h : parseBasebinary env data keys = .ok c) :
    ∃ stored, Parsed env data c stored := by
  unfold parseBasebinary at h
  dsimp only at h
  obtain ⟨hlen, h⟩ := ite_error_eq_ok.mp h
  obtain ⟨header, hheader, h⟩ := bind_eq_ok.mp h
  have hbytes := toBytes_parseBasebinaryHeader hheader
  have hend : data.length - 4 + 4 = data.length := by omega
  have hsum : be32 (be32At data (data.length - 4)) = data.drop (data.length - 4) := by
    rw [be32At, slice_add, List.take_of_length_le (by rw [List.length_drop]; omega)]
    apply be32_ofBe
    rw [List.length_drop]
    omega
  have hparts : data = data.take headerSize ++ slice data headerSize (data.length - 4) ++
      data.drop (data.length - 4) := by
    have hcut : headerSize + (data.length - 4 - headerSize) = data.length - 4 := by omega
    rw [slice, ← List.take_add, hcut, List.take_append_drop]
  by_cases henc : header.encrypted = true
  · rw [henc, Bool.not_true, if_neg (by decide)] at h
    obtain ⟨_, h⟩ := ite_error_eq_ok.mp h
    obtain ⟨key, _, hdec, hfits, hc⟩ := tryBasebinaryKeys_eq_ok h
    refine ⟨slice data headerSize (data.length - 4), ?_⟩
    rw [hc]
    constructor
    · show data = header.toBytes ++ _ ++ be32 (adler32 (header.toBytes ++ c.payload))
      rw [hbytes, hfits, hsum]
      exact hparts
    · show _ = adler32 (header.toBytes ++ c.payload)
      rw [hbytes, hfits]
    · intro hplain
      exact absurd (henc.symm.trans hplain) (by decide)
    · intro _
      exact ⟨key, rfl, hdec⟩
  · rw [Bool.not_eq_true] at henc
    rw [henc, Bool.not_false, if_pos rfl] at h
    obtain ⟨hfits, h⟩ := ite_error_eq_ok.mp h
    obtain rfl := Except.ok.inj h
    rw [not_not] at hfits
    refine ⟨slice data headerSize (data.length - 4), ?_⟩
    constructor
    · show data = header.toBytes ++ _ ++ be32 (adler32 (header.toBytes ++ _))
      rw [hbytes, hfits, hsum]
      exact hparts
    · show _ = adler32 (header.toBytes ++ _)
      rw [hbytes, hfits]
    · intro _
      exact ⟨rfl, rfl⟩
    · intro h
      exact absurd (henc.symm.trans h) (by decide)

/-- A parsed container composes to the bytes it was parsed from. -/
theorem composeBasebinary_parsed
    (haes : ∀ key : Bytes, key.length = aesBlockSize → (env.aes key).Permutes aesBlockSize)
    {stored : Bytes} (h : Parsed env data c stored) :
    composeBasebinary env c.header c.payload c.key = .ok data := by
  unfold composeBasebinary
  dsimp only
  rw [bind_eq_ok]
  refine ⟨stored, ?_, congrArg Except.ok h.data_eq.symm⟩
  cases henc : c.header.encrypted with
  | false => rw [if_neg (by decide), (h.plain henc).2]
  | true =>
    obtain ⟨key, hkey, hdec⟩ := h.encrypted henc
    rw [if_pos rfl, hkey]
    exact crypt_round_trip_back (haes _ (length_derivedKey key)) (length_iv c.header) hdec

theorem parseNestedBasebinary_eq_ok {n : NestedBasebinary}
    (h : parseNestedBasebinary env data keys = .ok n) :
    parseBasebinary env data keys = .ok n.outer ∧
      parseBasebinary env n.outer.payload keys = .ok n.inner := by
  obtain ⟨outer, houter, h⟩ := bind_eq_ok.mp h
  obtain ⟨_, h⟩ := ite_error_eq_ok.mp h
  obtain ⟨inner, hinner, h⟩ := bind_eq_ok.mp h
  obtain rfl := Except.ok.inj h
  exact ⟨houter, hinner⟩

theorem composeNestedBasebinary_parsed
    (haes : ∀ key : Bytes, key.length = aesBlockSize → (env.aes key).Permutes aesBlockSize)
    {n : NestedBasebinary} (h : parseNestedBasebinary env data keys = .ok n) :
    composeNestedBasebinary env n n.inner.payload = .ok data := by
  obtain ⟨houter, hinner⟩ := parseNestedBasebinary_eq_ok h
  obtain ⟨_, houter⟩ := parseBasebinary_eq_ok houter
  obtain ⟨_, hinner⟩ := parseBasebinary_eq_ok hinner
  unfold composeNestedBasebinary
  rw [bind_eq_ok]
  exact ⟨n.outer.payload, composeBasebinary_parsed haes hinner, composeBasebinary_parsed haes houter⟩

end Recompose

/-! ## Parsing what was composed -/

def BasebinaryContainer.ValidChecksum (c : BasebinaryContainer) : Prop :=
  c.checksum = adler32 (c.header.toBytes ++ c.payload)

/-- No decryption with the key of the outer container, which the parser tries first, fits the
checksum of the new inner container, unless it gives the same payload. -/
def InnerKeyDecides (env : PayloadEnv) (t : NestedBasebinary) (payload : Bytes) : Prop :=
  ∀ (outerKey innerKey : BasebinaryKey) (stored other : Bytes),
    t.outer.key = some outerKey → t.inner.key = some innerKey →
    encryptBasebinaryPayload env payload innerKey t.inner.header.iv = .ok stored →
    decryptBasebinaryPayload env stored outerKey t.inner.header.iv = .ok other →
    adler32 (t.inner.header.toBytes ++ other) = adler32 (t.inner.header.toBytes ++ payload) →
    other = payload

section Reparse

variable {env : PayloadEnv} {header : BasebinaryHeader} {payload composed : Bytes}
  {key? : Option BasebinaryKey} {t : NestedBasebinary}

/-- The key of a template's container is there when it is needed. -/
def KeyFits (header : BasebinaryHeader) (key? : Option BasebinaryKey) : Prop :=
  header.encrypted = key?.isSome

theorem Parsed.keyFits {data stored : Bytes} {c : BasebinaryContainer} (h : Parsed env data c stored) :
    KeyFits c.header c.key := by
  unfold KeyFits
  cases henc : c.header.encrypted with
  | false => rw [(h.plain henc).1, Option.isSome_none]
  | true =>
    obtain ⟨key, hkey, _⟩ := h.encrypted henc
    rw [hkey, Option.isSome_some]

theorem parseNestedBasebinary_keyFits {data : Bytes} {keys : List BasebinaryKey}
    (h : parseNestedBasebinary env data keys = .ok t) :
    KeyFits t.outer.header t.outer.key ∧ KeyFits t.inner.header t.inner.key := by
  obtain ⟨houter, hinner⟩ := parseNestedBasebinary_eq_ok h
  obtain ⟨_, houter⟩ := parseBasebinary_eq_ok houter
  obtain ⟨_, hinner⟩ := parseBasebinary_eq_ok hinner
  exact ⟨houter.keyFits, hinner.keyFits⟩

theorem composeBasebinary_ok (hkey : KeyFits header key?) (haes : env.aesInstalled) :
    ∃ composed, composeBasebinary env header payload key? = .ok composed := by
  unfold composeBasebinary
  dsimp only
  cases key? with
  | none =>
    have henc : header.encrypted = false := hkey
    rw [henc, if_neg (by decide)]
    exact ⟨_, rfl⟩
  | some key =>
    have henc : header.encrypted = true := hkey
    rw [henc, if_pos rfl]
    dsimp only
    rw [encryptBasebinaryPayload, cryptBasebinaryPayload, if_neg (by simp [haes])]
    exact ⟨_, rfl⟩

/-- A composed container, parsed with its key in front of any others. -/
theorem parseBasebinary_composed
    (haes : ∀ key : Bytes, key.length = aesBlockSize → (env.aes key).Permutes aesBlockSize)
    (hkey : KeyFits header key?) (h : composeBasebinary env header payload key? = .ok composed)
    (more : List BasebinaryKey) :
    parseBasebinary env composed (key?.toList ++ more) =
      .ok ⟨header, payload, adler32 (header.toBytes ++ payload), key?⟩ := by
  obtain ⟨stored, hstored, h⟩ := bind_eq_ok.mp h
  obtain rfl := Except.ok.inj h
  cases key? with
  | none =>
    have henc : header.encrypted = false := hkey
    rw [henc] at hstored
    obtain rfl := Except.ok.inj hstored
    exact parseBasebinary_plain henc
  | some key =>
    have henc : header.encrypted = true := hkey
    rw [henc] at hstored
    exact parseBasebinary_encrypted henc
      (crypt_round_trip (haes _ (length_derivedKey key)).1 (length_iv header) hstored)

theorem isBasebinary_composed (h : composeBasebinary env header payload key? = .ok composed) :
    isBasebinary composed := by
  obtain ⟨stored, _, h⟩ := bind_eq_ok.mp h
  obtain rfl := Except.ok.inj h
  have hmagic : header.toBytes.take magicPrefix.length = magicPrefix := by
    simp only [BasebinaryHeader.toBytes, List.append_assoc, List.take_left]
  have hheader := length_toBytes header
  have hmagicLength : magicPrefix.length ≤ header.toBytes.length := by
    rw [hheader, magicPrefix_eq]
    decide
  unfold isBasebinary
  rw [Bool.and_eq_true, decide_eq_true_eq, decide_eq_true_eq, List.append_assoc, List.length_append,
    hheader, List.take_append_of_le_length hmagicLength]
  exact ⟨Nat.le_add_right _ _, hmagic⟩

/-- Any key decrypts what one key has encrypted, rightly or not. -/
theorem decryptBasebinaryPayload_ok {key : BasebinaryKey} {iv stored : Bytes}
    (key' : BasebinaryKey) (iv' : Bytes)
    (h : encryptBasebinaryPayload env payload key iv = .ok stored) :
    ∃ other, decryptBasebinaryPayload env stored key' iv' = .ok other := by
  obtain ⟨hinstalled, h⟩ := ite_error_eq_ok.mp h
  obtain rfl := Except.ok.inj h
  rw [decryptBasebinaryPayload, cryptBasebinaryPayload, if_neg]
  · exact ⟨_, rfl⟩
  · rintro ⟨hne, hni⟩
    apply hinstalled
    refine ⟨?_, hni⟩
    rintro rfl
    exact hne rfl

/-- The inner container, parsed with the outer key in front of its own. -/
theorem parseBasebinary_composed_second
    (haes : ∀ key : Bytes, key.length = aesBlockSize → (env.aes key).Permutes aesBlockSize)
    {outerKey innerKey : BasebinaryKey} (hkey : KeyFits header (some innerKey))
    (h : composeBasebinary env header payload (some innerKey) = .ok composed) :
    ∃ stored other, encryptBasebinaryPayload env payload innerKey header.iv = .ok stored ∧
      decryptBasebinaryPayload env stored outerKey header.iv = .ok other ∧
      parseBasebinary env composed [outerKey, innerKey] =
        .ok (if adler32 (header.toBytes ++ other) = adler32 (header.toBytes ++ payload) then
          ⟨header, other, adler32 (header.toBytes ++ payload), some outerKey⟩
        else ⟨header, payload, adler32 (header.toBytes ++ payload), some innerKey⟩) := by
  have henc : header.encrypted = true := hkey
  obtain ⟨stored, hstored, h⟩ := bind_eq_ok.mp h
  obtain rfl := Except.ok.inj h
  rw [henc, if_pos rfl] at hstored
  have hown := crypt_round_trip (haes _ (length_derivedKey innerKey)).1 (length_iv header) hstored
  obtain ⟨other, hother⟩ := decryptBasebinaryPayload_ok outerKey header.iv hstored
  refine ⟨stored, other, hstored, hother, ?_⟩
  by_cases hfits : adler32 (header.toBytes ++ other) = adler32 (header.toBytes ++ payload)
  · rw [if_pos hfits, ← hfits]
    exact parseBasebinary_encrypted henc hother
  · have hsum32 := adler32_lt (header.toBytes ++ payload)
    obtain ⟨hlen, htake, hraw, hsum⟩ : (_ = headerSize + stored.length + 4) ∧ _ ∧ _ ∧ _ :=
      assembled_parts hsum32 rfl
    rw [if_neg hfits, parseBasebinary, if_neg (by rw [hlen]; omega), htake, hraw, hsum]
    simp only [parseBasebinaryHeader_toBytes, bind, Except.bind, henc, Bool.not_true,
      Bool.false_eq_true, if_false, List.isEmpty_cons, tryBasebinaryKeys, hother, hown, if_true, hfits]

end Reparse

section Nested

variable {env : PayloadEnv} {payload innerBytes composed : Bytes} {t : NestedBasebinary}

theorem composeNestedBasebinary_ok (houter : KeyFits t.outer.header t.outer.key)
    (hinner : KeyFits t.inner.header t.inner.key) (haes : env.aesInstalled) :
    ∃ composed, composeNestedBasebinary env t payload = .ok composed := by
  obtain ⟨innerBytes, hin⟩ := composeBasebinary_ok hinner haes
  obtain ⟨composed, hout⟩ := composeBasebinary_ok houter haes
  exact ⟨composed, bind_eq_ok.mpr ⟨innerBytes, hin, hout⟩⟩

/-- What the parser finds in the inner container with the keys of the template. -/
theorem inner_reparsed
    (haes : ∀ key : Bytes, key.length = aesBlockSize → (env.aes key).Permutes aesBlockSize)
    (hinner : KeyFits t.inner.header t.inner.key)
    (h : composeBasebinary env t.inner.header payload t.inner.key = .ok innerBytes) :
    ∃ i, parseBasebinary env innerBytes (t.outer.key.toList ++ t.inner.key.toList) = .ok i ∧
      i.header = t.inner.header ∧ i.ValidChecksum ∧
      (i.payload = payload ↔ InnerKeyDecides env t payload) := by
  have hown := parseBasebinary_composed haes hinner h
  cases houterKey : t.outer.key with
  | none =>
    rw [← List.append_nil (Option.toList none ++ t.inner.key.toList)]
    refine ⟨_, hown [], rfl, rfl, iff_of_true rfl ?_⟩
    intro _ _ _ _ hk
    rw [houterKey] at hk
    cases hk
  | some outerKey =>
    cases hinnerKey : t.inner.key with
    | none =>
      rw [hinnerKey] at hown
      refine ⟨_, hown _, rfl, rfl, iff_of_true rfl ?_⟩
      intro _ _ _ _ _ hk
      rw [hinnerKey] at hk
      cases hk
    | some innerKey =>
      rw [hinnerKey] at hinner h
      obtain ⟨stored, other, hstored, hother, hparse⟩ := parseBasebinary_composed_second haes hinner h
      refine ⟨_, hparse, ?_⟩
      have hdecides : InnerKeyDecides env t payload ↔
          (adler32 (t.inner.header.toBytes ++ other) = adler32 (t.inner.header.toBytes ++ payload) →
            other = payload) := by
        constructor
        · intro hd
          exact hd outerKey innerKey stored other houterKey hinnerKey hstored hother
        · intro hd outerKey' innerKey' stored' other' ho hi hs hd'
          obtain rfl := Option.some.inj (houterKey.symm.trans ho)
          obtain rfl := Option.some.inj (hinnerKey.symm.trans hi)
          obtain rfl := Except.ok.inj (hstored.symm.trans hs)
          obtain rfl := Except.ok.inj (hother.symm.trans hd')
          exact hd
      rw [hdecides]
      by_cases hfits :
          adler32 (t.inner.header.toBytes ++ other) = adler32 (t.inner.header.toBytes ++ payload)
      · rw [if_pos hfits]
        exact ⟨rfl, hfits.symm, fun heq _ => heq, fun hd => hd hfits⟩
      · rw [if_neg hfits]
        exact ⟨rfl, rfl, fun _ hf => absurd hf hfits, fun _ => rfl⟩

theorem innerKeyDecides_of_eq
    (haes : ∀ key : Bytes, key.length = aesBlockSize → (env.aes key).Permutes aesBlockSize)
    (h : t.outer.key = t.inner.key) : InnerKeyDecides env t payload := by
  intro outerKey innerKey stored other ho hi hstored hother _
  obtain rfl := Option.some.inj ((h.symm.trans ho).symm.trans hi)
  have hown := crypt_round_trip (haes _ (length_derivedKey _)).1 (length_iv t.inner.header) hstored
  exact Except.ok.inj (hother.symm.trans hown)

/-- A parsed container composes to its bytes; a new payload composes to bytes that parse back under
the template's keys, each level under its own key and, as far as the first key that fits is the right
one, under both keys together. -/
theorem nested_basebinary_round_trips
    (haes : ∀ key : Bytes, key.length = aesBlockSize → (env.aes key).Permutes aesBlockSize) :
    (∀ data keys n, parseNestedBasebinary env data keys = .ok n →
      composeNestedBasebinary env n n.inner.payload = .ok data) ∧
    ∀ data keys t, parseNestedBasebinary env data keys = .ok t → ∀ payload,
      (env.aesInstalled → ∃ composed, composeNestedBasebinary env t payload = .ok composed) ∧
      ∀ composed, composeNestedBasebinary env t payload = .ok composed →
        (∃ o i, parseBasebinary env composed t.outer.key.toList = .ok o ∧
          parseBasebinary env o.payload t.inner.key.toList = .ok i ∧
          o.header = t.outer.header ∧ o.ValidChecksum ∧
          i.header = t.inner.header ∧ i.ValidChecksum ∧ i.payload = payload) ∧
        (∃ n, parseNestedBasebinary env composed (t.outer.key.toList ++ t.inner.key.toList) = .ok n ∧
          n.outer.header = t.outer.header ∧ n.outer.ValidChecksum ∧
          n.inner.header = t.inner.header ∧ n.inner.ValidChecksum ∧
          (n.inner.payload = payload ↔ InnerKeyDecides env t payload) ∧
          (t.outer.key = t.inner.key → n.inner.payload = payload)) := by
  refine ⟨fun data keys n h => composeNestedBasebinary_parsed haes h, ?_⟩
  intro data keys t h payload
  obtain ⟨houter, hinner⟩ := parseNestedBasebinary_keyFits h
  refine ⟨composeNestedBasebinary_ok houter hinner, ?_⟩
  intro composed hcomposed
  obtain ⟨innerBytes, hin, hout⟩ := bind_eq_ok.mp hcomposed
  have hparse := parseBasebinary_composed haes houter hout
  constructor
  · have houterOwn := hparse []
    have hinnerOwn := parseBasebinary_composed haes hinner hin []
    rw [List.append_nil] at houterOwn hinnerOwn
    exact ⟨_, _, houterOwn, hinnerOwn, rfl, rfl, rfl, rfl, rfl⟩
  · obtain ⟨i, hi, hheader, hsum, hpayload⟩ := inner_reparsed haes hinner hin
    refine ⟨⟨⟨t.outer.header, innerBytes, adler32 (t.outer.header.toBytes ++ innerBytes),
      t.outer.key⟩, i⟩, ?_, rfl, rfl, hheader, hsum, hpayload, ?_⟩
    · unfold parseNestedBasebinary
      rw [hparse, bind_eq_ok]
      refine ⟨_, rfl, ?_⟩
      dsimp only
      rw [isBasebinary_composed hin, Bool.not_true, if_neg (by decide), hi]
      rfl
    · intro heq
      exact hpayload.mpr (innerKeyDecides_of_eq haes heq)

end Nested

/-! ## Two keys of which the wrong one fits -/

theorem length_outer_digits :
    (bytesOfHex "5249c351028bf1fd2bd1849e28b23f24").length = aesBlockSize := by decide +kernel

theorem length_inner_digits :
    (bytesOfHex "bb7deb0970d8ee2e00fa46cb1c3c098e").length = aesBlockSize := by decide +kernel

def collisionOuterKey : BasebinaryKey :=
  .fromHex "airpyrt-107" "5249c351028bf1fd2bd1849e28b23f24" length_outer_digits

def collisionInnerKey : BasebinaryKey :=
  .fromHex "airpyrt-108" "bb7deb0970d8ee2e00fa46cb1c3c098e" length_inner_digits

/-- AES under the derived outer key, on the blocks that occur here. -/
def outerBlocks : List (Bytes × Bytes) :=
  [(bytesOfHex "00000000000000000000000000000000", bytesOfHex "9f028b55d7868ef6b1196b9040b6996e"),
   (bytesOfHex "9f028b24d7810ff6b1196b9240b6996e", bytesOfHex "2e2aabb90124b9f52d51d9a81707a9d7"),
   (bytesOfHex "3ef308a09a7099bfbab6232270e1f32a", bytesOfHex "5ff81663b245f1439670bcfe2a4308b3"),
   (bytesOfHex "c6f980853a8bb91899c527d162f76043", bytesOfHex "10d9a3199b54204a97e7fa8a67e65afd"),
   (bytesOfHex "cdb45f3c169e2ce43533996609c3ba1b", bytesOfHex "7e7dfc6fa9365ffcb8e24098b28986d2"),
   (bytesOfHex "e47ed6ca0065cd117b0155485a406679", bytesOfHex "e39ef48517ba9511186240ce1ec413cc")]

/-- AES under the derived inner key, on the blocks that occur here. -/
def innerBlocks : List (Bytes × Bytes) :=
  [(bytesOfHex "35353d3c294c322c723d36383e2a6164", bytesOfHex "10d9a3199b54204a97e7fa8a67e65afd"),
   (bytesOfHex "313129202a4c227a627e6171607d3833", bytesOfHex "e39ef48517ba9511186240ce1ec413cc")]

def collisionEnv : PayloadEnv :=
  { storedEnv with
    aesInstalled := true
    aes := fun key =>
      if key = collisionOuterKey.derivedKey then swapCipher outerBlocks
      else if key = collisionInnerKey.derivedKey then swapCipher innerBlocks
      else ⟨id, id⟩ }

def collisionHeader : BasebinaryHeader := ⟨0, 113, 0x78100, 0, 0, 0, 2, 0⟩

/-- A container under the outer key around one under the inner key. -/
def collisionTemplate : Bytes :=
  collisionHeader.toBytes ++ bytesOfHex ("9f028b55d7868ef6b1196b9040b6996e" ++
    "2e2aabb90124b9f52d51d9a81707a9d75ff81663b245f1439670bcfe2a4308b3f6fa0b5e") ++
    bytesOfHex "b0b014ec"

example : collisionTemplate.length = 88 := by decide +kernel

theorem collisionEnv_permutes (key : Bytes) : key.length = aesBlockSize →
    (collisionEnv.aes key).Permutes aesBlockSize := by
  intro _
  show (if key = collisionOuterKey.derivedKey then swapCipher outerBlocks
    else if key = collisionInnerKey.derivedKey then swapCipher innerBlocks
    else (⟨id, id⟩ : BlockCipher)).Permutes aesBlockSize
  by_cases houter : key = collisionOuterKey.derivedKey
  · rw [if_pos houter]
    apply swapCipher_permutes
    decide +kernel
  rw [if_neg houter]
  by_cases hinner : key = collisionInnerKey.derivedKey
  · rw [if_pos hinner]
    apply swapCipher_permutes
    decide +kernel
  · rw [if_neg hinner]
    exact ⟨fun _ hb => ⟨hb, rfl⟩, fun _ hb => ⟨hb, rfl⟩⟩

theorem collisionTemplate_parses :
    ∃ t, parseNestedBasebinary collisionEnv collisionTemplate [collisionOuterKey, collisionInnerKey] =
      .ok t := by
  have hrun : (parseNestedBasebinary collisionEnv collisionTemplate
      [collisionOuterKey, collisionInnerKey]).toOption.isSome := by decide +kernel
  obtain ⟨t, ht⟩ := Option.isSome_iff_exists.mp hrun
  exact ⟨t, toOption_eq_some.mp ht⟩

/-- With both keys of the template the inner container is decrypted with the outer key. -/
theorem outer_key_fits_inner_container :
    (∀ key : Bytes, key.length = aesBlockSize → (collisionEnv.aes key).Permutes aesBlockSize) ∧
    ∃ t composed n,
      parseNestedBasebinary collisionEnv collisionTemplate [collisionOuterKey, collisionInnerKey] =
        .ok t ∧
      composeNestedBasebinary collisionEnv t (ascii "payload303602883") = .ok composed ∧
      parseNestedBasebinary collisionEnv composed (t.outer.key.toList ++ t.inner.key.toList) = .ok n ∧
      n.inner.payload ≠ ascii "payload303602883" := by
  refine ⟨collisionEnv_permutes, ?_⟩
  have hrun : ((parseNestedBasebinary collisionEnv collisionTemplate
      [collisionOuterKey, collisionInnerKey]).toOption.bind fun t =>
        (composeNestedBasebinary collisionEnv t (ascii "payload303602883")).toOption.bind fun c =>
          (parseNestedBasebinary collisionEnv c
            (t.outer.key.toList ++ t.inner.key.toList)).toOption.map fun n => n.inner.payload) =
      some (bytesOfHex "a52e868645488b58294c020908056679") := by
    decide +kernel
  obtain ⟨t, ht, hrun⟩ := Option.bind_eq_some_iff.mp hrun
  obtain ⟨composed, hcomposed, hrun⟩ := Option.bind_eq_some_iff.mp hrun
  obtain ⟨n, hn, hpayload⟩ := Option.map_eq_some_iff.mp hrun
  refine ⟨t, composed, n, toOption_eq_some.mp ht, toOption_eq_some.mp hcomposed,
    toOption_eq_some.mp hn, ?_⟩
  rw [hpayload]
  decide +kernel

theorem collisionTemplate_round_trips :
    ∃ t,
      parseNestedBasebinary collisionEnv collisionTemplate [collisionOuterKey, collisionInnerKey] =
        .ok t ∧
      composeNestedBasebinary collisionEnv t t.inner.payload = .ok collisionTemplate ∧
      ∃ composed o i, composeNestedBasebinary collisionEnv t [] = .ok composed ∧
        parseBasebinary collisionEnv composed t.outer.key.toList = .ok o ∧
        parseBasebinary collisionEnv o.payload t.inner.key.toList = .ok i ∧ i.payload = [] := by
  obtain ⟨t, ht⟩ := collisionTemplate_parses
  obtain ⟨hback, hforth⟩ := nested_basebinary_round_trips collisionEnv_permutes
  obtain ⟨hcomposes, hparses⟩ := hforth _ _ t ht []
  obtain ⟨composed, hcomposed⟩ := hcomposes rfl
  obtain ⟨⟨o, i, ho, hi, _, _, _, _, hpayload⟩, _⟩ := hparses composed hcomposed
  exact ⟨t, ht, hback _ _ t ht, composed, o, i, hcomposed, ho, hi, hpayload⟩

end TimeCapsule.Flash
