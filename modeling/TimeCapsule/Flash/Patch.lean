import TimeCapsule.Flash.Bank
import Mathlib.Data.List.Nodup

/-!
# What a patch changes

The analysis accepts a bank when one footer and one gzip member pass its checks.  The layout it has
then established (member, checked prefix and footer lie behind each other) is what makes the patch
local: it rewrites the member's slot and four bytes of the footer.
-/

namespace TimeCapsule.Flash

open Lib

/-! ## Footers and members -/

/-- The footers the scan accepts. -/
structure ValidFooter (data : Bytes) (footer : FooterInfo) : Prop where
  scan_start : data.length - footerScanBytes ≤ footer.offset
  scan_end : footer.offset + 8 ≤ data.length
  checksum_eq : footer.checksum = be32At data footer.offset
  endOffset_eq : footer.endOffset = be32At data (footer.offset + 4)
  min_le : minFooterEndOffset ≤ footer.endOffset
  end_lt : footer.endOffset < footer.offset
  adler : adler32 (data.take footer.endOffset) = footer.checksum

theorem be32At_drop (data : Bytes) (offset i : Nat) :
    be32At (data.drop offset) i = be32At data (offset + i) := by
  rw [be32At, be32At, slice_add, slice_add, List.drop_drop]

theorem footerAt_eq_some {data : Bytes} {offset : Nat} {footer : FooterInfo} :
    footerAt data offset (data.drop offset) = some footer ↔
      footer = ⟨offset, be32At data offset, be32At data (offset + 4)⟩ ∧
        minFooterEndOffset ≤ footer.endOffset ∧ footer.endOffset ≤ data.length ∧
        footer.endOffset < offset ∧ adler32 (data.take footer.endOffset) = footer.checksum := by
  simp only [footerAt, be32At_drop, Nat.add_zero, Option.ite_none_left_eq_some,
    Option.ite_none_right_eq_some, Option.some.injEq, not_lt, not_le]
  constructor
  · rintro ⟨hmin, hlen, hlt, hadler, rfl⟩
    exact ⟨rfl, hmin, hlen, hlt, hadler⟩
  · rintro ⟨rfl, hmin, hlen, hlt, hadler⟩
    exact ⟨hmin, hlen, hlt, hadler, rfl⟩

theorem scanFooters_eq_filterMap (data : Bytes) (count : Nat) : ∀ offset,
    scanFooters data count offset (data.drop offset) =
      (List.range' offset count).filterMap fun i => footerAt data i (data.drop i) := by
  induction count with
  | zero => exact fun _ => rfl
  | succ count ih =>
    intro offset
    rw [scanFooters, List.tail_drop, ih, List.range'_succ, List.filterMap_cons]
    rcases footerAt data offset (data.drop offset) with _ | f <;> rfl

theorem mem_footerMatches {data : Bytes} {footer : FooterInfo} :
    footer ∈ footerMatches data ↔ ValidFooter data footer := by
  simp only [footerMatches, scanFooters_eq_filterMap, List.mem_filterMap, List.mem_range'_1,
    footerAt_eq_some]
  constructor
  · rintro ⟨offset, ⟨hstart, hend⟩, rfl, hmin, hlen, hlt, hadler⟩
    exact ⟨hstart, by simp only; omega, rfl, rfl, hmin, hlt, hadler⟩
  · intro h
    have := h.scan_start
    have := h.scan_end
    have := h.end_lt
    refine ⟨footer.offset, by omega, ?_, h.min_le, by omega, h.end_lt, h.adler⟩
    rw [← h.checksum_eq, ← h.endOffset_eq]

theorem nodup_footerMatches (data : Bytes) : (footerMatches data).Nodup := by
  rw [footerMatches, scanFooters_eq_filterMap]
  refine List.Nodup.filterMap ?_ List.nodup_range'
  intro a a' f ha ha'
  obtain ⟨rfl, _⟩ := footerAt_eq_some.mp ha
  exact congrArg FooterInfo.offset (footerAt_eq_some.mp ha').1

/-- The footer is found when it is the only valid one. -/
theorem findFooter_eq_ok {data : Bytes} {footer : FooterInfo} :
    findFooter data = .ok footer ↔ ∀ f, ValidFooter data f ↔ f = footer := by
  have hmatch : (∀ f, ValidFooter data f ↔ f = footer) ↔ footerMatches data = [footer] := by
    rw [eq_singleton_iff_of_nodup (nodup_footerMatches data)]
    exact forall_congr' fun f => iff_congr mem_footerMatches.symm Iff.rfl
  rw [hmatch, findFooter, ite_error_eq_ok]
  constructor
  · rintro ⟨_, h⟩
    split at h
    · next f hf => rw [hf, Except.ok.inj h]
    · cases h
  · intro h
    have hvalid := mem_footerMatches.mp (h ▸ List.mem_singleton_self footer)
    have := hvalid.scan_end
    exact ⟨by omega, by rw [h]⟩

/-- The gzip members the scan accepts. -/
structure ValidMember (env : FlashEnv) (data : Bytes) (endOffset : Nat)
    (member : GzipMemberInfo) : Prop where
  magic : Hit data gzipMagic endOffset member.offset
  flags : hasValidGzipHeaderFlags data member.offset = true
  decompress : decompressGzipMember env data member.offset = some member
  end_le : member.endOffset ≤ endOffset

theorem decompressGzipMember_offset {env : FlashEnv} {data : Bytes} {offset : Nat}
    {member : GzipMemberInfo} (h : decompressGzipMember env data offset = some member) :
    member.offset = offset := by
  rw [decompressGzipMember] at h
  split at h
  · cases h
  · rw [Option.ite_none_left_eq_some, Option.some.injEq] at h
    rw [← h.2]

theorem gzipMemberAt_eq_some {env : FlashEnv} {data : Bytes} {endOffset offset : Nat}
    {member : GzipMemberInfo} :
    gzipMemberAt env data endOffset offset = some member ↔
      hasValidGzipHeaderFlags data offset = true ∧
        decompressGzipMember env data offset = some member ∧ member.endOffset ≤ endOffset := by
  rw [gzipMemberAt, Option.ite_none_right_eq_some]
  refine and_congr_right fun _ => ?_
  rcases decompressGzipMember env data offset with _ | m
  · exact ⟨nofun, nofun⟩
  · simp only [Option.ite_none_right_eq_some, Option.some.injEq]
    constructor
    · rintro ⟨hle, rfl⟩
      exact ⟨rfl, hle⟩
    · rintro ⟨rfl, hle⟩
      exact ⟨hle, rfl⟩

theorem gzipMagic_ne_nil : gzipMagic ≠ [] := List.cons_ne_nil _ _

theorem mem_gzipMatches {env : FlashEnv} {data : Bytes} {endOffset : Nat}
    {member : GzipMemberInfo} :
    member ∈ gzipMatches env data endOffset ↔ ValidMember env data endOffset member := by
  simp only [gzipMatches, List.mem_filterMap, mem_findAll gzipMagic_ne_nil, gzipMemberAt_eq_some]
  constructor
  · rintro ⟨offset, hmagic, hflags, hdec, hle⟩
    obtain rfl := decompressGzipMember_offset hdec
    exact ⟨hmagic, hflags, hdec, hle⟩
  · exact fun h => ⟨member.offset, h.magic, h.flags, h.decompress, h.end_le⟩

theorem nodup_gzipMatches (env : FlashEnv) (data : Bytes) (endOffset : Nat) :
    (gzipMatches env data endOffset).Nodup := by
  refine List.Nodup.filterMap ?_ (nodup_findAll _ _ _)
  intro a a' m ha ha'
  rw [← decompressGzipMember_offset (gzipMemberAt_eq_some.mp ha).2.1,
    ← decompressGzipMember_offset (gzipMemberAt_eq_some.mp ha').2.1]

theorem findGzipMember_eq_ok {env : FlashEnv} {data : Bytes} {footer : FooterInfo}
    {member : GzipMemberInfo} :
    findGzipMember env data footer = .ok member ↔
      ∀ m, ValidMember env data footer.endOffset m ↔ m = member := by
  have hmatch : (∀ m, ValidMember env data footer.endOffset m ↔ m = member) ↔
      gzipMatches env data footer.endOffset = [member] := by
    rw [eq_singleton_iff_of_nodup (nodup_gzipMatches _ _ _)]
    exact forall_congr' fun m => iff_congr mem_gzipMatches.symm Iff.rfl
  rw [hmatch, findGzipMember]
  constructor
  · intro h
    split at h
    · next m hm => rw [hm, Except.ok.inj h]
    · cases h
  · intro h
    rw [h]

/-! ## Inversion of the analysis -/

/-- What a successful analysis has established about the bank. -/
structure Analysed (env : FlashEnv) (name device : String) (data : Bytes)
    (acpChecksum : Option Nat) (a : BankAnalysis) : Prop where
  name_eq : a.name = name
  device_eq : a.device = device
  data_eq : a.data = data
  acpChecksum_eq : a.acpChecksum = acpChecksum
  footer_unique : ∀ f, ValidFooter data f ↔ f = a.footer
  member_unique : ∀ m, ValidMember env data a.footer.endOffset m ↔ m = a.gzipMember
  login_eq : a.login = classifyLogin a.gzipMember.decompressed
  footerValid_eq : a.footerValid = true
  acpMatches_eq : a.acpChecksumMatches = acpChecksum.map fun c => decide (c = a.footer.checksum)
  patch_eq : ∀ p, a.patch = some p →
    buildPatch env data a.footer a.gzipMember a.login = .ok (some p)

theorem withPatchCandidate_eq_ok {env : FlashEnv} {bank a : BankAnalysis}
    (h : withPatchCandidate env bank = .ok a) :
    ∃ patch error, a = { bank with patch := patch, patchError := error } ∧
      ∀ p, patch = some p →
        buildPatch env bank.data bank.footer bank.gzipMember bank.login = .ok (some p) := by
  rw [withPatchCandidate] at h
  split at h
  · exact ⟨_, _, (Except.ok.inj h).symm, nofun⟩
  · cases h
  · next patch hp => exact ⟨_, _, (Except.ok.inj h).symm, fun p hpatch => hpatch ▸ hp⟩

theorem analyzeBank_ok {env : FlashEnv} {name device osRelease : String} {data : Bytes}
    {acpChecksum : Option Nat} {candidate : Bool} {a : BankAnalysis}
    (h : analyzeBank env name device data acpChecksum osRelease candidate = .ok a) :
    Analysed env name device data acpChecksum a := by
  rw [analyzeBank] at h
  obtain ⟨footer, hfooter, h⟩ := bind_eq_ok.mp h
  obtain ⟨member, hmember, h⟩ := bind_eq_ok.mp h
  have hf := findFooter_eq_ok.mp hfooter
  have hm := findGzipMember_eq_ok.mp hmember
  have hvalid := decide_eq_true ((hf footer).mpr rfl).adler
  cases candidate with
  | false =>
    obtain rfl := Except.ok.inj h
    exact ⟨rfl, rfl, rfl, rfl, hf, hm, rfl, hvalid, rfl, nofun⟩
  | true =>
    obtain ⟨patch, error, rfl, hp⟩ := withPatchCandidate_eq_ok h
    exact ⟨rfl, rfl, rfl, rfl, hf, hm, rfl, hvalid, rfl, hp⟩

/-! ## Layout -/

/-- Where the pieces of a bank lie: the member inside the checked prefix, the prefix in front of
the footer, the footer inside the bank. -/
structure BankLayout (data : Bytes) where
  footer : FooterInfo
  member : GzipMemberInfo
  member_le : member.endOffset ≤ footer.endOffset
  end_lt : footer.endOffset < footer.offset
  footer_le : footer.offset + 8 ≤ data.length

def Analysed.layout {env : FlashEnv} {name device : String} {data : Bytes}
    {acpChecksum : Option Nat} {a : BankAnalysis} (h : Analysed env name device data acpChecksum a) :
    BankLayout data where
  footer := a.footer
  member := a.gzipMember
  member_le := ((h.member_unique _).mpr rfl).end_le
  end_lt := ((h.footer_unique _).mpr rfl).end_lt
  footer_le := ((h.footer_unique _).mpr rfl).scan_end

namespace BankLayout

variable {data z : Bytes} (l : BankLayout data)

/-- The bank with a compressed image in the member's slot and the checksum that goes with it. -/
def target (z : Bytes) : Bytes := withFooterChecksum (rebuiltBank data l.member z) l.footer

theorem member_start_le : l.member.offset ≤ l.member.endOffset := Nat.le_add_right _ _

theorem length_slot (hz : z.length ≤ l.member.consumedLength) :
    (z ++ zeros (l.member.consumedLength - z.length)).length =
      l.member.endOffset - l.member.offset := by
  rw [List.length_append, length_zeros, GzipMemberInfo.endOffset]
  omega

theorem member_end_le_length : l.member.endOffset ≤ data.length := by
  have := l.member_le
  have := l.end_lt
  have := l.footer_le
  omega

theorem length_rebuiltBank (hz : z.length ≤ l.member.consumedLength) :
    (rebuiltBank data l.member z).length = data.length :=
  length_setSlice l.member_start_le l.member_end_le_length (l.length_slot hz)

theorem footer_slice_le (hz : z.length ≤ l.member.consumedLength) :
    l.footer.offset + 4 ≤ (rebuiltBank data l.member z).length := by
  rw [l.length_rebuiltBank hz]
  have := l.footer_le
  omega

theorem length_field (z : Bytes) :
    (be32 (adler32 ((rebuiltBank data l.member z).take l.footer.endOffset))).length =
      l.footer.offset + 4 - l.footer.offset := by
  simp

theorem length_target (hz : z.length ≤ l.member.consumedLength) :
    (l.target z).length = data.length := by
  have h := length_setSlice (Nat.le_add_right _ _) (l.footer_slice_le hz) (l.length_field z)
  exact h.trans (l.length_rebuiltBank hz)

/-- Outside the slot and the checksum field the target is the old bank. -/
theorem target_frame {i : Nat} (hz : z.length ≤ l.member.consumedLength)
    (hslot : i < l.member.offset ∨ l.member.endOffset ≤ i)
    (hfield : i < l.footer.offset ∨ l.footer.offset + 4 ≤ i) : (l.target z)[i]? = data[i]? := by
  have h := getElem?_setSlice_frame (Nat.le_add_right _ _) (l.footer_slice_le hz)
    (l.length_field z) hfield
  exact h.trans (getElem?_setSlice_frame l.member_start_le l.member_end_le_length
    (l.length_slot hz) hslot)

theorem take_target (hz : z.length ≤ l.member.consumedLength) {k : Nat} (hk : k ≤ l.footer.offset) :
    (l.target z).take k = (rebuiltBank data l.member z).take k :=
  take_setSlice (by have := l.footer_slice_le hz; omega) hk

/-- The checked prefix of the target, and the bytes behind the checksum field. -/
theorem checksum_target (hz : z.length ≤ l.member.consumedLength) :
    be32At (l.target z) l.footer.offset = adler32 ((l.target z).take l.footer.endOffset) := by
  rw [be32At, l.take_target hz l.end_lt.le, target, withFooterChecksum,
    slice_setSlice (Nat.le_add_right _ _) (l.footer_slice_le hz) (by simp),
    ofBe_be32 (adler32_lt _)]

/-- The member's slot of the target starts with the compressed image. -/
theorem drop_target (hz : z.length ≤ l.member.consumedLength) :
    ∃ rest, (l.target z).drop l.member.offset = z ++ rest := by
  have hlt : l.member.offset + z.length ≤ l.footer.offset := by
    have := l.member_le
    have := l.end_lt
    rw [GzipMemberInfo.endOffset] at *
    omega
  have htake : ((l.target z).drop l.member.offset).take z.length = z := by
    have hstart : l.member.offset ≤ data.length := l.member_start_le.trans l.member_end_le_length
    rw [List.take_drop, l.take_target hz hlt, ← List.take_drop, rebuiltBank,
      drop_setSlice_start hstart, List.append_assoc, List.take_left]
  refine ⟨((l.target z).drop l.member.offset).drop z.length, ?_⟩
  conv_lhs => rw [← List.take_append_drop z.length ((l.target z).drop l.member.offset), htake]

end BankLayout

/-! ## Inversion of the patch builder -/

/-- A patch was built for the script region `[offset, offset + length)`. -/
structure Patched (env : FlashEnv) (data : Bytes) (footer : FooterInfo)
    (gzipMember : GzipMemberInfo) (login : LoginInfo) (p : PatchBuildInfo)
    (offset length : Nat) : Prop where
  stock : login.classification = .stock
  offset_eq : login.offset = some offset
  length_eq : login.length = some length
  fits : patchedLoginScript.length ≤ length
  gzip_fits : (env.codec.compress (patchedImage gzipMember.decompressed offset length)).length ≤
    gzipMember.consumedLength
  target_eq : p.targetBank = withFooterChecksum (rebuiltBank data gzipMember
    (env.codec.compress (patchedImage gzipMember.decompressed offset length))) footer
  checksum_eq : p.footerChecksum = adler32 ((rebuiltBank data gzipMember
    (env.codec.compress (patchedImage gzipMember.decompressed offset length))).take
      footer.endOffset)
  gzipLength_eq : p.patchedGzipLength =
    (env.codec.compress (patchedImage gzipMember.decompressed offset length)).length
  round_trip : (decompressGzipMember env p.targetBank gzipMember.offset).map (·.decompressed) =
    some (patchedImage gzipMember.decompressed offset length)

theorem compressPatchedImageWithZopfli_eq_ok {env : FlashEnv} {data : Bytes} {maxLength : Nat}
    {compression : CompressionResult}
    (h : compressPatchedImageWithZopfli env data maxLength = .ok compression) :
    compression = ⟨"zopfli-gzip", env.codec.compress data⟩ ∧
      (env.codec.compress data).length ≤ maxLength := by
  obtain ⟨result, hresult, h⟩ := bind_eq_ok.mp h
  rw [compressWithZopfliGzip] at hresult
  split at hresult
  · obtain rfl := Except.ok.inj hresult
    obtain ⟨hle, hok⟩ := ite_error_eq_ok.mp h
    exact ⟨(Except.ok.inj hok).symm, not_lt.mp hle⟩
  · cases hresult

theorem buildPatch_eq_ok {env : FlashEnv} {data : Bytes} {footer : FooterInfo}
    {gzipMember : GzipMemberInfo} {login : LoginInfo} {p : PatchBuildInfo}
    (h : buildPatch env data footer gzipMember login = .ok (some p)) :
    ∃ offset length, Patched env data footer gzipMember login p offset length := by
  rw [buildPatch] at h
  split at h
  · cases h
  next hpatchable =>
  have hstock : login.classification = .stock := by
    simp only [LoginInfo.patchable, Bool.not_eq_true', Bool.not_eq_false, Bool.and_eq_true,
      decide_eq_true_eq] at hpatchable
    exact hpatchable.1.1
  split at h
  next offset length ho hl =>
    obtain ⟨hfits, h⟩ := ite_error_eq_ok.mp h
    simp only at h
    split at h
    · obtain ⟨_, h⟩ := ite_error_eq_ok.mp h
      obtain ⟨compression, hc, h⟩ := bind_eq_ok.mp h
      obtain ⟨rfl, hle⟩ := compressPatchedImageWithZopfli_eq_ok hc
      obtain ⟨hround, h⟩ := ite_error_eq_ok.mp h
      obtain rfl := Option.some.inj (Except.ok.inj h)
      exact ⟨offset, length, hstock, ho, hl, not_lt.mp hfits, hle, rfl, rfl, rfl,
        not_not.mp hround⟩
    · cases h
  · cases h

/-! ## The patched bank -/

/-- A compressed image in front of other bytes is one member of its own length. -/
theorem decompressGzipMember_compress {env : FlashEnv} (hcodec : env.codec.Lawful)
    {data rest x : Bytes} {offset : Nat} (h : data.drop offset = env.codec.compress x ++ rest) :
    decompressGzipMember env data offset =
      some ⟨offset, (env.codec.compress x).length, x⟩ := by
  obtain ⟨flags, tail, hz, _⟩ := hcodec.header x
  have hpos : 0 < (env.codec.compress x).length := by
    rw [hz]
    exact Nat.succ_pos _
  rw [decompressGzipMember, h, hcodec.decompress_compress]
  simp only [List.length_append, Nat.add_sub_cancel]
  exact if_neg hpos.ne'

section PatchedBank

variable {env : FlashEnv} {name device osRelease : String} {data : Bytes}
  {acpChecksum : Option Nat} {candidate : Bool} {a : BankAnalysis} {p : PatchBuildInfo}
  {offset length : Nat}

/-- The compressed image a patch puts into the member's slot. -/
abbrev patchedGzip (env : FlashEnv) (a : BankAnalysis) (offset length : Nat) : Bytes :=
  env.codec.compress (patchedImage a.gzipMember.decompressed offset length)

theorem Analysed.targetBank_eq (h : Analysed env name device data acpChecksum a)
    (hp : Patched env data a.footer a.gzipMember a.login p offset length) :
    p.targetBank = h.layout.target (patchedGzip env a offset length) := hp.target_eq

theorem Analysed.patched_member (h : Analysed env name device data acpChecksum a)
    (hcodec : env.codec.Lawful)
    (hp : Patched env data a.footer a.gzipMember a.login p offset length) :
    decompressGzipMember env p.targetBank a.gzipMember.offset =
      some ⟨a.gzipMember.offset, (patchedGzip env a offset length).length,
        patchedImage a.gzipMember.decompressed offset length⟩ := by
  obtain ⟨rest, hrest⟩ := h.layout.drop_target hp.gzip_fits
  rw [h.targetBank_eq hp]
  exact decompressGzipMember_compress hcodec hrest

theorem Analysed.login_region (h : Analysed env name device data acpChecksum a)
    (hp : Patched env data a.footer a.gzipMember a.login p offset length) :
    offset + length ≤ a.gzipMember.decompressed.length := by
  have hstock := hp.stock
  have ho := hp.offset_eq
  have hl := hp.length_eq
  rw [h.login_eq] at hstock ho hl
  obtain ⟨offset', ho', hl', hocc, _⟩ := classifyLogin_stock hstock
  obtain rfl := Option.some.inj (ho'.symm.trans ho)
  obtain rfl := Option.some.inj (hl'.symm.trans hl)
  exact ((hocc offset').mpr rfl).le_length stockLogin_ne_nil

/-- The patched bank differs from the analysed one in the member's slot and the checksum field, the
checksum fits the new prefix, and the member decompresses to the image with the script region
replaced. -/
theorem patched_bank_is_local (hcodec : env.codec.Lawful)
    (ha : analyzeBank env name device data acpChecksum osRelease candidate = .ok a)
    (hp : buildPatch env a.data a.footer a.gzipMember a.login = .ok (some p)) :
    p.targetBank.length = data.length ∧
    (∀ i, (i < a.gzipMember.offset ∨ a.gzipMember.endOffset ≤ i) →
      (i < a.footer.offset ∨ a.footer.offset + 4 ≤ i) → p.targetBank[i]? = data[i]?) ∧
    adler32 (p.targetBank.take a.footer.endOffset) = be32At p.targetBank a.footer.offset ∧
    ∃ offset length member,
      a.login.offset = some offset ∧ a.login.length = some length ∧
      offset + length ≤ a.gzipMember.decompressed.length ∧
      decompressGzipMember env p.targetBank a.gzipMember.offset = some member ∧
      member.endOffset ≤ a.gzipMember.endOffset ∧
      member.decompressed = setSlice a.gzipMember.decompressed offset (offset + length)
        (patchedLoginScript ++ zeros (length - patchedLoginScript.length)) := by
  have h := analyzeBank_ok ha
  rw [h.data_eq] at hp
  obtain ⟨offset, length, hp⟩ := buildPatch_eq_ok hp
  have hz := hp.gzip_fits
  refine ⟨?_, ?_, ?_, offset, length, _, hp.offset_eq, hp.length_eq, h.login_region hp,
    h.patched_member hcodec hp, ?_, rfl⟩
  · rw [h.targetBank_eq hp]
    exact h.layout.length_target hz
  · intro i hslot hfield
    rw [h.targetBank_eq hp]
    exact h.layout.target_frame hz hslot hfield
  · rw [h.targetBank_eq hp]
    exact (h.layout.checksum_target hz).symm
  · exact Nat.add_le_add_left hz _

end PatchedBank

/-! ## Patching twice -/

theorem buildPatch_alreadyPatched {env : FlashEnv} {data : Bytes} {footer : FooterInfo}
    {gzipMember : GzipMemberInfo} {login : LoginInfo}
    (h : login.classification = .alreadyPatched) :
    buildPatch env data footer gzipMember login = .ok none := by
  have hpatchable : login.patchable = false := by rw [LoginInfo.patchable, h]; rfl
  rw [buildPatch, hpatchable]
  rfl

/-- The image that a patch of a stock image produces holds the patched script once, where the stock
script was, and the stock script nowhere, so no second patch is offered. -/
theorem patched_login_not_offered_again {env : FlashEnv} {data : Bytes} {footer : FooterInfo}
    {gzipMember : GzipMemberInfo} {p : PatchBuildInfo}
    (hstock : (classifyLogin gzipMember.decompressed).classification = .stock)
    (hp : buildPatch env data footer gzipMember (classifyLogin gzipMember.decompressed) =
      .ok (some p)) :
    ∃ offset image, (classifyLogin gzipMember.decompressed).offset = some offset ∧
      (decompressGzipMember env p.targetBank gzipMember.offset).map (·.decompressed) = some image ∧
      classifyLogin image = ⟨.alreadyPatched, some offset, some patchedLoginScript.length,
        some (sha256Hex patchedLoginScript), 1⟩ ∧
      (∀ i, OccursAt patchedLoginScript image i ↔ i = offset) ∧
      (∀ i, ¬ OccursAt stockLoginNetbsd4Dummy image i) ∧
      ∀ env' data' footer' member', member'.decompressed = image →
        buildPatch env' data' footer' member' (classifyLogin member'.decompressed) = .ok none := by
  obtain ⟨offset, length, h⟩ := buildPatch_eq_ok hp
  have himage := classifyLogin_patchedImage hstock h.offset_eq h.length_eq
  obtain ⟨hpatched, hnostock⟩ := classifyLogin_alreadyPatched himage
  refine ⟨offset, _, h.offset_eq, h.round_trip, himage, hpatched, hnostock, ?_⟩
  rintro env' data' footer' member' hmember
  rw [hmember, himage]
  exact buildPatch_alreadyPatched rfl

/-! ## A small bank -/

/-- An environment whose codec stores deflate blocks. -/
def storedEnv : FlashEnv := ⟨Stored.codec, true, ⟨fun _ => false, fun _ => none⟩⟩

def smallPrefix : Bytes := Stored.gzip stockLoginNetbsd4Dummy ++ zeros 6

/-- The stock script as the whole image, a gap, and the footer. -/
def smallBank : Bytes :=
  smallPrefix ++ zeros 4 ++ be32 (adler32 smallPrefix) ++ be32 smallPrefix.length

example : smallBank.length = 432 := by decide +kernel

theorem smallBank_patched : ∃ a p,
    analyzeBank storedEnv "primary" "/dev/rflash1" smallBank none "4.0" true = .ok a ∧
      a.login = ⟨.stock, some 0, some 386, some (sha256Hex stockLoginNetbsd4Dummy), 1⟩ ∧
      a.patch = some p := by
  have hrun : ((analyzeBank storedEnv "primary" "/dev/rflash1" smallBank none "4.0"
      true).toOption.bind fun a => a.patch.map fun _ =>
        decide (a.login =
          ⟨.stock, some 0, some 386, some (sha256Hex stockLoginNetbsd4Dummy), 1⟩)) =
      some true := by
    decide +kernel
  obtain ⟨a, ha, hrun⟩ := Option.bind_eq_some_iff.mp hrun
  obtain ⟨p, hpatch, hlogin⟩ := Option.map_eq_some_iff.mp hrun
  exact ⟨a, p, toOption_eq_some.mp ha, of_decide_eq_true hlogin, hpatch⟩

theorem smallBank_patched_once : ∃ (a : BankAnalysis) (p : PatchBuildInfo),
    (classifyLogin a.gzipMember.decompressed).classification = .stock ∧
      buildPatch storedEnv smallBank a.footer a.gzipMember
        (classifyLogin a.gzipMember.decompressed) = .ok (some p) ∧
      ∃ image,
        (decompressGzipMember storedEnv p.targetBank a.gzipMember.offset).map (·.decompressed) =
          some image ∧
        classifyLogin image = ⟨.alreadyPatched, some 0, some patchedLoginScript.length,
          some (sha256Hex patchedLoginScript), 1⟩ := by
  obtain ⟨a, p, ha, hlogin, hpatch⟩ := smallBank_patched
  have h := analyzeBank_ok ha
  have hp := h.patch_eq p hpatch
  rw [h.login_eq] at hp hlogin
  have hstock : (classifyLogin a.gzipMember.decompressed).classification = .stock := by rw [hlogin]
  obtain ⟨offset, image, ho, hround, himage, _⟩ := patched_login_not_offered_again hstock hp
  rw [hlogin] at ho
  obtain rfl := Option.some.inj ho
  exact ⟨a, p, hstock, hp, image, hround, himage⟩

theorem smallBank_patch_is_local : ∃ a p,
    analyzeBank storedEnv "primary" "/dev/rflash1" smallBank none "4.0" true = .ok a ∧
      a.patch = some p ∧ p.targetBank.length = smallBank.length ∧
      adler32 (p.targetBank.take a.footer.endOffset) = be32At p.targetBank a.footer.offset := by
  obtain ⟨a, p, ha, _, hpatch⟩ := smallBank_patched
  have h := analyzeBank_ok ha
  have hp := h.patch_eq p hpatch
  rw [← h.data_eq] at hp
  obtain ⟨hlen, _, hadler, _⟩ := patched_bank_is_local Stored.codec_lawful ha hp
  exact ⟨a, p, ha, hpatch, hlen, hadler⟩

end TimeCapsule.Flash
