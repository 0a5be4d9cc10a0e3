import TimeCapsule.Lib.GzipStream
import TimeCapsule.Flash.Patch

/-!
# Complete members

Whether the gzip member that the scan returns is a whole one.  The scan compares where a member ends
with the end of the checked prefix and never asks whether the decoder reached the end of the stream: a
stream that the data cuts short counts as one that ends with the data.
-/

namespace TimeCapsule.Flash

open Lib

/-- The offsets at which the scan tries to decompress. -/
def Candidate (data : Bytes) (endOffset offset : Nat) : Prop :=
  Hit data gzipMagic endOffset offset ∧ hasValidGzipHeaderFlags data offset = true

/-- The bytes of the member are a whole member of the format, its trailer included. -/
def CompleteMember (format : GzipFormat) (data : Bytes) (member : GzipMemberInfo) : Prop :=
  format.Member (slice data member.offset member.endOffset) member.decompressed

/-- The decoder takes the data from `offset` on, and waits for more at its end. -/
def CutShort (env : FlashEnv) (eof : Bytes → Bool) (data : Bytes) (offset : Nat) : Prop :=
  (env.codec.decompress (data.drop offset)).isSome = true ∧ eof (data.drop offset) = false

/-- The checked prefix is all of the data, and the only candidate with a stream in it is one that the
end of the data cuts short. -/
def OnlyCutShort (env : FlashEnv) (eof : Bytes → Bool) (data : Bytes) (endOffset : Nat) : Prop :=
  data.length ≤ endOffset ∧
    ∃ offset, Candidate data endOffset offset ∧ CutShort env eof data offset ∧
      ∀ other, Candidate data endOffset other → other ≠ offset →
        gzipMemberAt env data endOffset other = none

theorem OnlyCutShort.length_le {env : FlashEnv} {eof : Bytes → Bool} {data : Bytes}
    {endOffset : Nat} (h : OnlyCutShort env eof data endOffset) : data.length ≤ endOffset := h.1

theorem ValidMember.candidate {env : FlashEnv} {data : Bytes} {endOffset : Nat}
    {member : GzipMemberInfo} (h : ValidMember env data endOffset member) :
    Candidate data endOffset member.offset := ⟨h.magic, h.flags⟩

theorem Candidate.lt_length {data : Bytes} {endOffset offset : Nat}
    (h : Candidate data endOffset offset) : offset < data.length := by
  have := h.1.2.le_length gzipMagic_ne_nil
  simp only [gzipMagic, List.length_cons, List.length_nil] at this
  omega

theorem decompressGzipMember_eq_some {env : FlashEnv} {data : Bytes} {offset : Nat}
    {member : GzipMemberInfo} :
    decompressGzipMember env data offset = some member ↔
      ∃ r, env.codec.decompress (data.drop offset) = some r ∧
        (data.drop offset).length - r.unused.length ≠ 0 ∧
        member = ⟨offset, (data.drop offset).length - r.unused.length, r.output⟩ := by
  rw [decompressGzipMember]
  cases env.codec.decompress (data.drop offset) with
  | none => simp
  | some r => simp [Option.ite_none_left_eq_some, eq_comm (a := member)]

example : Stored.reachedEnd (Stored.gzip [1, 2]) = true := by decide +kernel

section Stream

variable {env : FlashEnv} {format : GzipFormat} {eof : Bytes → Bool} {data : Bytes}
  {endOffset : Nat} {member : GzipMemberInfo}

/-- With the end of the stream reached, the member is whole. -/
theorem ValidMember.complete (h : ValidMember env data endOffset member)
    (hz : env.codec.Streams format eof) (hend : eof (data.drop member.offset) = true) :
    CompleteMember format data member := by
  obtain ⟨r, hr, _, hmember⟩ := decompressGzipMember_eq_some.mp h.decompress
  obtain ⟨m, hm, hwhole⟩ := hz.ended hr hend
  have hlen : member.consumedLength = m.length := by
    rw [hmember, hm, List.length_append, Nat.add_sub_cancel]
  have hout : member.decompressed = r.output := by rw [hmember]
  rw [CompleteMember, GzipMemberInfo.endOffset, slice_add, hlen, hm, List.take_left, hout]
  exact hwhole

/-- With the stream cut short, the member is taken to end with the data, and it is not whole. -/
theorem ValidMember.cut_short (h : ValidMember env data endOffset member)
    (hz : env.codec.Streams format eof) (hend : eof (data.drop member.offset) = false) :
    member.endOffset = data.length ∧ ¬ CompleteMember format data member := by
  obtain ⟨r, hr, _, hmember⟩ := decompressGzipMember_eq_some.mp h.decompress
  have hlen : member.consumedLength = (data.drop member.offset).length := by
    rw [hmember, hz.unused hr hend]
    rfl
  refine ⟨?_, fun hwhole => hz.not_ended hr hend _ _ (List.take_prefix _ _) hwhole⟩
  have := h.candidate.lt_length
  rw [GzipMemberInfo.endOffset, hlen, List.length_drop]
  omega

/-- A candidate that is cut short is a member of the scan when the prefix is all of the data. -/
theorem Candidate.valid_of_cutShort {offset : Nat} (h : Candidate data endOffset offset)
    (hz : env.codec.Streams format eof) (hcut : CutShort env eof data offset)
    (hle : data.length ≤ endOffset) :
    ∃ m, ValidMember env data endOffset m ∧ m.offset = offset := by
  obtain ⟨r, hr⟩ := Option.isSome_iff_exists.mp hcut.1
  have hlt := h.lt_length
  have hunused := hz.unused hr hcut.2
  refine ⟨⟨offset, (data.drop offset).length - r.unused.length, r.output⟩,
    ⟨h.1, h.2, decompressGzipMember_eq_some.mpr ⟨r, hr, ?_, rfl⟩, ?_⟩, rfl⟩
  · change (data.drop offset).length - r.unused.length ≠ 0
    rw [hunused, List.length_drop, List.length_nil]
    omega
  · change offset + ((data.drop offset).length - r.unused.length) ≤ endOffset
    rw [hunused, List.length_drop, List.length_nil]
    omega

/-- The scan returns a member that is not whole exactly in the case of `OnlyCutShort`. -/
theorem returns_incomplete_iff (hz : env.codec.Streams format eof) (footer : FooterInfo) :
    (∃ m, findGzipMember env data footer = .ok m ∧ ¬ CompleteMember format data m) ↔
      OnlyCutShort env eof data footer.endOffset := by
  constructor
  · rintro ⟨m, hm, hincomplete⟩
    have hunique := findGzipMember_eq_ok.mp hm
    have hvalid := (hunique m).mpr rfl
    have hend : eof (data.drop m.offset) = false := by
      by_contra h
      exact hincomplete (hvalid.complete hz (Bool.of_not_eq_false h))
    obtain ⟨r, hr, _⟩ := decompressGzipMember_eq_some.mp hvalid.decompress
    refine ⟨(hvalid.cut_short hz hend).1 ▸ hvalid.end_le, m.offset, hvalid.candidate,
      ⟨by rw [hr]; rfl, hend⟩, fun other hother hne => ?_⟩
    -- a member at another candidate would be a second one
    refine Option.eq_none_iff_forall_ne_some.mpr fun m' hm' => hne ?_
    obtain ⟨hflags, hdec, hle⟩ := gzipMemberAt_eq_some.mp hm'
    have hoffset := decompressGzipMember_offset hdec
    rw [← hoffset] at hother hdec
    rw [← hoffset, (hunique m').mp ⟨hother.1, hother.2, hdec, hle⟩]
  · rintro ⟨hle, offset, hcandidate, hcut, hothers⟩
    obtain ⟨m, hvalid, rfl⟩ := hcandidate.valid_of_cutShort hz hcut hle
    refine ⟨m, findGzipMember_eq_ok.mpr fun m' => ⟨fun hvalid' => ?_, ?_⟩,
      (hvalid.cut_short hz hcut.2).2⟩
    · have hsome := gzipMemberAt_eq_some.mpr ⟨hvalid'.flags, hvalid'.decompress, hvalid'.end_le⟩
      by_cases hoffset : m'.offset = m.offset
      · have := hvalid'.decompress
        rw [hoffset, hvalid.decompress] at this
        exact (Option.some.inj this).symm
      · rw [hothers m'.offset hvalid'.candidate hoffset] at hsome
        cases hsome
    · rintro rfl
      exact hvalid

/-- The member of an analysed bank is whole: the footer that was found is behind the prefix it checks,
so the prefix is never all of the data. -/
theorem Analysed.member_complete {name device : String} {acpChecksum : Option Nat}
    {a : BankAnalysis} (h : Analysed env name device data acpChecksum a)
    (hz : env.codec.Streams format eof) : CompleteMember format data a.gzipMember := by
  by_contra hincomplete
  have hfind : findGzipMember env data a.footer = .ok a.gzipMember :=
    findGzipMember_eq_ok.mpr h.member_unique
  have hle := ((returns_incomplete_iff hz a.footer).mp ⟨_, hfind, hincomplete⟩).length_le
  have hend := h.layout.end_lt
  have hfooter := h.layout.footer_le
  change a.footer.endOffset < a.footer.offset at hend
  change a.footer.offset + 8 ≤ data.length at hfooter
  omega

theorem classifyFirmwarePrefixLogin_eq_ok {login : LoginInfo} :
    classifyFirmwarePrefixLogin env data = .ok login ↔
      ∃ m, findGzipMember env data ⟨data.length, 0, data.length⟩ = .ok m ∧
        login = classifyLogin m.decompressed := by
  rw [classifyFirmwarePrefixLogin, bind_eq_ok]
  exact exists_congr fun m => and_congr_right fun _ =>
    ⟨fun h => (Except.ok.inj h).symm, fun h => congrArg Except.ok h.symm⟩

/-- The scan returns only whole members that end within the checked prefix, unless the prefix is all of
the data and its one stream is cut short; and a template prefix is classified by a whole member in the
same cases. -/
theorem returned_members_complete_iff (hz : env.codec.Streams format eof) (data : Bytes)
    (footer : FooterInfo) :
    ((∀ m, findGzipMember env data footer = .ok m →
        CompleteMember format data m ∧ m.endOffset ≤ footer.endOffset) ↔
      ¬ OnlyCutShort env eof data footer.endOffset) ∧
    ((∀ login, classifyFirmwarePrefixLogin env data = .ok login →
        ∃ m, findGzipMember env data ⟨data.length, 0, data.length⟩ = .ok m ∧
          login = classifyLogin m.decompressed ∧ CompleteMember format data m) ↔
      ¬ OnlyCutShort env eof data data.length) := by
  have htemplate : _ ↔ OnlyCutShort env eof data data.length :=
    returns_incomplete_iff hz ⟨data.length, 0, data.length⟩
  rw [← returns_incomplete_iff hz footer, ← htemplate]
  refine ⟨⟨?_, fun h m hm => ⟨?_, ?_⟩⟩, ?_, fun h login hlogin => ?_⟩
  · rintro h ⟨m, hm, hincomplete⟩
    exact hincomplete (h m hm).1
  · by_contra hincomplete
    exact h ⟨m, hm, hincomplete⟩
  · exact ((findGzipMember_eq_ok.mp hm m).mpr rfl).end_le
  · rintro h ⟨m, hm, hincomplete⟩
    obtain ⟨m', hm', _, hcomplete⟩ := h _ (classifyFirmwarePrefixLogin_eq_ok.mpr ⟨m, hm, rfl⟩)
    rw [Except.ok.inj (hm.symm.trans hm')] at hincomplete
    exact hincomplete hcomplete
  · obtain ⟨m, hm, hlogin⟩ := classifyFirmwarePrefixLogin_eq_ok.mp hlogin
    refine ⟨m, hm, hlogin, ?_⟩
    by_contra hincomplete
    exact h ⟨m, hm, hincomplete⟩

end Stream

/-! ## A template without a trailer -/

def streamingEnv : FlashEnv :=
  ⟨Stored.streaming stockLoginNetbsd4Dummy, true, ⟨fun _ => false, fun _ => none⟩⟩

/-- A member for the stock script, without the eight bytes of its trailer. -/
def unclosedTemplate : Bytes := (Stored.gzip stockLoginNetbsd4Dummy).take 406

/-- The template is classified as stock by a member that is not whole. -/
theorem unclosedTemplate_is_stock :
    streamingEnv.codec.Streams Stored.format Stored.reachedEnd ∧
    ∃ m, findGzipMember streamingEnv unclosedTemplate ⟨406, 0, 406⟩ = .ok m ∧
      classifyFirmwarePrefixLogin streamingEnv unclosedTemplate =
        .ok ⟨.stock, some 0, some 386, some (sha256Hex stockLoginNetbsd4Dummy), 1⟩ ∧
      ¬ CompleteMember Stored.format unclosedTemplate m := by
  have hfind : findGzipMember streamingEnv unclosedTemplate ⟨406, 0, 406⟩ =
      .ok ⟨0, 406, stockLoginNetbsd4Dummy⟩ := by decide +kernel
  have hlogin : classifyFirmwarePrefixLogin streamingEnv unclosedTemplate =
      .ok ⟨.stock, some 0, some 386, some (sha256Hex stockLoginNetbsd4Dummy), 1⟩ := by
    decide +kernel
  have hend : Stored.reachedEnd (unclosedTemplate.drop 0) = false := by decide +kernel
  refine ⟨Stored.streaming_streams _, _, hfind, hlogin, ?_⟩
  exact (((findGzipMember_eq_ok.mp hfind _).mpr rfl).cut_short
    (Stored.streaming_streams stockLoginNetbsd4Dummy) hend).2

theorem unclosedTemplate_members_complete_iff :
    ((∀ m, findGzipMember streamingEnv unclosedTemplate ⟨406, 0, 406⟩ = .ok m →
        CompleteMember Stored.format unclosedTemplate m ∧ m.endOffset ≤ 406) ↔
      ¬ OnlyCutShort streamingEnv Stored.reachedEnd unclosedTemplate 406) :=
  (returned_members_complete_iff (Stored.streaming_streams stockLoginNetbsd4Dummy) unclosedTemplate
    ⟨406, 0, 406⟩).1

end TimeCapsule.Flash
