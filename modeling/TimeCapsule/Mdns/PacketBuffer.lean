import TimeCapsule.Lib.Filling
import TimeCapsule.Mdns.Announce

/-!
# The announcement buffer

Announcements are built in one buffer, and its offset and the count of answers are kept beside it.  A
group of records that does not fit leaves bytes behind the offset; the offset and the count are put
back, the packet is sent, and the group starts the next one in the same buffer.
-/

namespace TimeCapsule.Mdns

open Lib

namespace InPlace

/-! ## Records -/

section Records

variable (cap : Nat)

def appendU16 (value : UInt16) : Fill := Fill.append cap (be16 value.toNat)

def appendU32 (value : UInt32) : Fill := Fill.append cap (be32 value.toNat)

/-- The label that has been read is written behind its length. -/
def appendLabel (label : Bytes) : Fill :=
  (Fill.append cap [UInt8.ofNat label.length]).andThen (Fill.append cap label)

/-- The loop of `encode_name`. -/
def encodeNameFrom : (name : Bytes) → (escaped : Bool) → (label : Bytes) → Fill
  | [], true, _ => Fill.fail
  | [], false, label =>
      if label = [] then Fill.append cap [0]
      else (appendLabel cap label).andThen (Fill.append cap [0])
  | ch :: rest, true, label =>
      if maxLabel ≤ label.length then Fill.fail else encodeNameFrom rest false (label ++ [ch])
  | ch :: rest, false, label =>
      if ch = backslash then encodeNameFrom rest true label
      else if ch = dot then
        if label = [] then if rest = [] then Fill.append cap [0] else Fill.fail
        else (appendLabel cap label).andThen (encodeNameFrom rest false [])
      else if maxLabel ≤ label.length then Fill.fail
      else encodeNameFrom rest false (label ++ [ch])

def encodeName (name : Bytes) : Fill :=
  if name = [] then Fill.fail else encodeNameFrom cap name false []

/-- What every record starts with. -/
def addRrStart (owner : Bytes) (type rrclass : UInt16) (ttl : UInt32) : Fill :=
  Fill.inOrder [encodeName cap owner, appendU16 cap type, appendU16 cap rrclass, appendU32 cap ttl]

def addRrPtr (owner target : Bytes) (ttl : UInt32) : Fill :=
  Fill.inOrder [addRrStart cap owner dnsTypePtr dnsClassIn ttl, Fill.sized cap (encodeName cap target)]

def addRrTxtEmpty (owner : Bytes) (ttl : UInt32) : Fill :=
  Fill.inOrder [addRrStart cap owner dnsTypeTxt dnsClassInUnique ttl, appendU16 cap 1,
    Fill.append cap [0]]

/-- The loop over the strings of a TXT record. -/
def appendTxtStrings : List Bytes → Fill
  | [] => Fill.done
  | s :: rest =>
      if maxTxtString < s.length then Fill.fail
      else (appendLabel cap s).andThen (appendTxtStrings rest)

def addRrTxtStrings (owner : Bytes) (strings : List Bytes) (ttl : UInt32) : Fill :=
  Fill.inOrder [addRrStart cap owner dnsTypeTxt dnsClassInUnique ttl,
    Fill.sized cap (appendTxtStrings cap strings)]

def addRrSrv (owner target : Bytes) (port : UInt16) (ttl : UInt32) : Fill :=
  Fill.inOrder [addRrStart cap owner dnsTypeSrv dnsClassInUnique ttl,
    Fill.sized cap
      (Fill.inOrder [appendU16 cap 0, appendU16 cap 0, appendU16 cap port, encodeName cap target])]

/-- `add_rr_a` and `add_rr_aaaa`: an address of a known length. -/
def addRrAddress (owner : Bytes) (type : UInt16) (addr : Bytes) (ttl : UInt32) : Fill :=
  Fill.inOrder [addRrStart cap owner type dnsClassInUnique ttl,
    appendU16 cap (UInt16.ofNat addr.length), Fill.append cap addr]

end Records

/-! ## Groups of records -/

/-- What the functions that add a service's records share; the three answers are counted when all of
them are written. -/
def addServiceRecords (cfg : Config) (s : Service) (ttl : UInt32) (txts : Option (List Bytes)) : Fill :=
  if !s.enabled cfg then Fill.done
  else
    match s.buildFqdn cfg, txts with
    | some fqdn, some strings =>
        Fill.inOrder
          [addRrPtr bufSize s.serviceType fqdn ttl, addRrSrv bufSize fqdn cfg.hostFqdn (s.port cfg) ttl,
            if strings = [] then addRrTxtEmpty bufSize fqdn ttl
            else addRrTxtStrings bufSize fqdn strings ttl,
            Fill.counted 3]
    | _, _ => Fill.fail

/-- Each address is counted when it is written. -/
def appendHostAddressRecords (owner : Bytes) (link : LinkContext) (ttl : UInt32) : Fill :=
  if owner = [] then Fill.done
  else
    Fill.inOrder
      [Fill.inOrder (link.ipv4.map fun addr =>
          (addRrAddress bufSize owner dnsTypeA (be32 addr.addr.toNat) ttl).andThen (Fill.counted 1)),
        Fill.inOrder ((link.ipv6.filter (advertisesIpv6 link)).map fun addr =>
          (addRrAddress bufSize owner dnsTypeAaaa (ipv6CanonicalizeScopedAddress addr.addr).toList
            ttl).andThen (Fill.counted 1))]

def appendGeneratedBaseRecords (cfg : Config) (link : LinkContext) (ttl : UInt32) : Fill :=
  Fill.inOrder
    [addServiceRecords cfg .smb ttl (some []), addServiceRecords cfg .afp ttl (some []),
      appendHostAddressRecords cfg.hostFqdn link ttl,
      addServiceRecords cfg .adisk ttl (buildAdiskTxts cfg),
      addServiceRecords cfg .deviceInfo ttl ((buildModelTxt cfg.deviceModel).map fun txt => [txt])]

def addPdlDatastreamRecords (cfg : Config) (ttl : UInt32) : Fill :=
  addServiceRecords cfg .pdlDatastream ttl (buildPdlDatastreamTxtItems cfg)

def addRiousbprintRecords (cfg : Config) (ttl : UInt32) : Fill :=
  addServiceRecords cfg .riousbprint ttl (buildRiousbprintTxtItems cfg)

def addAirportRecords (cfg : Config) (ttl : UInt32) : Fill :=
  addServiceRecords cfg .airport ttl ((buildAirportTxt cfg).map fun txt => [txt])

/-! ## Sending -/

/-- The buffer, and the packets handed to the socket so far. -/
structure Announcing where
  buffer : Filling
  sent : List Bytes

def initAnnouncementPacket (s : Filling) : Filling := { s with off := sizeofDnsHeader, count := 0 }

/-- Whether the packet was accepted; an empty one is not sent. -/
def finalizeAndSendAnnouncementPacketAny (accepts : Bytes → Bool) (ann : Announcing) :
    Bool × Announcing :=
  if ann.buffer.count = 0 then (true, ann)
  else
    let header := responseHeader 0 0 ann.buffer.count
    let buffer := { ann.buffer with buf := setSlice ann.buffer.buf 0 sizeofDnsHeader header }
    (accepts buffer.filled, ⟨buffer, ann.sent ++ [buffer.filled]⟩)

def appendGeneratedRecordsWithFlush (accepts : Bytes → Bool) (addRecords : Fill) (ann : Announcing) :
    Except Announcing Announcing :=
  let beforeOff := ann.buffer.off
  let beforeAnswers := ann.buffer.count
  match addRecords ann.buffer with
  | (true, buffer) => .ok { ann with buffer }
  | (false, buffer) =>
      let ann := { ann with buffer := { buffer with off := beforeOff, count := beforeAnswers } }
      match finalizeAndSendAnnouncementPacketAny accepts ann with
      | (false, ann) => .error ann
      | (true, ann) =>
          match addRecords (initAnnouncementPacket ann.buffer) with
          | (true, buffer) => .ok { ann with buffer }
          | (false, buffer) => .error { ann with buffer }

def appendGeneratedAppleRecords (accepts : Bytes → Bool) (cfg : Config) (ttl : UInt32)
    (ann : Announcing) : Except Announcing Announcing := do
  let ann ← appendGeneratedRecordsWithFlush accepts (addPdlDatastreamRecords cfg ttl) ann
  let ann ← appendGeneratedRecordsWithFlush accepts (addRiousbprintRecords cfg ttl) ann
  appendGeneratedRecordsWithFlush accepts (addAirportRecords cfg ttl) ann

/-- Whether the announcement succeeded, and the packets handed to the socket; `buf` is what is on the
stack where the buffer is. -/
def sendAnnouncementAnyScoped (accepts : Bytes → Bool) (cfg : Config) (link : LinkContext)
    (ttl : UInt32) (scope : MdnsServiceScope) (buf : Bytes) : Bool × List Bytes :=
  let cfg := mdnsConfigForScope cfg scope
  match appendGeneratedBaseRecords cfg link ttl (initAnnouncementPacket ⟨buf, 0, 0⟩) with
  | (false, _) => (false, [])
  | (true, buffer) =>
      match appendGeneratedAppleRecords accepts cfg ttl ⟨buffer, []⟩ with
      | .error ann => (false, ann.sent)
      | .ok ann =>
          let (accepted, ann) := finalizeAndSendAnnouncementPacketAny accepts ann
          (accepted, ann.sent)

/-! ## What is written -/

section Writes

variable {cap : Nat}

end Writes

/-- The function appends the records and counts them. -/
def FillsRecords (f : Fill) (records : List Record) : Prop :=
  Fills bufSize f (encodeAll records) records.length

section Groups

variable {cfg : Config} {link : LinkContext} {ttl : UInt32} {f : Fill} {fs : List Fill}
  {records later : List Record}

theorem FillsRecords.cons (hf : FillsRecords f records) (hfs : FillsRecords (Fill.inOrder fs) later) :
    FillsRecords (Fill.inOrder (f :: fs)) (records ++ later) :=
  (Fills.cons hf hfs).congr (encodeAll_append records later).symm List.length_append.symm

end Groups

/-! ## The packets that are sent -/

/-- The buffer is filled with a header's room and the records. -/
structure Holds (buffer : Filling) (records : List Record) : Prop where
  sound : buffer.Sound bufSize
  fits : fitsPacket records
  filled : buffer.filled.drop sizeofDnsHeader = (encodeAll records).getD []
  off : buffer.off = sizeofDnsHeader + ((encodeAll records).getD []).length
  count : buffer.count = records.length

/-- The buffer holds the records of the packet, and the same packets have been sent. -/
structure Simulates (ann : Announcing) (abstract : Announcement) : Prop where
  holds : ∃ records, abstract.packet = packetOf records ∧ Holds ann.buffer records
  sent : ann.sent = abstract.sent.map (·.bytes)

/-- Both have gone on, or both have stopped with the same packets sent. -/
inductive SimulatesResult : Except Announcing Announcing → Except Announcement Announcement → Prop where
  | ok {ann : Announcing} {abstract : Announcement} (h : Simulates ann abstract) :
      SimulatesResult (.ok ann) (.ok abstract)
  | error {ann : Announcing} {abstract : Announcement} (h : ann.sent = abstract.sent.map (·.bytes)) :
      SimulatesResult (.error ann) (.error abstract)

section Packets

variable {accepts : Bytes → Bool} {buffer : Filling} {records new : List Record} {f : Fill}
  {append : Append} {ann : Announcing} {abstract : Announcement}

theorem holds_init (hlength : buffer.buf.length = bufSize) : Holds (initAnnouncementPacket buffer) [] where
  sound := ⟨hlength, show sizeofDnsHeader ≤ bufSize by decide⟩
  fits := fitsPacket_nil
  filled := List.drop_eq_nil_of_le (List.length_take_le _ _)
  off := rfl
  count := rfl

theorem encodeAll_of_fits (h : fitsPacket records) :
    ∃ wire, encodeAll records = some wire ∧ sizeofDnsHeader + wire.length ≤ bufSize := by
  unfold fitsPacket at h
  cases hwire : encodeAll records with
  | none =>
    rw [hwire] at h
    cases h
  | some wire =>
    rw [hwire, Option.any_some] at h
    exact ⟨wire, rfl, of_decide_eq_true h⟩

/-- Adding records to the buffer succeeds when they fit, and otherwise changes nothing before the
offset. -/
theorem Holds.add (h : Holds buffer records) (hf : FillsRecords f new) :
    (f buffer).1 = fitsPacket (records ++ new) ∧
      ((f buffer).1 = true → Holds (f buffer).2 (records ++ new)) ∧
      ((f buffer).1 = false →
        Holds { (f buffer).2 with off := buffer.off, count := buffer.count } records) := by
  obtain ⟨wire, hwire, hfit⟩ := encodeAll_of_fits h.fits
  have hoff : buffer.off = sizeofDnsHeader + wire.length := by
    rw [h.off, hwire, Option.getD_some]
  have hkeeps := hf.keeps buffer h.sound
  have hadds : (f buffer).1 = fitsPacket (records ++ new) := by
    rw [Bool.eq_iff_iff, hf.succeeds buffer h.sound]
    unfold fitsPacket
    rw [encodeAll_append, hwire, Option.bind_some]
    cases encodeAll new with
    | none => simp
    | some bytes =>
      simp only [Option.some.injEq, exists_eq_left', Option.map_some, Option.any_some,
        List.length_append, decide_eq_true_eq]
      omega
  refine ⟨hadds, fun hok => ?_, fun _ => ?_⟩
  · obtain ⟨bytes, hbytes, hnew⟩ := (hf.succeeds buffer h.sound).mp hok
    obtain ⟨hfilled, hcount⟩ := hf.fills buffer h.sound bytes hbytes hnew
    have hall : encodeAll (records ++ new) = some (wire ++ bytes) := by
      rw [encodeAll_append, hwire, hbytes]
      rfl
    refine ⟨hkeeps.sound, hadds ▸ hok, ?_, ?_, ?_⟩
    · rw [hfilled, List.drop_append_of_le_length (by rw [h.sound.length_filled]; omega), h.filled,
        hwire, hall]
      rfl
    · rw [← hkeeps.sound.length_filled, hfilled, List.length_append, h.sound.length_filled, hoff, hall,
        Option.getD_some, List.length_append, Nat.add_assoc]
    · rw [hcount, h.count, List.length_append]
  · exact ⟨⟨hkeeps.sound.length, h.sound.off⟩, h.fits, by
      rw [← h.filled]
      exact congrArg _ hkeeps.filled, h.off, h.count⟩

/-- A packet that is sent has its header and its records; the buffer holds them still. -/
theorem Holds.finalize (h : Holds buffer records) (sent : List Bytes) :
    ∃ buffer', finalizeAndSendAnnouncementPacketAny accepts ⟨buffer, sent⟩ =
        (if records = [] then (true, ⟨buffer', sent⟩)
        else (acceptsRecords accepts records,
          ⟨buffer', sent ++ [(announcementPacket records).bytes]⟩)) ∧ Holds buffer' records := by
  unfold finalizeAndSendAnnouncementPacketAny
  by_cases hempty : records = []
  · refine ⟨buffer, ?_, h⟩
    rw [if_pos hempty, if_pos (by rw [h.count, hempty]; rfl)]
  · have hcount : buffer.count ≠ 0 := by
      rw [h.count]
      exact fun hzero => hempty (List.length_eq_zero_iff.mp hzero)
    simp only [if_neg hempty, if_neg hcount]
    have hheader : (responseHeader 0 0 buffer.count).length = sizeofDnsHeader := rfl
    have hlong : sizeofDnsHeader ≤ buffer.buf.length := by
      rw [h.sound.length]
      decide
    generalize hbuffer' : ({ buffer with
      buf := setSlice buffer.buf 0 sizeofDnsHeader (responseHeader 0 0 buffer.count) } : Filling) = buffer'
    have hfilled : buffer'.filled = responseHeader 0 0 buffer.count ++ (encodeAll records).getD [] := by
      rw [← h.filled, ← hbuffer', Filling.filled, Filling.filled, List.drop_take, h.off,
        Nat.add_sub_cancel_left]
      show List.take ((responseHeader 0 0 buffer.count).length + _)
        (responseHeader 0 0 buffer.count ++ buffer.buf.drop sizeofDnsHeader) = _
      exact List.take_length_add_append _
    have hbytes : buffer'.filled = (announcementPacket records).bytes := by
      rw [hfilled, h.count]
      rfl
    refine ⟨buffer', ?_, ?_⟩
    · rw [hbytes]
      rfl
    · have hsound : buffer'.Sound bufSize := by
        rw [← hbuffer']
        refine ⟨?_, h.sound.off⟩
        rw [length_setSlice (Nat.zero_le _) hlong hheader, h.sound.length]
      refine ⟨hsound, h.fits, ?_, ?_, ?_⟩
      · rw [hfilled]
        exact List.drop_left' hheader
      · rw [← hbuffer']
        exact h.off
      · rw [← hbuffer']
        exact h.count

/-- Appending a group in the buffer does what appending it to a packet does. -/
theorem Simulates.appendGeneratedRecordsWithFlush (h : Simulates ann abstract)
    (hf : FillsRecords f new) (hadd : Pushes append new) :
    SimulatesResult (InPlace.appendGeneratedRecordsWithFlush accepts f ann)
      (Mdns.appendGeneratedRecordsWithFlush accepts append abstract) := by
  obtain ⟨records, hpacket, hholds⟩ := h.holds
  obtain ⟨packet, sent⟩ := abstract
  obtain rfl : packet = packetOf records := hpacket
  have hsent : ann.sent = sent.map (·.bytes) := h.sent
  rw [appendWithFlush_packetOf accepts hadd hholds.fits]
  obtain ⟨hadds, hadded, hkept⟩ := hholds.add hf
  unfold InPlace.appendGeneratedRecordsWithFlush
  rcases hrun : f ann.buffer with ⟨added, buffer⟩
  rw [hrun] at hadds hadded hkept
  cases added with
  | true =>
    rw [if_pos hadds.symm]
    exact .ok ⟨⟨_, rfl, hadded rfl⟩, hsent⟩
  | false =>
    have hnofit : ¬(fitsPacket (records ++ new) = true) := by
      rw [← hadds]
      exact Bool.false_ne_true
    obtain ⟨buffer', hfinalize, hbuffer'⟩ := @Holds.finalize accepts _ _ (hkept rfl) ann.sent
    obtain ⟨hfresh, hfreshAdded, -⟩ := (holds_init hbuffer'.sound.length).add hf
    rcases hagain : f (initAnnouncementPacket buffer') with ⟨again, buffer''⟩
    rw [hagain, List.nil_append] at hfresh hfreshAdded
    rw [if_neg hnofit]
    dsimp only
    rw [hfinalize]
    by_cases hempty : records = []
    · rw [hempty, List.nil_append, ← hfresh] at hnofit
      rw [if_pos hempty, if_pos hempty]
      dsimp only
      rw [hagain]
      cases again with
      | true => exact absurd rfl hnofit
      | false => exact .error hsent
    · have hflushed : ann.sent ++ [(announcementPacket records).bytes] =
          (sent ++ [announcementPacket records]).map (·.bytes) := by
        rw [hsent, List.map_append, List.map_singleton]
      rw [if_neg hempty, if_neg hempty]
      cases haccepts : acceptsRecords accepts records with
      | false => exact .error hflushed
      | true =>
        rw [if_pos rfl, ← hfresh]
        dsimp only
        rw [hagain]
        cases again with
        | true => exact .ok ⟨⟨new, rfl, hfreshAdded rfl⟩, hflushed⟩
        | false => exact .error hflushed

theorem SimulatesResult.bind {x : Except Announcing Announcing} {y : Except Announcement Announcement}
    {g : Announcing → Except Announcing Announcing}
    {g' : Announcement → Except Announcement Announcement} (h : SimulatesResult x y)
    (hg : ∀ ann abstract, Simulates ann abstract → SimulatesResult (g ann) (g' abstract)) :
    SimulatesResult (x >>= g) (y >>= g') := by
  cases h with
  | ok h => exact hg _ _ h
  | error h => exact .error h

end Packets

end InPlace

end TimeCapsule.Mdns
