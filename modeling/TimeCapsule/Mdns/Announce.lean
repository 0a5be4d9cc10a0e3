import TimeCapsule.Lib.Packing
import TimeCapsule.Mdns.Planned

/-!
# Announcements

The packets that announce all records of the configuration on a link, or say goodbye to them.  The
core records share the first packet; a printer or AirPort service that no longer fits the packet
being filled makes it be sent.
-/

namespace TimeCapsule.Mdns

open Lib

/-- A packet being filled: the buffer up to the offset, and the records in it, whose number is the
count of answers. -/
structure Packet where
  records : List Record
  bytes : Bytes
deriving DecidableEq, Repr

/-- `init_announcement_packet`; the header is written when the packet is sent. -/
def Packet.init : Packet := ⟨[], zeros sizeofDnsHeader⟩

def responseHeader (id : UInt16) (qdcount ancount : Nat) : Bytes :=
  be16 id.toNat ++ be16 (dnsFlagQr ||| dnsFlagAa).toNat ++ be16 qdcount ++ be16 ancount ++ zeros 4

/-- The packet with its header in place. -/
def Packet.withHeader (p : Packet) (id : UInt16) (qdcount : Nat) : Packet :=
  { p with bytes := responseHeader id qdcount p.records.length ++ p.bytes.drop sizeofDnsHeader }

abbrev Append := Packet → Option Packet

/-- Runs a writer of the record `x`. -/
def Packet.write (w : Writer) (x : Option Record) : Append := fun p =>
  (w p.bytes).bind fun bytes => x.map fun r => ⟨p.records ++ [r], bytes⟩

namespace Append

def inOrder : List Append → Append
  | [] => some
  | a :: rest => fun p => (a p).bind (inOrder rest)

def ptr (owner target : Bytes) (ttl : UInt32) : Append :=
  Packet.write (addRrPtr bufSize owner target ttl) (ptrRecord owner target ttl)

def srv (owner target : Bytes) (port : UInt16) (ttl : UInt32) : Append :=
  Packet.write (addRrSrv bufSize owner target port ttl) (srvRecord owner target port ttl)

def txtEmpty (owner : Bytes) (ttl : UInt32) : Append :=
  Packet.write (addRrTxtEmpty bufSize owner ttl) (some (txtRecord owner [0] ttl))

def txtStrings (owner : Bytes) (strings : List Bytes) (ttl : UInt32) : Append :=
  Packet.write (addRrTxtStrings bufSize owner ttl strings)
    ((txtRdata strings).map (txtRecord owner · ttl))

def a (owner : Bytes) (addr : Ipv4) (ttl : UInt32) : Append :=
  Packet.write (addRrA bufSize owner (be32 addr.toNat) ttl) (some (aRecord owner (be32 addr.toNat) ttl))

def aaaa (owner : Bytes) (addr : In6Addr) (ttl : UInt32) : Append :=
  Packet.write (addRrAaaa bufSize owner addr.toList ttl) (some (aaaaRecord owner addr.toList ttl))

end Append

/-! ## The records of a service -/

/-- What the functions that add a service's records share: PTR, SRV and TXT.  A service without texts
has the empty TXT record. -/
def addServiceRecords (cfg : Config) (s : Service) (ttl : UInt32) (txts : Option (List Bytes)) :
    Append := fun p =>
  if !s.enabled cfg then some p
  else do
    let fqdn ← s.buildFqdn cfg
    let strings ← txts
    Append.inOrder
      [Append.ptr s.serviceType fqdn ttl, Append.srv fqdn cfg.hostFqdn (s.port cfg) ttl,
        if strings = [] then Append.txtEmpty fqdn ttl else Append.txtStrings fqdn strings ttl] p

section Services

variable (cfg : Config) (ttl : UInt32)

def addSmbRecords : Append := addServiceRecords cfg .smb ttl (some [])

def addAfpRecords : Append := addServiceRecords cfg .afp ttl (some [])

def addAdiskRecords : Append := addServiceRecords cfg .adisk ttl (buildAdiskTxts cfg)

def addDeviceInfoRecords : Append :=
  addServiceRecords cfg .deviceInfo ttl ((buildModelTxt cfg.deviceModel).map fun txt => [txt])

def addAirportRecords : Append :=
  addServiceRecords cfg .airport ttl ((buildAirportTxt cfg).map fun txt => [txt])

def addRiousbprintRecords : Append :=
  addServiceRecords cfg .riousbprint ttl (buildRiousbprintTxtItems cfg)

def addPdlDatastreamRecords : Append :=
  addServiceRecords cfg .pdlDatastream ttl (buildPdlDatastreamTxtItems cfg)

end Services

def appendHostAddressRecords (owner : Bytes) (link : LinkContext) (includeA includeAaaa : Bool)
    (ttl : UInt32) : Append :=
  if owner = [] then some
  else
    Append.inOrder
      [Append.inOrder (if includeA then link.ipv4.map fun addr => Append.a owner addr.addr ttl else []),
        Append.inOrder (if includeAaaa then
          (link.ipv6.filter (advertisesIpv6 link)).map fun addr =>
            Append.aaaa owner (ipv6CanonicalizeScopedAddress addr.addr) ttl
        else [])]

def appendGeneratedBaseRecords (cfg : Config) (link : LinkContext) (includeA includeAaaa : Bool)
    (ttl : UInt32) : Append :=
  Append.inOrder
    [addSmbRecords cfg ttl, addAfpRecords cfg ttl,
      appendHostAddressRecords cfg.hostFqdn link includeA includeAaaa ttl, addAdiskRecords cfg ttl,
      addDeviceInfoRecords cfg ttl]

/-! ## Sending -/

/-- The packet being filled, and the packets handed to the socket so far. -/
structure Announcement where
  packet : Packet
  sent : List Packet

/-- Whether the packet was accepted; an empty one is not sent. -/
def finalizeAndSendAnnouncementPacketAny (accepts : Bytes → Bool) (ann : Announcement) :
    Bool × Announcement :=
  if ann.packet.records = [] then (true, ann)
  else
    let packet := ann.packet.withHeader 0 0
    (accepts packet.bytes, { ann with sent := ann.sent ++ [packet] })

def appendGeneratedRecordsWithFlush (accepts : Bytes → Bool) (addRecords : Append)
    (ann : Announcement) : Except Announcement Announcement :=
  match addRecords ann.packet with
  | some packet => .ok { ann with packet }
  | none =>
      match finalizeAndSendAnnouncementPacketAny accepts ann with
      | (false, ann) => .error ann
      | (true, ann) =>
          match addRecords Packet.init with
          | some packet => .ok { ann with packet }
          | none => .error { ann with packet := Packet.init }

def appendGeneratedAppleRecords (accepts : Bytes → Bool) (cfg : Config) (ttl : UInt32)
    (ann : Announcement) : Except Announcement Announcement := do
  let ann ← appendGeneratedRecordsWithFlush accepts (addPdlDatastreamRecords cfg ttl) ann
  let ann ← appendGeneratedRecordsWithFlush accepts (addRiousbprintRecords cfg ttl) ann
  appendGeneratedRecordsWithFlush accepts (addAirportRecords cfg ttl) ann

/-- The last packet is sent, unless appending a service failed. -/
def finishAnnouncement (accepts : Bytes → Bool) : Except Announcement Announcement → Bool × List Packet
  | .error ann => (false, ann.sent)
  | .ok ann =>
      let (accepted, ann) := finalizeAndSendAnnouncementPacketAny accepts ann
      (accepted, ann.sent)

/-- Whether the announcement succeeded, and the packets handed to the socket. -/
def sendAnnouncementAnyScoped (accepts : Bytes → Bool) (cfg : Config) (link : LinkContext)
    (ttl : UInt32) (scope : MdnsServiceScope) : Bool × List Packet :=
  let cfg := mdnsConfigForScope cfg scope
  match appendGeneratedBaseRecords cfg link true true ttl Packet.init with
  | none => (false, [])
  | some packet =>
      finishAnnouncement accepts (appendGeneratedAppleRecords accepts cfg ttl ⟨packet, []⟩)

/-! ## What is appended -/

/-- The encodings of the records, one after the other. -/
def encodeAll : List Record → Option Bytes
  | [] => some []
  | r :: rest => r.encode.bind fun first => (encodeAll rest).map (first ++ ·)

/-- The packet that holds these records. -/
def packetOf (records : List Record) : Packet :=
  ⟨records, zeros sizeofDnsHeader ++ (encodeAll records).getD []⟩

/-- The records fit one packet. -/
def fitsPacket (records : List Record) : Bool :=
  (encodeAll records).any fun bytes => sizeofDnsHeader + bytes.length ≤ bufSize

/-- Appends the records if they fit. -/
def push (new : List Record) : Append := fun p =>
  (encodeAll new).bind fun bytes =>
    (appendBytes bufSize bytes p.bytes).map fun full => ⟨p.records ++ new, full⟩

section Append

variable {rs new : List Record} {p : Packet}

theorem encodeAll_append (rs new : List Record) :
    encodeAll (rs ++ new) =
      (encodeAll rs).bind fun a => (encodeAll new).map (a ++ ·) := by
  induction rs with
  | nil =>
    unfold encodeAll
    simp
  | cons r rs ih =>
    rw [List.cons_append, encodeAll, encodeAll, ih]
    cases r.encode with
    | none => rfl
    | some first => cases encodeAll rs <;> cases encodeAll new <;> simp

theorem fitsPacket_append (h : fitsPacket (rs ++ new)) : fitsPacket rs ∧ fitsPacket new := by
  unfold fitsPacket at h ⊢
  rw [encodeAll_append] at h
  cases hrs : encodeAll rs with
  | none => simp [hrs] at h
  | some a =>
    cases hnew : encodeAll new with
    | none => simp [hrs, hnew] at h
    | some b =>
      simp only [hrs, hnew, Option.bind_some, Option.map_some, Option.any_some, List.length_append,
        decide_eq_true_eq] at h ⊢
      omega

theorem fitsPacket_nil : fitsPacket [] := by decide

theorem packetOf_nil : packetOf [] = Packet.init := rfl

/-- Records are appended if all of them fit. -/
theorem push_packetOf (h : fitsPacket rs) :
    push new (packetOf rs) = if fitsPacket (rs ++ new) then some (packetOf (rs ++ new)) else none := by
  unfold fitsPacket at h
  unfold push packetOf fitsPacket
  rw [encodeAll_append]
  cases hrs : encodeAll rs with
  | none => simp [hrs] at h
  | some a =>
    cases encodeAll new with
    | none => rfl
    | some b =>
      simp only [Option.bind_some, Option.map_some, Option.any_some, Option.getD_some, appendBytes,
        List.length_append, length_zeros, decide_eq_true_eq]
      by_cases hfit : sizeofDnsHeader + (a.length + b.length) ≤ bufSize
      · rw [if_pos hfit, if_neg (by omega), Option.map_some, List.append_assoc]
      · rw [if_neg hfit, if_pos (by omega), Option.map_none]

theorem push_nil (h : p.bytes.length ≤ bufSize) : push [] p = some p := by
  unfold push encodeAll
  rw [Option.bind_some, appendBytes_eq_some.mpr ⟨by simpa using h, rfl⟩, Option.map_some,
    List.append_nil, List.append_nil]

theorem push_length {q : Packet} (h : push new p = some q) : q.bytes.length ≤ bufSize := by
  obtain ⟨bytes, -, h⟩ := Option.bind_eq_some_iff.mp h
  obtain ⟨full, hfull, rfl⟩ := Option.map_eq_some_iff.mp h
  obtain ⟨hlen, rfl⟩ := appendBytes_eq_some.mp hfull
  rw [List.length_append]
  exact hlen

theorem push_bind (a b : List Record) : (push a p).bind (push b) = push (a ++ b) p := by
  unfold push
  rw [encodeAll_append]
  cases encodeAll a with
  | none => rfl
  | some x =>
    cases hb : encodeAll b with
    | none => cases appendBytes bufSize x p.bytes <;> simp
    | some y =>
      simp only [Option.bind_some, Option.map_some]
      rw [← appendBytes_bind]
      cases appendBytes bufSize x p.bytes with
      | none => rfl
      | some full =>
        simp only [Option.map_some, Option.bind_some, List.append_assoc]

/-- A writer of a record pushes it. -/
theorem write_eq {w : Writer} {x : Option Record} (hw : Renders bufSize w (x.bind Record.encode))
    (hp : p.bytes.length ≤ bufSize) : Packet.write w x p = x.bind fun r => push [r] p := by
  unfold Packet.write
  rw [hw p.bytes hp]
  cases x with
  | none => rfl
  | some r =>
    unfold push encodeAll encodeAll
    rw [Option.bind_some, Option.bind_some]
    cases r.encode with
    | none => rfl
    | some bytes =>
      simp only [Option.bind_some, Option.map_some, List.append_nil]
      cases appendBytes bufSize bytes p.bytes <;> rfl

/-- The append function pushes these records. -/
def Pushes (a : Append) (records : List Record) : Prop :=
  ∀ p : Packet, p.bytes.length ≤ bufSize → a p = push records p

theorem Pushes.write {w : Writer} {x : Option Record} {r : Record}
    (hw : Renders bufSize w (x.bind Record.encode)) (hx : x = some r) :
    Pushes (Packet.write w x) [r] := by
  intro p hp
  rw [write_eq hw hp, hx, Option.bind_some]

theorem Pushes.some : Pushes some [] := fun _ hp => (push_nil hp).symm

theorem Pushes.inOrder {as : List Append} {rss : List (List Record)}
    (h : List.Forall₂ Pushes as rss) : Pushes (Append.inOrder as) rss.flatten := by
  induction h with
  | nil => exact Pushes.some
  | @cons a rs as rss ha _ ih =>
    intro p hp
    show (a p).bind (Append.inOrder as) = _
    rw [ha p hp, List.flatten_cons, ← push_bind]
    cases hpush : push rs p with
    | none => rfl
    | some q => exact ih q (push_length hpush)

end Append

/-! ## The records of an accepted configuration -/

/-- The records announced for a service. -/
def Service.announced (s : Service) (cfg : Config) (ttl : UInt32) : List Record :=
  if s.enabled cfg then
    [s.ptr ((Owner.inst s).text cfg) ttl, s.srv cfg ((Owner.inst s).text cfg) ttl,
      s.txt cfg ((Owner.inst s).text cfg) ttl].filterMap id
  else []

/-- The records of the first packet. -/
def coreRecords (cfg : Config) (link : LinkContext) (ttl : UInt32) : List Record :=
  Service.smb.announced cfg ttl ++ Service.afp.announced cfg ttl ++
    linkAddresses cfg.hostFqdn link true true ttl ++ Service.adisk.announced cfg ttl ++
    Service.deviceInfo.announced cfg ttl

/-- The services whose records may start another packet, in order. -/
def flushedServices : List Service := [.pdlDatastream, .riousbprint, .airport]

section Accepted

variable {cfg : Config} {link : LinkContext} {ttl : UInt32}

theorem addServiceRecords_pushes (hcfg : Accepted cfg) (s : Service) (ttl : UInt32) :
    Pushes (addServiceRecords cfg s ttl (s.txts cfg)) (s.announced cfg ttl) := by
  by_cases hs : s.enabled cfg
  · obtain ⟨ptrData, hptrData, hptr⟩ := hcfg.ptr_some hs ttl
    obtain ⟨srvData, hsrvData, hsrv⟩ := hcfg.srv_some hs ((Owner.inst s).text cfg) ttl
    obtain ⟨txtBytes, hbind, htxt⟩ := hcfg.txt_some hs ((Owner.inst s).text cfg) ttl
    obtain ⟨strings, hstrings, hdata⟩ := Option.bind_eq_some_iff.mp hbind
    have htxtAppend : Pushes (if strings = [] then Append.txtEmpty ((Owner.inst s).text cfg) ttl
        else Append.txtStrings ((Owner.inst s).text cfg) strings ttl)
        [txtRecord ((Owner.inst s).text cfg) txtBytes ttl] := by
      unfold txtData at hdata
      by_cases hempty : strings = []
      · rw [if_pos hempty] at hdata ⊢
        obtain rfl := Option.some.inj hdata
        exact Pushes.write (renders_addRrTxtEmpty bufSize _ ttl) rfl
      · rw [if_neg hempty] at hdata ⊢
        apply Pushes.write (renders_addRrTxtStrings bufSize _ ttl strings)
        rw [hdata, Option.map_some]
    have hall := Pushes.inOrder (List.Forall₂.cons
      (Pushes.write (renders_addRrPtr bufSize s.serviceType ttl ((Owner.inst s).text cfg)) hptr)
      (List.Forall₂.cons
        (Pushes.write (renders_addRrSrv bufSize ((Owner.inst s).text cfg) ttl cfg.hostFqdn
          (s.port cfg)) hsrv)
        (List.Forall₂.cons htxtAppend List.Forall₂.nil)))
    intro p hp
    unfold addServiceRecords Service.announced
    rw [if_neg (by simp [hs]), if_pos hs, hcfg.fqdn hs, hstrings, hptr, hsrv, htxt]
    exact hall p hp
  · intro p hp
    unfold addServiceRecords Service.announced
    rw [if_pos (by simp [hs]), if_neg hs]
    exact Pushes.some p hp

theorem appendHostAddressRecords_pushes (owner : Bytes) (link : LinkContext) (a aaaa : Bool)
    (ttl : UInt32) :
    Pushes (appendHostAddressRecords owner link a aaaa ttl) (linkAddresses owner link a aaaa ttl) := by
  unfold appendHostAddressRecords linkAddresses
  by_cases ho : owner = []
  · rw [if_pos ho, if_pos ho]
    exact Pushes.some
  rw [if_neg ho, if_neg ho]
  have each : ∀ {β : Type} (xs : List β) (f : β → Append) (g : β → Record),
      (∀ x, Pushes (f x) [g x]) → Pushes (Append.inOrder (xs.map f)) (xs.map g) := by
    intro β xs f g hfg
    have hflat : xs.map g = (xs.map fun x => [g x]).flatten := by
      induction xs with
      | nil => rfl
      | cons x xs ih => rw [List.map_cons, ih, List.map_cons, List.flatten_cons, List.singleton_append]
    rw [hflat]
    apply Pushes.inOrder
    rw [List.forall₂_map_left_iff, List.forall₂_map_right_iff]
    exact List.forall₂_same.mpr fun x _ => hfg x
  have h4 : Pushes
      (Append.inOrder (if a then link.ipv4.map fun addr => Append.a owner addr.addr ttl else []))
      (if a then link.ipv4.map fun addr => aRecord owner (be32 addr.addr.toNat) ttl else []) := by
    cases a with
    | false => exact Pushes.some
    | true =>
      apply each
      intro addr
      exact Pushes.write (renders_addRrA bufSize owner ttl (length_be32 _)) rfl
  have h6 : Pushes
      (Append.inOrder (if aaaa then (link.ipv6.filter (advertisesIpv6 link)).map fun addr =>
        Append.aaaa owner (ipv6CanonicalizeScopedAddress addr.addr) ttl else []))
      (if aaaa then (link.ipv6.filter (advertisesIpv6 link)).map fun addr =>
        aaaaRecord owner (ipv6CanonicalizeScopedAddress addr.addr).toList ttl else []) := by
    cases aaaa with
    | false => exact Pushes.some
    | true =>
      apply each
      intro addr
      exact Pushes.write (renders_addRrAaaa bufSize owner ttl (by simp)) rfl
  have h := Pushes.inOrder (List.Forall₂.cons h4 (List.Forall₂.cons h6 List.Forall₂.nil))
  rwa [List.flatten_cons, List.flatten_cons, List.flatten_nil, List.append_nil] at h

theorem appendGeneratedBaseRecords_pushes (hcfg : Accepted cfg) (link : LinkContext) (ttl : UInt32) :
    Pushes (appendGeneratedBaseRecords cfg link true true ttl) (coreRecords cfg link ttl) := by
  have h := Pushes.inOrder
    (List.Forall₂.cons (addServiceRecords_pushes hcfg .smb ttl)
      (List.Forall₂.cons (addServiceRecords_pushes hcfg .afp ttl)
        (List.Forall₂.cons (appendHostAddressRecords_pushes cfg.hostFqdn link true true ttl)
          (List.Forall₂.cons (addServiceRecords_pushes hcfg .adisk ttl)
            (List.Forall₂.cons (addServiceRecords_pushes hcfg .deviceInfo ttl)
              List.Forall₂.nil)))))
  unfold coreRecords
  simp only [List.flatten_cons, List.flatten_nil, List.append_nil] at h
  simp only [List.append_assoc]
  exact h

/-- The packet with these records as it is sent. -/
def announcementPacket (records : List Record) : Packet := (packetOf records).withHeader 0 0

/-- Whether the packet with these records is accepted. -/
def acceptsRecords (accepts : Bytes → Bool) (records : List Record) : Bool :=
  accepts (announcementPacket records).bytes

variable (accepts : Bytes → Bool)

theorem finalize_packetOf (rs : List Record) (sent : List Packet) :
    finalizeAndSendAnnouncementPacketAny accepts ⟨packetOf rs, sent⟩ =
      if rs = [] then (true, ⟨packetOf rs, sent⟩)
      else (acceptsRecords accepts rs, ⟨packetOf rs, sent ++ [announcementPacket rs]⟩) := rfl

theorem appendWithFlush_packetOf {add : Append} {new : List Record} (hadd : Pushes add new)
    {rs : List Record} (hrs : fitsPacket rs) (sent : List Packet) :
    appendGeneratedRecordsWithFlush accepts add ⟨packetOf rs, sent⟩ =
      if fitsPacket (rs ++ new) then .ok ⟨packetOf (rs ++ new), sent⟩
      else if rs = [] then .error ⟨Packet.init, sent⟩
      else if acceptsRecords accepts rs then
        if fitsPacket new then .ok ⟨packetOf new, sent ++ [announcementPacket rs]⟩
        else .error ⟨Packet.init, sent ++ [announcementPacket rs]⟩
      else .error ⟨packetOf rs, sent ++ [announcementPacket rs]⟩ := by
  have hlen : ∀ {rs}, fitsPacket rs → (packetOf rs).bytes.length ≤ bufSize := by
    intro rs h
    unfold fitsPacket at h
    unfold packetOf
    cases hall : encodeAll rs with
    | none => simp [hall] at h
    | some bytes => simpa [hall] using h
  unfold appendGeneratedRecordsWithFlush
  rw [hadd _ (hlen hrs), push_packetOf hrs, finalize_packetOf, ← packetOf_nil,
    hadd _ (hlen fitsPacket_nil), push_packetOf fitsPacket_nil, List.nil_append]
  by_cases hfit : fitsPacket (rs ++ new)
  · rw [if_pos hfit, if_pos hfit]
  rw [if_neg hfit, if_neg hfit]
  by_cases hempty : rs = []
  · subst hempty
    rw [List.nil_append] at hfit
    rw [if_pos rfl, if_pos rfl, if_neg hfit]
  rw [if_neg hempty, if_neg hempty]
  cases acceptsRecords accepts rs with
  | false => rfl
  | true =>
    rw [if_pos rfl]
    cases fitsPacket new <;> rfl

/-- Appending services one after the other packs their records. -/
theorem sent_eq_pack {adds : List Append} {groups : List (List Record)}
    (hadds : List.Forall₂ Pushes adds groups) {rs : List Record} (hrs : fitsPacket rs)
    (sent : List Packet) :
    (finishAnnouncement accepts
        (adds.foldlM (fun ann add => appendGeneratedRecordsWithFlush accepts add ann)
          ⟨packetOf rs, sent⟩)).2 =
      sent ++ (pack fitsPacket (acceptsRecords accepts) rs groups).map announcementPacket := by
  induction hadds generalizing rs sent with
  | nil =>
    show (finalizeAndSendAnnouncementPacketAny accepts ⟨packetOf rs, sent⟩).2.sent = _
    rw [finalize_packetOf]
    unfold pack
    split <;> simp
  | @cons add group adds groups hadd _ ih =>
    rw [List.foldlM_cons, appendWithFlush_packetOf accepts hadd hrs]
    unfold pack
    by_cases hfit : fitsPacket (rs ++ group)
    · rw [if_pos hfit, if_pos hfit]
      exact ih hfit sent
    rw [if_neg hfit, if_neg hfit]
    by_cases hempty : rs = []
    · rw [if_pos hempty, if_pos hempty]
      exact (List.append_nil sent).symm
    rw [if_neg hempty, if_neg hempty]
    by_cases haccepts : acceptsRecords accepts rs
    · rw [if_pos haccepts]
      by_cases hgroup : fitsPacket group
      · have hrest := ih hgroup (sent ++ [announcementPacket rs])
        rw [List.append_assoc] at hrest
        rw [if_pos hgroup, if_pos (by simp [haccepts, hgroup]), List.map_cons]
        exact hrest
      · rw [if_neg hgroup, if_neg (by simp [hgroup])]
        rfl
    · rw [if_neg haccepts, if_neg (by simp [haccepts])]
      rfl

/-- The packets of an announcement: nothing if the core records do not fit one, else the core records
and the flushed services packed in order. -/
theorem sendAnnouncement_sent (hcfg : Accepted cfg) (link : LinkContext) (ttl : UInt32) :
    (sendAnnouncementAnyScoped accepts cfg link ttl .lan).2 =
      if fitsPacket (coreRecords cfg link ttl) then
        (pack fitsPacket (acceptsRecords accepts) (coreRecords cfg link ttl)
          (flushedServices.map (·.announced cfg ttl))).map announcementPacket
      else [] := by
  have hbase : appendGeneratedBaseRecords cfg link true true ttl Packet.init =
      if fitsPacket (coreRecords cfg link ttl) then some (packetOf (coreRecords cfg link ttl))
      else none := by
    rw [appendGeneratedBaseRecords_pushes hcfg link ttl Packet.init (by decide), ← packetOf_nil,
      push_packetOf fitsPacket_nil, List.nil_append]
  unfold sendAnnouncementAnyScoped
  dsimp only [mdnsConfigForScope]
  rw [hbase]
  by_cases hcore : fitsPacket (coreRecords cfg link ttl)
  · rw [if_pos hcore, if_pos hcore]
    have hadds : List.Forall₂ Pushes [addPdlDatastreamRecords cfg ttl,
        addRiousbprintRecords cfg ttl, addAirportRecords cfg ttl]
        (flushedServices.map (·.announced cfg ttl)) :=
      List.Forall₂.cons (addServiceRecords_pushes hcfg .pdlDatastream ttl)
        (List.Forall₂.cons (addServiceRecords_pushes hcfg .riousbprint ttl)
          (List.Forall₂.cons (addServiceRecords_pushes hcfg .airport ttl) List.Forall₂.nil))
    have hsent := sent_eq_pack accepts hadds hcore []
    rw [List.nil_append] at hsent
    rw [← hsent]
    have hfold : ∀ ann : Announcement, [addPdlDatastreamRecords cfg ttl,
        addRiousbprintRecords cfg ttl, addAirportRecords cfg ttl].foldlM
          (fun ann add => appendGeneratedRecordsWithFlush accepts add ann) ann =
        appendGeneratedAppleRecords accepts cfg ttl ann := by
      intro ann
      simp only [List.foldlM_cons, List.foldlM_nil, bind_pure]
      rfl
    rw [hfold]
  · rw [if_neg hcore, if_neg hcore]

end Accepted

end TimeCapsule.Mdns
