import TimeCapsule.Nbns.Query

/-!
# The answers to NetBIOS queries

The rules say which answer a query requires of the node.  They are followed where the answer fits a
packet, except for the wildcard of a node status query when it is padded with zero bytes.
-/

namespace TimeCapsule.Nbns

open Lib

/-! ## The rules -/

/-- A datagram with one question in it, and what is behind the question. -/
structure Query where
  header : NbnsHeader
  question : Question
  qtype : UInt16
  qclass : UInt16
  rest : Bytes

def Query.bytes (q : Query) : Bytes :=
  q.header.encode ++ (q.question.encode ++ (be16 q.qtype.toNat ++ (be16 q.qclass.toNat ++ q.rest)))

/-- One question, opcode 0 and the class of the internet. -/
def Query.Standard (q : Query) : Prop :=
  q.header.flags &&& nbnsFlagResponse = 0 ∧ q.header.flags &&& 0x7800 = 0 ∧ q.header.qdcount = 1 ∧ q.qclass = dnsClassIn

def Query.Broadcast (q : Query) : Prop := q.header.flags &&& nbnsFlagBroadcast ≠ 0

/-- The name of the node in upper case, padded to 15 bytes. -/
def Config.paddedName (cfg : Config) : Bytes :=
  cfg.netbiosName.map toUpper ++ List.replicate (15 - cfg.netbiosName.length) space

/-- The question is for the name of the node. -/
def Question.Names (question : Question) (cfg : Config) : Prop :=
  question.name.map toUpper = cfg.paddedName

/-- The wildcard with this padding. -/
def Question.Wildcard (question : Question) (padding : UInt8) : Prop :=
  question.name = asterisk :: List.replicate 14 padding

/-- A suffix under which the node is registered. -/
def Question.Registered (question : Question) : Prop :=
  question.suffix = nbnsSuffixWorkstation ∨ question.suffix = nbnsSuffixServer

instance (q : Query) : Decidable q.Standard := inferInstanceAs (Decidable (_ ∧ _ ∧ _ ∧ _))
instance (q : Query) : Decidable q.Broadcast := inferInstanceAs (Decidable (_ ≠ _))
instance (q : Question) (cfg : Config) : Decidable (q.Names cfg) := inferInstanceAs (Decidable (_ = _))
instance (q : Question) (b : UInt8) : Decidable (q.Wildcard b) := inferInstanceAs (Decidable (_ = _))
instance (q : Question) : Decidable q.Registered := inferInstanceAs (Decidable (_ ∨ _))

inductive Answer where
  | nodeStatus
  | positive
  | negative
deriving DecidableEq, Repr

/-- The answer that the rules require. -/
def Query.ruled (q : Query) (cfg : Config) : Option Answer :=
  if ¬q.Standard then none
  else if q.qtype = nbTypeNbstat then
    if q.question.Names cfg ∨ q.question.Wildcard space ∨ q.question.Wildcard 0 then some .nodeStatus
    else none
  else if q.qtype = nbTypeNb then
    if q.question.Names cfg ∧ q.question.Registered then some .positive
    else if q.Broadcast then none
    else some .negative
  else none

/-! ## The answers -/

/-- An entry of the name table of a node status response. -/
def Config.statusName (cfg : Config) (suffix : UInt8) : Bytes :=
  cfg.paddedName ++ suffix :: be16 nbnsNameFlagsActive.toNat

def Answer.flags : Answer → UInt16
  | .nodeStatus => 0x8400
  | .positive => 0x8480
  | .negative => 0x8483

/-- The number of answers that is stated in the header. -/
def Answer.count : Answer → UInt16
  | .nodeStatus => 1
  | .positive => 1
  | .negative => 0

def Answer.type : Answer → UInt16
  | .nodeStatus => nbTypeNbstat
  | .positive => nbTypeNb
  | .negative => nbTypeNull

def Answer.ttl (cfg : Config) : Answer → UInt32
  | .nodeStatus => 0
  | .positive => cfg.ttl
  | .negative => 0

def Answer.rdata (cfg : Config) : Answer → Bytes
  | .nodeStatus =>
      2 :: (cfg.statusName nbnsSuffixWorkstation ++ cfg.statusName nbnsSuffixServer ++ zeros 46)
  | .positive => be16 0 ++ be32 cfg.ipv4Addr.toNat
  | .negative => []

def Query.response (q : Query) (cfg : Config) (a : Answer) : Bytes :=
  (NbnsHeader.encode ⟨q.header.id, a.flags, 0, a.count, 0, 0⟩) ++ q.question.encode ++ be16 a.type.toNat ++ be16 dnsClassIn.toNat ++ be32 (a.ttl cfg).toNat ++
    be16 (a.rdata cfg).length ++ a.rdata cfg

/-- The node sends the required answer and nothing else. -/
def AnswersAsRuled (cfg : Config) (buf : Bytes) : Prop :=
  ∃ sent, maybeRespondToQueryAddr cfg buf = .ok sent ∧
    (∀ q : Query, q.bytes = buf → sent = (q.ruled cfg).map (q.response cfg)) ∧
    ((∀ q : Query, q.bytes ≠ buf) → sent = none)

/-- The answer with its 22 bytes around the name and the data. -/
def Query.Fits (q : Query) (cfg : Config) (a : Answer) : Prop :=
  22 + q.question.encode.length + (a.rdata cfg).length ≤ bufSize

instance (q : Query) (cfg : Config) (a : Answer) : Decidable (q.Fits cfg a) :=
  inferInstanceAs (Decidable (_ ≤ _))

/-! ## Names -/

theorem all_range_iff {configured queried : Bytes} {n : Nat} (hc : configured.length = n)
    (hq : queried.length = n) (f : UInt8 → UInt8) :
    ((List.range n).all fun i => configured.getD i 0 == f (queried.getD i 0)) ↔
      queried.map f = configured := by
  simp only [List.all_eq_true, List.mem_range, beq_iff_eq, List.getD_eq_getElem?_getD]
  constructor
  · intro h
    refine List.ext_getElem (by rw [List.length_map, hq, hc]) fun i hi hi' => ?_
    have hsame := h i (by omega)
    rw [List.getElem?_eq_getElem hi', List.getElem?_eq_getElem (by omega)] at hsame
    rw [List.getElem_map]
    exact hsame.symm
  · rintro rfl i hi
    rw [List.getElem?_map, List.getElem?_eq_getElem (by omega)]
    rfl

/-- The bytes of the name of a node. -/
theorem Config.name_bytes (cfg : Config) :
    cfg.netbiosName.length ≤ 15 ∧ ∀ ch ∈ cfg.netbiosName, ch ≠ 0 := by
  have hvalid := cfg.valid
  simp only [validateNetbiosName, Bool.and_eq_true, decide_eq_true_eq, List.all_eq_true] at hvalid
  refine ⟨hvalid.1.2, fun ch hch hzero => ?_⟩
  have hchar := hvalid.2 ch hch
  rw [hzero] at hchar
  exact absurd hchar (by decide)

theorem length_paddedName (cfg : Config) : cfg.paddedName.length = 15 := by
  have hle := cfg.name_bytes.1
  rw [Config.paddedName, List.length_append, List.length_map, List.length_replicate]
  omega

theorem normalizeNetbiosName_eq (cfg : Config) :
    normalizeNetbiosName cfg.netbiosName = cfg.paddedName := by
  refine List.ext_getElem (by rw [length_paddedName, normalizeNetbiosName]; simp) fun i hi hi' => ?_
  have hlt : i < 15 := by rwa [length_paddedName] at hi'
  simp only [normalizeNetbiosName, List.getElem_map, List.getElem_range, Config.paddedName,
    List.getD_eq_getElem?_getD]
  by_cases hname : i < cfg.netbiosName.length
  · have hne := cfg.name_bytes.2 _ (List.getElem_mem hname)
    rw [List.getElem?_eq_getElem hname, Option.getD_some, if_pos ⟨hname, hne⟩,
      List.getElem_append_left (by rwa [List.length_map]), List.getElem_map]
  · rw [if_neg fun h => hname h.1, List.getElem_append_right (by rw [List.length_map]; omega),
      List.getElem_replicate]

theorem namesMatch_iff (cfg : Config) (question : Question) :
    namesMatch (normalizeNetbiosName cfg.netbiosName) question.name ↔ question.Names cfg := by
  rw [normalizeNetbiosName_eq]
  exact all_range_iff (length_paddedName cfg) question.length_name toUpper

theorem nameIsWildcard_iff (question : Question) :
    nameIsWildcard question.name ↔ question.Wildcard space := by
  obtain ⟨ch, rest, hname⟩ := List.exists_cons_of_length_eq_add_one question.length_name
  have hlength : rest.length = 14 := by
    have hfifteen := question.length_name
    rw [hname] at hfifteen
    exact Nat.succ.inj hfifteen
  rw [nameIsWildcard, Question.Wildcard, hname, Bool.and_eq_true, List.cons.injEq]
  refine and_congr beq_iff_eq ?_
  rw [List.eq_replicate_iff, List.all_eq_true]
  simp only [List.mem_range'_1, beq_iff_eq]
  constructor
  · intro h
    refine ⟨hlength, fun b hb => ?_⟩
    obtain ⟨i, hi, rfl⟩ := List.mem_iff_getElem.mp hb
    have hsame := h (i + 1) ⟨by omega, by omega⟩
    rwa [List.getD_cons_succ, List.getD_eq_getElem?_getD, List.getElem?_eq_getElem hi] at hsame
  · rintro ⟨-, h⟩ i hi
    obtain ⟨j, rfl⟩ : ∃ j, i = j + 1 := ⟨i - 1, by omega⟩
    rw [List.getD_cons_succ, List.getD_eq_getElem?_getD, List.getElem?_eq_getElem (by omega)]
    exact h _ (List.getElem_mem _)

/-- No name of a node has zero bytes, so the wildcard that is padded with them is not its name. -/
theorem not_names_of_wildcard {cfg : Config} {question : Question} (h : question.Wildcard 0) :
    ¬question.Names cfg := by
  intro hnames
  have hzero : 0 ∈ cfg.paddedName := by
    rw [← hnames, h]
    decide
  rcases List.mem_append.mp hzero with hname | hpad
  · obtain ⟨ch, hch, hupper⟩ := List.mem_map.mp hname
    have hne := cfg.name_bytes.2 ch hch
    unfold toUpper at hupper
    split at hupper
    · next hlower =>
      have hnat := congrArg UInt8.toNat hupper
      rw [UInt8.le_iff_toNat_le, UInt8.le_iff_toNat_le] at hlower
      rw [UInt8.toNat_sub] at hnat
      simp at hlower hnat
      omega
    · exact hne hupper
  · exact absurd (List.eq_of_mem_replicate hpad) (by decide)

/-! ## What the node sends -/

section Sent

variable {cfg : Config} {buf : Bytes} (q : Query)

theorem length_header : q.header.encode.length = sizeofNbnsHeader := rfl

theorem readHeader_query : readHeader q.bytes = .ok q.header := by
  have hid : q.bytes.drop 0 = be16 q.header.id.toNat ++ q.bytes.drop 2 := rfl
  have hflags : q.bytes.drop 2 = be16 q.header.flags.toNat ++ q.bytes.drop 4 := rfl
  have hqdcount : q.bytes.drop 4 = be16 q.header.qdcount.toNat ++ q.bytes.drop 6 := rfl
  have hancount : q.bytes.drop 6 = be16 q.header.ancount.toNat ++ q.bytes.drop 8 := rfl
  have hnscount : q.bytes.drop 8 = be16 q.header.nscount.toNat ++ q.bytes.drop 10 := rfl
  have harcount : q.bytes.drop 10 = be16 q.header.arcount.toNat ++ q.bytes.drop 12 := rfl
  rw [readHeader, wordAt_eq hid, ok_bind, wordAt_eq hflags, ok_bind, wordAt_eq hqdcount, ok_bind,
    wordAt_eq hancount, ok_bind, wordAt_eq hnscount, ok_bind, wordAt_eq harcount, ok_bind]

theorem length_bytes :
    q.bytes.length = sizeofNbnsHeader + q.question.encode.length + 4 + q.rest.length := by
  simp only [Query.bytes, List.length_append, length_header, length_be16]
  omega

theorem drop_question : q.bytes.drop sizeofNbnsHeader =
    q.question.encode ++ (be16 q.qtype.toNat ++ (be16 q.qclass.toNat ++ q.rest)) :=
  List.drop_left' (length_header q)

theorem drop_type : q.bytes.drop (sizeofNbnsHeader + q.question.encode.length) =
    be16 q.qtype.toNat ++ (be16 q.qclass.toNat ++ q.rest) := by
  rw [← List.drop_drop, drop_question, List.drop_left]

theorem drop_class : q.bytes.drop (sizeofNbnsHeader + q.question.encode.length + 2) =
    be16 q.qclass.toNat ++ q.rest := by
  rw [← List.drop_drop, drop_type, List.drop_left' (length_be16 _)]

/-- The builder puts together what it finds of the query. -/
theorem buildResourceResponse_query (flags count type : UInt16) (ttl : UInt32) (rdata : Bytes) :
    buildResourceResponse bufSize q.bytes sizeofNbnsHeader (sizeofNbnsHeader + q.question.encode.length)
        flags count type ttl rdata =
      .ok (if 22 + q.question.encode.length + rdata.length ≤ bufSize then
        some (NbnsHeader.encode ⟨q.header.id, flags, 0, count, 0, 0⟩ ++ q.question.encode ++ be16 type.toNat ++ be16 dnsClassIn.toNat ++ be32 ttl.toNat ++
          be16 rdata.length ++ rdata)
      else none) := by
  have hlen := length_bytes q
  have hpos : 0 < q.question.encode.length := Nat.succ_pos _
  unfold buildResourceResponse
  rw [if_neg (by
    simp only [Bool.or_eq_true, decide_eq_true_eq, not_or]
    omega), readHeader_query, ok_bind]
  dsimp only
  rw [if_neg (by decide), Nat.add_sub_cancel_left]
  split
  · next hshort =>
    unfold sizeofNbnsHeader at hshort
    rw [if_neg (by omega)]
  rw [bytesAt_eq (by omega), ok_bind, drop_question, List.take_left]
  unfold sizeofNbnsHeader
  split
  · next hshort =>
    rw [if_neg (by omega)]
  next hfits =>
  rw [if_pos (by omega)]

theorem buildPositiveResponse_query (cfg : Config) :
    buildPositiveResponse bufSize q.bytes sizeofNbnsHeader (sizeofNbnsHeader + q.question.encode.length)
        cfg.ttl cfg.ipv4Addr =
      .ok (if q.Fits cfg .positive then some (q.response cfg .positive) else none) :=
  buildResourceResponse_query q _ _ _ _ _

theorem buildNegativeQueryResponse_query (cfg : Config) :
    buildNegativeQueryResponse bufSize q.bytes sizeofNbnsHeader
        (sizeofNbnsHeader + q.question.encode.length) =
      .ok (if q.Fits cfg .negative then some (q.response cfg .negative) else none) :=
  buildResourceResponse_query q _ _ _ _ _

theorem buildNodeStatusResponse_query (cfg : Config) :
    buildNodeStatusResponse bufSize q.bytes sizeofNbnsHeader
        (sizeofNbnsHeader + q.question.encode.length) cfg.netbiosName =
      .ok (if q.Fits cfg .nodeStatus then some (q.response cfg .nodeStatus) else none) := by
  have hentry : ∀ suffix, appendNodeStatusName (normalizeNetbiosName cfg.netbiosName) suffix =
      cfg.statusName suffix := by
    intro suffix
    rw [appendNodeStatusName, normalizeNetbiosName_eq, List.take_of_length_le (length_paddedName cfg).le,
      List.append_assoc]
    rfl
  unfold buildNodeStatusResponse
  rw [hentry, hentry]
  exact buildResourceResponse_query q _ _ _ _ _

/-- A wildcard that the node does not know as one. -/
def Query.Unknown : Prop := q.qtype = nbTypeNbstat ∧ q.question.Wildcard 0

instance : Decidable q.Unknown := inferInstanceAs (Decidable (_ ∧ _))

/-- The query is answered as the rules say, if the answer fits and the wildcard is a known one. -/
theorem maybeRespond_query (cfg : Config) :
    maybeRespondToQueryAddr cfg q.bytes =
      .ok (if q.Unknown then none
      else (q.ruled cfg).bind fun a => if q.Fits cfg a then some (q.response cfg a) else none) := by
  have hlen := length_bytes q
  have hpos : 0 < q.question.encode.length := Nat.succ_pos _
  have hparse : parseQuestionName q.bytes sizeofNbnsHeader = .ok (some ⟨q.question.name,
      q.question.suffix, sizeofNbnsHeader + q.question.encode.length⟩) := by
    refine (finds_parseQuestionName sizeofNbnsHeader).eq_some ⟨q.question, ?_, rfl⟩
    rw [drop_question]
    exact List.prefix_append _ _
  rw [maybeRespondToQueryAddr, if_neg (by omega), readHeader_query, ok_bind]
  have hunruled : ¬q.Standard → (if q.Unknown then none
      else (q.ruled cfg).bind fun a => if q.Fits cfg a then some (q.response cfg a) else none) = none := by
    intro h
    rw [Query.ruled, if_pos h]
    simp
  split
  · next hresponse => rw [hunruled fun h => hresponse h.1]
  next hresponse =>
  split
  · next hopcode => rw [hunruled fun h => hopcode h.2.1]
  next hopcode =>
  split
  · next hcount => rw [hunruled fun h => hcount h.2.2.1]
  next hcount =>
  rw [if_neg (by omega), hparse, ok_bind]
  show respondToQuestion cfg q.bytes q.header.flags _ = _
  rw [respondToQuestion]
  dsimp only
  rw [if_neg (by omega), wordAt_eq (drop_type q), ok_bind, wordAt_eq (drop_class q), ok_bind,
    buildNodeStatusResponse_query, buildNegativeQueryResponse_query q cfg, buildPositiveResponse_query]
  split
  · next hclass => rw [hunruled fun h => hclass h.2.2.2]
  next hclass =>
  simp only [ne_eq, not_not] at hresponse hopcode hcount hclass
  have hstandard : q.Standard := ⟨hresponse, hopcode, hcount, hclass⟩
  have hmatch : namesMatch (normalizeNetbiosName cfg.netbiosName) q.question.name =
      decide (q.question.Names cfg) := by
    rw [Bool.eq_iff_iff, namesMatch_iff, decide_eq_true_iff]
  have hwild : nameIsWildcard q.question.name = decide (q.question.Wildcard space) := by
    rw [Bool.eq_iff_iff, nameIsWildcard_iff, decide_eq_true_iff]
  rw [Query.ruled, if_neg (not_not_intro hstandard), hmatch, hwild]
  by_cases hstat : q.qtype = nbTypeNbstat
  · have hunknown : q.Unknown ↔ q.question.Wildcard 0 := and_iff_right hstat
    rw [if_pos hstat, if_pos hstat]
    by_cases hnames : q.question.Names cfg
    · have hno : ¬q.question.Wildcard 0 := fun h => not_names_of_wildcard h hnames
      simp [hnames, hunknown, hno]
    by_cases hspace : q.question.Wildcard space
    · have hno : ¬q.question.Wildcard 0 := by
        intro h
        rw [Question.Wildcard, hspace] at h
        exact absurd h (by decide)
      simp [hspace, hunknown, hno]
    · by_cases hzero : q.question.Wildcard 0 <;> simp [hnames, hspace, hunknown, hzero]
  have hunknown : ¬q.Unknown := fun h => hstat h.1
  rw [if_neg hstat, if_neg hstat, if_neg hunknown]
  by_cases hnb : q.qtype = nbTypeNb
  · rw [if_neg (not_not_intro hnb), if_pos hnb]
    have hsuffix : (decide (q.question.suffix ≠ nbnsSuffixWorkstation) &&
        decide (q.question.suffix ≠ nbnsSuffixServer)) = decide ¬q.question.Registered := by
      rw [Bool.eq_iff_iff]
      simp [Question.Registered]
    have hflag : q.Broadcast ↔ ¬q.header.flags &&& nbnsFlagBroadcast = 0 := Iff.rfl
    rw [hsuffix]
    by_cases hregistered : q.question.Registered <;> by_cases hnames : q.question.Names cfg <;>
      by_cases hquiet : q.header.flags &&& nbnsFlagBroadcast = 0 <;> simp [hregistered, hnames, hflag, hquiet]
  · rw [if_pos hnb, if_neg hnb]
    rfl

end Sent

/-- A datagram in which no question is found is not answered. -/
theorem maybeRespond_of_no_query (cfg : Config) {buf : Bytes} (h : ∀ q : Query, q.bytes ≠ buf) :
    maybeRespondToQueryAddr cfg buf = .ok none := by
  rw [maybeRespondToQueryAddr]
  split
  · rfl
  next hheader =>
  unfold sizeofNbnsHeader at hheader ⊢
  obtain ⟨id, hid⟩ := exists_be16 (show 0 + 2 ≤ buf.length by omega)
  obtain ⟨flags, hflags⟩ := exists_be16 (show 2 + 2 ≤ buf.length by omega)
  obtain ⟨qdcount, hqdcount⟩ := exists_be16 (show 4 + 2 ≤ buf.length by omega)
  obtain ⟨ancount, hancount⟩ := exists_be16 (show 6 + 2 ≤ buf.length by omega)
  obtain ⟨nscount, hnscount⟩ := exists_be16 (show 8 + 2 ≤ buf.length by omega)
  obtain ⟨arcount, harcount⟩ := exists_be16 (show 10 + 2 ≤ buf.length by omega)
  rw [readHeader, wordAt_eq hid, ok_bind, wordAt_eq hflags, ok_bind, wordAt_eq hqdcount, ok_bind,
    wordAt_eq hancount, ok_bind, wordAt_eq hnscount, ok_bind, wordAt_eq harcount, ok_bind, ok_bind]
  split
  · rfl
  split
  · rfl
  split
  · rfl
  split
  · rfl
  obtain ⟨r, hparse, hfound⟩ := @finds_parseQuestionName buf 12
  rw [hparse, ok_bind]
  cases r with
  | none => rfl
  | some r =>
    obtain ⟨question, ⟨tail, htail⟩, rfl⟩ := (hfound r).mp rfl
    show respondToQuestion cfg buf flags _ = _
    rw [respondToQuestion]
    refine if_pos (not_le.mp fun hlong => ?_)
    -- with a type and a class behind the name there is a query
    replace hlong : 12 + question.encode.length + 2 + 2 ≤ buf.length := hlong
    obtain ⟨qtype, hqtype⟩ := exists_be16 (show 12 + question.encode.length + 2 ≤ buf.length by omega)
    obtain ⟨qclass, hqclass⟩ := exists_be16
      (show 12 + question.encode.length + 2 + 2 ≤ buf.length by omega)
    have hrest : tail = buf.drop (12 + question.encode.length) := by
      rw [← List.drop_drop, ← htail, List.drop_left]
    refine h ⟨⟨id, flags, qdcount, ancount, nscount, arcount⟩, question, qtype, qclass,
      buf.drop (12 + question.encode.length + 2 + 2)⟩ ?_
    rw [Query.bytes]
    show NbnsHeader.encode _ ++ (question.encode ++ (be16 qtype.toNat ++ (be16 qclass.toNat ++ _))) = _
    rw [← hqclass, ← hqtype, ← hrest, htail, NbnsHeader.encode]
    simp only [List.append_assoc]
    rw [← harcount, ← hnscount, ← hancount, ← hqdcount, ← hflags, ← hid, List.drop_zero]

/-- A query is required to be answered by a known wildcard and with an answer that fits. -/
def Query.Served (q : Query) (cfg : Config) : Prop :=
  ∀ a, q.ruled cfg = some a → ¬q.Unknown ∧ q.Fits cfg a

theorem served_of_answers {cfg : Config} {q : Query} (h : AnswersAsRuled cfg q.bytes) : q.Served cfg := by
  obtain ⟨sent, hsent, hquery, -⟩ := h
  intro a ha
  have hsame := hquery q rfl
  rw [maybeRespond_query, Except.ok.injEq] at hsent
  rw [← hsent, ha] at hsame
  simp only [Option.bind_some, Option.map_some] at hsame
  split at hsame
  · cases hsame
  next hknown =>
  split at hsame
  · next hfits => exact ⟨hknown, hfits⟩
  · cases hsame

/-- The node answers as the rules say, if and only if no wildcard that requires an answer is padded with
zero bytes, and the required answer fits a packet. -/
theorem answers_as_ruled_iff (cfg : Config) (buf : Bytes) :
    AnswersAsRuled cfg buf ↔ ∀ q : Query, q.bytes = buf → q.Served cfg := by
  constructor
  · rintro h q rfl
    exact served_of_answers h
  · intro hserved
    have hanswer : ∀ q : Query, q.bytes = buf →
        maybeRespondToQueryAddr cfg buf = .ok ((q.ruled cfg).map (q.response cfg)) := by
      rintro q rfl
      rw [maybeRespond_query]
      rcases hruled : q.ruled cfg with _ | a
      · simp
      · obtain ⟨hknown, hfits⟩ := hserved q rfl a hruled
        simp [hknown, hfits]
    by_cases hexists : ∃ q : Query, q.bytes = buf
    · obtain ⟨q, hq⟩ := hexists
      refine ⟨_, hanswer q hq, fun q' hq' => ?_, fun hno => absurd hq (hno q)⟩
      exact Except.ok.inj ((hanswer q hq).symm.trans (hanswer q' hq'))
    · have hno : ∀ q : Query, q.bytes ≠ buf := fun q hq => hexists ⟨q, hq⟩
      exact ⟨none, maybeRespond_of_no_query cfg hno, fun q hq => absurd hq (hno q), fun _ => rfl⟩

/-! ### A wildcard that is padded with zero bytes -/

def capsuleConfig : Config where
  netbiosName := ascii "TimeCapsule"
  ipv4Addr := 0xc0a801d9
  ttl := 120
  valid := rfl

/-- The node status query for the wildcard. -/
def wildcardQuery : Query where
  header := ⟨0x1337, 0, 1, 0, 0, 0⟩
  question := ⟨asterisk :: List.replicate 14 0, 0, [], rfl, by simp⟩
  qtype := nbTypeNbstat
  qclass := dnsClassIn
  rest := []

/-- It has to be answered with the node status, and is not answered. -/
theorem wildcard_not_answered :
    wildcardQuery.question.encode = 32 :: (ascii "CKAAAAAAAAAAAAAAAAAAAAAAAAAAAAAA" ++ [0]) ∧
      wildcardQuery.ruled capsuleConfig = some .nodeStatus ∧
      maybeRespondToQueryAddr capsuleConfig wildcardQuery.bytes = .ok none ∧
      ¬AnswersAsRuled capsuleConfig wildcardQuery.bytes := by
  have hruled : wildcardQuery.ruled capsuleConfig = some .nodeStatus := by decide +kernel
  have hunknown : wildcardQuery.Unknown := by decide +kernel
  refine ⟨by decide +kernel, hruled, ?_, fun h => ?_⟩
  · rw [maybeRespond_query, if_pos hunknown]
  · exact ((served_of_answers h) .nodeStatus hruled).1 hunknown

/-! ## The packets that are sent -/

/-- The packet is a response to a query whose name has this many bytes. -/
structure RespondsTo (a : Answer) (buf : Bytes) (nameLen : Nat) (packet : Bytes) : Prop where
  length_le : packet.length ≤ bufSize
  id : packet.take 2 = buf.take 2
  flags : wordAt packet 2 = .ok a.flags
  questions : wordAt packet 4 = .ok 0
  answers : wordAt packet 6 = .ok a.count
  name : slice packet 12 (12 + nameLen) = slice buf 12 (12 + nameLen)
  rdlength : ∃ w, wordAt packet (12 + nameLen + 8) = .ok w ∧ packet.length = 12 + nameLen + 10 + w.toNat

theorem respondsTo_response {cfg : Config} {q : Query} {a : Answer} (hfits : q.Fits cfg a) :
    RespondsTo a q.bytes q.question.encode.length (q.response cfg a) := by
  have hresponse : q.response cfg a = (NbnsHeader.encode ⟨q.header.id, a.flags, 0, a.count, 0, 0⟩) ++
      (q.question.encode ++ ((be16 a.type.toNat ++
      be16 dnsClassIn.toNat ++ be32 (a.ttl cfg).toNat) ++ (be16 (a.rdata cfg).length ++ a.rdata cfg))) := by
    simp only [Query.response, List.append_assoc]
  unfold Query.Fits at hfits
  have hlength : (q.response cfg a).length = 12 + q.question.encode.length + 10 + (a.rdata cfg).length := by
    rw [hresponse]
    simp only [List.length_append, NbnsHeader.encode, length_be16, length_be32]
    omega
  have hname : (q.response cfg a).drop 12 = q.question.encode ++ ((be16 a.type.toNat ++
      be16 dnsClassIn.toNat ++ be32 (a.ttl cfg).toNat) ++ (be16 (a.rdata cfg).length ++ a.rdata cfg)) := by
    rw [hresponse]
    rfl
  have hsmall : (a.rdata cfg).length < 2 ^ 16 := by
    unfold bufSize at hfits
    omega
  refine ⟨by omega, rfl, ?_, ?_, ?_, ?_, UInt16.ofNat (a.rdata cfg).length, ?_, ?_⟩
  · exact @wordAt_eq _ ((q.response cfg a).drop 4) _ _ rfl
  · exact @wordAt_eq _ ((q.response cfg a).drop 6) _ _ rfl
  · exact @wordAt_eq _ ((q.response cfg a).drop 8) _ _ rfl
  · rw [slice_add, slice_add, hname, List.take_left]
    have hquestion := drop_question q
    rw [sizeofNbnsHeader] at hquestion
    rw [hquestion, List.take_left]
  · refine @wordAt_eq _ (a.rdata cfg) _ _ ?_
    rw [← List.drop_drop, ← List.drop_drop, hname, List.drop_left, UInt16.toNat_ofNat',
      Nat.mod_eq_of_lt hsmall]
    rfl
  · rw [UInt16.toNat_ofNat', Nat.mod_eq_of_lt hsmall, hlength]

/-- Nothing is read outside of the datagram, and what is sent is a well-formed response to the query
that is in it. -/
theorem reads_inside_and_responds (cfg : Config) (buf : Bytes) :
    ∃ sent, maybeRespondToQueryAddr cfg buf = .ok sent ∧ ∀ packet, sent = some packet →
      ∃ q : Query, q.bytes = buf ∧ ∃ a, q.ruled cfg = some a ∧
        RespondsTo a buf q.question.encode.length packet := by
  by_cases hexists : ∃ q : Query, q.bytes = buf
  · obtain ⟨q, rfl⟩ := hexists
    refine ⟨_, maybeRespond_query q cfg, fun packet hpacket => ⟨q, rfl, ?_⟩⟩
    split at hpacket
    · cases hpacket
    obtain ⟨a, hruled, hsent⟩ := Option.bind_eq_some_iff.mp hpacket
    split at hsent
    · next hfits =>
      obtain rfl := Option.some.inj hsent
      exact ⟨a, hruled, respondsTo_response hfits⟩
    · cases hsent
  · exact ⟨none, maybeRespond_of_no_query cfg fun q hq => hexists ⟨q, hq⟩,
      fun packet hpacket => (Option.some_ne_none packet hpacket.symm).elim⟩

end TimeCapsule.Nbns
