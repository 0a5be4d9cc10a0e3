import TimeCapsule.Acp.Property

/-!
# The two ways in which elements arrive

The same elements come in one body or after a header without a size.  The body is parsed to its end
before the search begins, and the stream only as far as the search goes: the outcomes differ exactly
when an element that answers stands before one with an error, or before a broken end.
-/

namespace TimeCapsule.Acp

open Lib

/-- A step that fails lets the whole fail. -/
theorem toOption_bind_none {α β : Type} {x : Except AcpError α} {f : α → Except AcpError β}
    (h : x.toOption = none) : (x >>= f).toOption = none := by
  cases x with
  | error error => rfl
  | ok a => exact nomatch h

/-! ## Reading from the socket -/

theorem recv_of_pending {s : Socket} {size : Nat} (hsize : 0 < size) (hs : s.pending ≠ []) :
    ∃ chunk rest extra, chunk ≠ [] ∧ chunk.length ≤ size ∧ s.pending = chunk ++ rest ∧
      s.recv size = .ok (chunk, { s with pending := rest, extra := extra }) := by
  obtain ⟨count, hpos, hle, hcount⟩ :
      ∃ count, 0 < count ∧ count ≤ size ∧ min size (s.extra.head?.elim size (· + 1)) = count := by
    refine ⟨_, ?_, Nat.min_le_left _ _, rfl⟩
    cases s.extra.head? <;> simp [hsize]
  refine ⟨s.pending.take count, s.pending.drop count, s.extra.tail, ?_, ?_,
    (List.take_append_drop count _).symm, ?_⟩
  · simp [hs]
    omega
  · simp only [List.length_take]
    omega
  · simp [Socket.recv, hs, hcount]

theorem recvLoop_of_le (size : Nat) : ∀ (fuel remaining : Nat) (chunks : Bytes) (s : Socket),
    remaining ≤ fuel → remaining ≤ s.pending.length →
    ∃ extra, recvLoop size fuel remaining chunks s = .ok (chunks ++ s.pending.take remaining,
      { s with pending := s.pending.drop remaining, extra := extra }) := by
  intro fuel
  induction fuel with
  | zero =>
    intro remaining chunks s hfuel _
    obtain rfl : remaining = 0 := by omega
    exact ⟨s.extra, by simp [recvLoop]⟩
  | succ fuel ih =>
    intro remaining chunks s hfuel hlen
    cases remaining with
    | zero => exact ⟨s.extra, by simp [recvLoop]⟩
    | succ remaining =>
      have hs : s.pending ≠ [] := by
        rintro h
        simp [h] at hlen
      obtain ⟨chunk, rest, extra, hchunk, hle, hpending, hrecv⟩ :=
        recv_of_pending (Nat.succ_pos remaining) hs
      have hpos := List.length_pos_iff.mpr hchunk
      rw [hpending, List.length_append] at hlen
      obtain ⟨extra', hrest⟩ := ih (remaining + 1 - chunk.length) (chunks ++ chunk)
        { s with pending := rest, extra := extra } (by omega) (by simp only; omega)
      refine ⟨extra', ?_⟩
      rw [recvLoop, hrecv]
      simp only [bind, Except.bind, if_neg hchunk, hrest, hpending, List.take_append,
        List.drop_append, List.take_of_length_le hle, List.drop_of_length_le hle, List.append_assoc,
        List.nil_append]

theorem recvLoop_of_lt (size : Nat) : ∀ (fuel remaining : Nat) (chunks : Bytes) (s : Socket),
    s.pending.length < remaining → (recvLoop size fuel remaining chunks s).toOption = none := by
  intro fuel
  induction fuel with
  | zero =>
    intro remaining chunks s hlen
    cases remaining with
    | zero => omega
    | succ remaining => rfl
  | succ fuel ih =>
    intro remaining chunks s hlen
    cases remaining with
    | zero => omega
    | succ remaining =>
      rw [recvLoop]
      by_cases hs : s.pending = []
      · cases hf : s.failure <;> simp [Socket.recv, hs, hf, bind, Except.bind, Except.toOption]
      · obtain ⟨chunk, rest, extra, hchunk, hle, hpending, hrecv⟩ :=
          recv_of_pending (Nat.succ_pos remaining) hs
        rw [hrecv]
        simp only [bind, Except.bind, if_neg hchunk]
        rw [hpending, List.length_append] at hlen
        exact ih _ _ _ (by simp only; omega)

theorem recvExact_append {s : Socket} {front rest : Bytes} {n : Nat} (hs : s.pending = front ++ rest)
    (hn : front.length = n) : ∃ extra,
    recvExact s n = .ok (front, { s with pending := rest, extra := extra }) := by
  obtain ⟨extra, h⟩ := recvLoop_of_le n n n [] s le_rfl (by rw [hs, List.length_append]; omega)
  refine ⟨extra, h.trans ?_⟩
  rw [hs, List.take_left' hn, List.drop_left' hn, List.nil_append]

theorem recvExact_of_lt {s : Socket} {n : Nat} (h : s.pending.length < n) :
    (recvExact s n).toOption = none :=
  recvLoop_of_lt n n n [] s h

/-! ## Elements -/

/-- An element as a device sends it: the fields of `PROPERTY_HEADER` and the value. -/
structure Element where
  name : Bytes
  flags : Nat
  data : Bytes
  length_name : name.length = 4
  flags_lt : flags < 2 ^ 32
  length_data : data.length < 2 ^ 32
deriving DecidableEq

namespace Element

def header (e : Element) : PropertyHeader :=
  { name := if e.name = zeros 4 then none else some (decodeAscii e.name)
    flags := e.flags
    size := e.data.length }

def headerBytes (e : Element) : Bytes := e.name ++ be32 e.flags ++ be32 e.data.length

def encode (e : Element) : Bytes := e.headerBytes ++ e.data

/-- The flag for an error is set. -/
def Failed (e : Element) : Prop := e.flags % 2 = 1

/-- The end of the properties. -/
def EndMark (e : Element) : Prop := e.name = zeros 4 ∧ e.data = zeros 4

/-- The property is the one with the name. -/
def Named (e : Element) (nameBytes : Bytes) : Prop := e.name = nameBytes ∧ nameBytes ≠ zeros 4

instance (e : Element) : Decidable e.Failed := inferInstanceAs (Decidable (_ = _))
instance (e : Element) : Decidable e.EndMark := inferInstanceAs (Decidable (_ ∧ _))
instance (e : Element) (nameBytes : Bytes) : Decidable (e.Named nameBytes) :=
  inferInstanceAs (Decidable (_ ∧ _))

theorem length_headerBytes (e : Element) : e.headerBytes.length = 12 := by
  simp [headerBytes, e.length_name]

theorem length_encode (e : Element) : e.encode.length = 12 + e.data.length := by
  simp [encode, length_headerBytes]

theorem parsePropertyHeader_headerBytes (e : Element) :
    parsePropertyHeader e.headerBytes = e.header := by
  have hflags : slice e.headerBytes 4 8 = be32 e.flags := by
    rw [headerBytes, slice, List.append_assoc, List.drop_left' e.length_name]
    exact List.take_left' (length_be32 _)
  have hsize : slice e.headerBytes 8 12 = be32 e.data.length := by
    rw [headerBytes, slice, List.drop_left' (by simp [e.length_name])]
    exact List.take_of_length_le (by simp)
  have hname : e.headerBytes.take 4 = e.name := by
    rw [headerBytes, List.append_assoc, List.take_left' e.length_name]
  simp only [parsePropertyHeader, be32At, hname, hflags, hsize, ofBe_be32 e.flags_lt,
    ofBe_be32 e.length_data, header]

end Element

/-- The bytes of the elements, one behind the other. -/
def encodeElements (es : List Element) : Bytes := es.flatMap Element.encode

theorem length_le_encodeElements (es : List Element) : es.length ≤ (encodeElements es).length := by
  induction es with
  | nil => exact Nat.zero_le _
  | cons e es ih =>
    rw [encodeElements, List.flatMap_cons, List.length_append, e.length_encode, List.length_cons]
    rw [encodeElements] at ih
    omega

/-- The bytes are those of no element, with others behind it. -/
def Broken (bytes : Bytes) : Prop := bytes.length < 12 ∨ bytes.length < 12 + be32At bytes 8

/-- No element has failed, and behind them is nothing. -/
def sound (es : List Element) (tail : Bytes) : Bool :=
  es.all (fun e => !decide e.Failed) && tail.isEmpty

theorem sound_iff {es : List Element} {tail : Bytes} :
    sound es tail = true ↔ (∀ e ∈ es, ¬ e.Failed) ∧ tail = [] := by
  simp [sound]

theorem sound_cons (e : Element) (es : List Element) (tail : Bytes) :
    sound (e :: es) tail = (!decide e.Failed && sound es tail) := by
  simp [sound, Bool.and_assoc]

/-! ## One element -/

section Reading

variable {e : Element} {es : List Element} {rest tail body : Bytes} {s : Socket} {offset : Nat}

theorem size_parsePropertyHeader_take (bytes : Bytes) :
    (parsePropertyHeader (bytes.take propertyHeaderSize)).size = be32At bytes 8 := by
  simp only [parsePropertyHeader, be32At, slice, ← List.drop_take, List.take_take]
  rfl

theorem readPropertyResult_encode (hs : s.pending = e.encode ++ rest) : ∃ extra,
    readPropertyResult s = (propertyResult e.header e.data).map
      (·, { s with pending := rest, extra := extra }) := by
  rw [Element.encode, List.append_assoc] at hs
  obtain ⟨extra, hheader⟩ := recvExact_append hs e.length_headerBytes
  obtain ⟨extra', hdata⟩ := recvExact_append
    (s := { s with pending := e.data ++ rest, extra := extra }) rfl (n := e.header.size) rfl
  refine ⟨extra', ?_⟩
  simp only [readPropertyResult, propertyHeaderSize, hheader, bind, Except.bind,
    e.parsePropertyHeader_headerBytes, hdata]

theorem readPropertyResult_broken (hs : Broken s.pending) :
    (readPropertyResult s).toOption = none := by
  rw [readPropertyResult]
  by_cases hlen : s.pending.length < 12
  · exact toOption_bind_none (recvExact_of_lt hlen)
  · have hbroken := hs.resolve_left hlen
    obtain ⟨extra, h⟩ := recvExact_append (List.take_append_drop propertyHeaderSize s.pending).symm
      (List.length_take_of_le (by rw [propertyHeaderSize]; omega))
    simp only [h, bind, Except.bind, size_parsePropertyHeader_take s.pending]
    rw [propertyHeaderSize]
    exact toOption_bind_none (recvExact_of_lt (by simp only [List.length_drop]; omega))

theorem parsePropertyResultFromBody_encode (hbody : body.drop offset = e.encode ++ rest) :
    parsePropertyResultFromBody body offset = (propertyResult e.header e.data).map
      (·, offset + e.encode.length) := by
  have hlen : body.length - offset = 12 + e.data.length + rest.length := by
    simpa [e.length_encode] using congrArg List.length hbody
  have hheader : slice body offset (offset + 12) = e.headerBytes := by
    rw [slice_add, hbody, Element.encode, List.append_assoc, List.take_left' e.length_headerBytes]
  have hdata : slice body (offset + 12) (offset + 12 + e.data.length) = e.data := by
    rw [slice_add, ← List.drop_drop, hbody, Element.encode, List.append_assoc,
      List.drop_left' e.length_headerBytes, List.take_left' rfl]
  have hsize : e.header.size = e.data.length := rfl
  simp only [parsePropertyResultFromBody, propertyHeaderSize, hheader,
    e.parsePropertyHeader_headerBytes, hsize, hdata]
  rw [if_neg (by omega), if_neg (by omega), e.length_encode, Nat.add_assoc]

theorem parsePropertyResultFromBody_broken (hbroken : Broken (body.drop offset)) :
    (parsePropertyResultFromBody body offset).toOption = none := by
  rw [Broken, List.length_drop] at hbroken
  rw [parsePropertyResultFromBody]
  by_cases hlen : body.length < offset + propertyHeaderSize
  · rw [if_pos hlen]
    rfl
  · rw [if_neg hlen, slice_add]
    simp only [size_parsePropertyHeader_take]
    rw [propertyHeaderSize] at *
    rw [if_pos (by omega)]
    rfl

end Reading

/-! ## All elements -/

section Elements

variable {es : List Element} {tail body : Bytes} {s : Socket} {offset fuel : Nat} {name : String}
  {nameBytes : Bytes}

/-- The value of the first element that ends the search if that is an answer, and the elements behind
it. -/
def answerOf (nameBytes : Bytes) : List Element → Option (Nat × List Element)
  | [] => none
  | e :: es =>
      if e.Failed ∨ e.EndMark then none
      else if e.Named nameBytes then
        if e.data.length = 4 then some (ofBe e.data, es) else none
      else answerOf nameBytes es

theorem ofNat_toNat_of_lt {c : Char} (hc : c.toNat < 128) :
    (UInt8.ofNat c.toNat).toNat = c.toNat := by
  rw [UInt8.toNat_ofNat']
  omega

theorem decodeAscii_map {cs : List Char} (hcs : ∀ c ∈ cs, c.toNat < 128) :
    decodeAscii (cs.map fun c => UInt8.ofNat c.toNat) = String.ofList cs := by
  rw [decodeAscii, List.map_map]
  congr 1
  refine (List.map_congr_left fun c hc => ?_).trans (List.map_id cs)
  simp only [Function.comp, ofNat_toNat_of_lt (hcs c hc), if_pos (hcs c hc), Char.ofNat_toNat, id]

theorem encodeAscii_eq_some (hname : encodeAscii name = some nameBytes) :
    (∀ c ∈ name.toList, c.toNat < 128) ∧
      nameBytes = name.toList.map fun c => UInt8.ofNat c.toNat := by
  rw [encodeAscii] at hname
  split at hname
  · rename_i h
    exact ⟨fun c hc => by simpa using List.all_eq_true.mp h c hc, (Option.some.inj hname).symm⟩
  · exact nomatch hname

/-- A byte that is no ASCII becomes a character that is in no name. -/
theorem decodeAscii_eq_iff {raw : Bytes} (hname : encodeAscii name = some nameBytes) :
    decodeAscii raw = name ↔ raw = nameBytes := by
  obtain ⟨hascii, rfl⟩ := encodeAscii_eq_some hname
  constructor
  · rintro rfl
    rw [decodeAscii, String.toList_ofList] at hascii ⊢
    rw [List.map_map]
    refine ((List.map_congr_left fun b hb => ?_).trans (List.map_id raw)).symm
    have hchar := hascii _ (List.mem_map_of_mem hb)
    by_cases hb : b.toNat < 128
    · have hvalid : b.toNat.isValidChar := Or.inl (by omega)
      have hchar : (Char.ofNat b.toNat).toNat = b.toNat := by
        rw [Char.ofNat, dif_pos hvalid]
        rfl
      simp only [Function.comp, if_pos hb, hchar, id]
      exact UInt8.ofNat_toNat
    · rw [if_neg hb] at hchar
      exact absurd hchar (by decide)
  · rintro rfl
    rw [decodeAscii_map hascii, String.ofList_toList]

theorem searchResult_element (hname : encodeAscii name = some nameBytes) (e : Element) :
    searchResult name (e.header, e.data) =
      if e.EndMark then some (notReturned name)
      else if e.Named nameBytes then
        if e.data.length ≠ 4 then
          some (.error (.protocol ("ACP property " ++ name ++ " returned " ++
            toString e.data.length ++ " bytes, expected 4")))
        else some (.ok (ofBe e.data))
      else none := by
  have hend : (e.header.name = none ∧ e.data = zeros 4) ↔ e.EndMark := by
    simp [Element.header, Element.EndMark]
  have hnamed : e.header.name = some name ↔ e.Named nameBytes := by
    rw [Element.header, Element.Named]
    split
    · rename_i h
      simp only [reduceCtorEq, false_iff, not_and, not_not]
      exact fun hraw => hraw ▸ h
    · rename_i h
      rw [Option.some.injEq, decodeAscii_eq_iff hname]
      exact ⟨fun hraw => ⟨hraw, hraw ▸ h⟩, And.left⟩
  simp only [searchResult, hend, hnamed]

/-- One element settles the search or leaves it to the elements behind. -/
theorem toOption_searchResult (hname : encodeAscii name = some nameBytes) {e : Element}
    (hfailed : ¬ e.Failed) {x : Except AcpError Nat}
    (hx : x.toOption = (answerOf nameBytes es).map Prod.fst) :
    ((searchResult name (e.header, e.data)).getD x).toOption =
      (answerOf nameBytes (e :: es)).map Prod.fst := by
  rw [searchResult_element hname, answerOf]
  by_cases hend : e.EndMark
  · simp [hend, notReturned, Except.toOption]
  · by_cases hnamed : e.Named nameBytes
    · by_cases hdata : e.data.length = 4 <;> simp [hfailed, hend, hnamed, hdata, Except.toOption]
    · simpa [hfailed, hend, hnamed] using hx

theorem propertyResult_of_failed {e : Element} (h : e.Failed) (data : Bytes) :
    (propertyResult e.header data).toOption = none := by
  rw [propertyResult, if_pos (show e.header.flags % 2 = 1 from h)]
  split <;> rfl

theorem propertyResult_of_not_failed {e : Element} (h : ¬ e.Failed) (data : Bytes) :
    propertyResult e.header data = .ok (e.header, data) :=
  if_neg h

theorem searchStream_elements (hname : encodeAscii name = some nameBytes) (htail : Broken tail) :
    ∀ {s : Socket} {fuel : Nat}, s.pending = encodeElements es ++ tail → es.length < fuel →
      (searchStream name fuel s).toOption = (answerOf nameBytes es).map Prod.fst := by
  induction es with
  | nil =>
    intro s fuel hs hfuel
    cases fuel with
    | zero => omega
    | succ fuel => exact toOption_bind_none (readPropertyResult_broken (hs ▸ htail))
  | cons e es ih =>
    intro s fuel hs hfuel
    cases fuel with
    | zero => omega
    | succ fuel =>
      rw [encodeElements, List.flatMap_cons, List.append_assoc] at hs
      obtain ⟨extra, hread⟩ := readPropertyResult_encode hs
      rw [searchStream]
      by_cases hfailed : e.Failed
      · rw [answerOf, if_pos (Or.inl hfailed)]
        refine toOption_bind_none ?_
        rw [hread]
        have h := propertyResult_of_failed hfailed e.data
        cases hresult : propertyResult e.header e.data with
        | error error => rfl
        | ok result => rw [hresult] at h; exact nomatch h
      · rw [hread, propertyResult_of_not_failed hfailed]
        exact toOption_searchResult hname hfailed
          (ih (s := ⟨encodeElements es ++ tail, s.failure, extra⟩) rfl (Nat.lt_of_succ_lt_succ hfuel))

/-- The elements of a body are all read, and none of them may have failed. -/
theorem propertyResultsFrom_elements (htail : Broken tail) :
    ∀ {fuel offset : Nat}, body.drop offset = encodeElements es ++ tail → offset ≤ body.length →
      body.length ≤ offset + fuel → (propertyResultsFrom body fuel offset).toOption =
        if sound es tail then some (es.map fun e => (e.header, e.data)) else none := by
  induction es with
  | nil =>
    intro fuel offset hbody hoffset hfuel
    rw [encodeElements, List.flatMap_nil, List.nil_append] at hbody
    have hlen := congrArg List.length hbody
    rw [List.length_drop] at hlen
    by_cases h : tail = []
    · rw [h, List.length_nil] at hlen
      cases fuel with
      | zero => simp [propertyResultsFrom, sound, h, Except.toOption]
      | succ fuel =>
        simp [propertyResultsFrom, sound, h, Except.toOption, show ¬ offset < body.length by omega]
    · have hpos := List.length_pos_iff.mpr h
      cases fuel with
      | zero => omega
      | succ fuel =>
        rw [propertyResultsFrom, if_pos (by omega), if_neg (by simp [sound, h])]
        exact toOption_bind_none (parsePropertyResultFromBody_broken (hbody ▸ htail))
  | cons e es ih =>
    intro fuel offset hbody hoffset hfuel
    rw [encodeElements, List.flatMap_cons, List.append_assoc] at hbody
    have hlen := congrArg List.length hbody
    rw [List.length_drop, List.length_append, e.length_encode] at hlen
    cases fuel with
    | zero => omega
    | succ fuel =>
      rw [propertyResultsFrom, if_pos (by omega), parsePropertyResultFromBody_encode hbody]
      by_cases hfailed : e.Failed
      · rw [if_neg (by simp [sound_cons, hfailed])]
        refine toOption_bind_none ?_
        have h := propertyResult_of_failed hfailed e.data
        cases hresult : propertyResult e.header e.data with
        | error error => rfl
        | ok result => rw [hresult] at h; exact nomatch h
      · have hrest := @ih fuel (offset + e.encode.length)
          (by rw [← List.drop_drop, hbody, List.drop_left' rfl]; rfl)
          (by rw [e.length_encode]; omega) (by rw [e.length_encode]; omega)
        rw [propertyResult_of_not_failed hfailed]
        simp only [Except.map, bind, Except.bind]
        revert hrest
        generalize propertyResultsFrom body fuel (offset + e.encode.length) = r
        rw [show sound (e :: es) tail = sound es tail by simp [sound_cons, hfailed]]
        by_cases hes : sound es tail = true
        · rw [if_pos hes, if_pos hes]
          cases r with
          | error error => exact fun h => nomatch h
          | ok results =>
            intro h
            rw [Option.some.inj h]
            rfl
        · rw [if_neg hes, if_neg hes]
          cases r with
          | error error => exact fun _ => rfl
          | ok results => exact fun h => nomatch h

theorem searchResults_elements (hname : encodeAscii name = some nameBytes)
    (hes : ∀ e ∈ es, ¬ e.Failed) :
    (searchResults name (es.map fun e => (e.header, e.data))).toOption =
      (answerOf nameBytes es).map Prod.fst := by
  induction es with
  | nil => rfl
  | cons e es ih =>
    exact toOption_searchResult hname (hes e List.mem_cons_self)
      (ih fun e he => hes e (List.mem_cons_of_mem _ he))

/-- What stands before an answer has not failed. -/
theorem answerOf_eq_some {value : Nat} {after : List Element}
    (h : answerOf nameBytes es = some (value, after)) :
    nameBytes.length = 4 ∧ ∃ before, es = before ++ after ∧ ∀ e ∈ before, ¬ e.Failed := by
  induction es with
  | nil => exact nomatch h
  | cons e es ih =>
    rw [answerOf] at h
    by_cases hend : e.Failed ∨ e.EndMark
    · rw [if_pos hend] at h
      exact nomatch h
    · rw [if_neg hend] at h
      have hfailed : ¬ e.Failed := fun hf => hend (Or.inl hf)
      by_cases hnamed : e.Named nameBytes
      · rw [if_pos hnamed] at h
        by_cases hdata : e.data.length = 4
        · rw [if_pos hdata, Option.some.injEq, Prod.mk.injEq] at h
          obtain ⟨-, rfl⟩ := h
          exact ⟨hnamed.1 ▸ e.length_name, [e], rfl, by simpa using hfailed⟩
        · rw [if_neg hdata] at h
          exact nomatch h
      · rw [if_neg hnamed] at h
        obtain ⟨hlen, before, rfl, hbefore⟩ := ih h
        exact ⟨hlen, e :: before, rfl, List.forall_mem_cons.mpr ⟨hfailed, hbefore⟩⟩

end Elements

/-! ## The reply -/

/-- The bytes are a header for the property asked for, which the client takes. -/
def Accepted (bytes : Bytes) (header : AcpMessageHeader) : Prop :=
  parseHeader bytes = .ok header ∧ header.command = commandGetprop ∧ header.errorCode = 0

section Reply

variable {u : UnicodeData} {name : String} {nameBytes bytes rest : Bytes} {header : AcpMessageHeader}
  {s : Socket} {es : List Element} {tail : Bytes}

theorem length_of_parseHeader (h : parseHeader bytes = .ok header) : bytes.length = headerSize := by
  by_contra hlen
  simp only [parseHeader, if_pos hlen] at h
  exact nomatch h

theorem readReplyHeader_accepted (h : Accepted bytes header) (hs : s.pending = bytes ++ rest) :
    ∃ extra, readReplyHeader s commandGetprop =
      .ok (header, { s with pending := rest, extra := extra }) := by
  obtain ⟨hparse, hcommand, herror⟩ := h
  obtain ⟨extra, hread⟩ := recvExact_append hs (length_of_parseHeader hparse)
  exact ⟨extra, by simp [readReplyHeader, hread, hparse, hcommand, herror, bind, Except.bind]⟩

/-- The outcome of a name that is refused before the reply is read. -/
theorem getPropertyInt_refused (h : ∀ request, composePropertyElement u name ≠ .ok request) :
    (getPropertyInt u name s).toOption = none := by
  rw [getPropertyInt]
  cases hrequest : composePropertyElement u name with
  | error error => rfl
  | ok request => exact absurd hrequest (h request)

theorem composePropertyElement_eq_ok {request : Bytes}
    (h : composePropertyElement u name = .ok request) :
    ∃ nameBytes, encodeAscii name = some nameBytes := by
  rw [composePropertyElement] at h
  cases hname : encodeAscii name with
  | none => rw [hname] at h; exact nomatch h
  | some nameBytes => exact ⟨nameBytes, rfl⟩

/-- The answer among the streamed elements is the outcome. -/
theorem getPropertyInt_streamed {request : Bytes} (hrequest : composePropertyElement u name = .ok request)
    (hname : encodeAscii name = some nameBytes) (h : Accepted bytes header)
    (hsize : header.bodySize = -1 ∨ header.bodySize = 0)
    (hs : s.pending = bytes ++ (encodeElements es ++ tail)) (htail : Broken tail) :
    (getPropertyInt u name s).toOption = (answerOf nameBytes es).map Prod.fst := by
  obtain ⟨extra, hread⟩ := readReplyHeader_accepted h hs
  simp only [getPropertyInt, hrequest, hread, readPropertyResults, if_pos hsize, bind, Except.bind]
  refine searchStream_elements hname htail rfl ?_
  have hcount := length_le_encodeElements es
  rw [List.length_append]
  omega

theorem readReplyBody_of_size {body : Bytes} (hsize : header.bodySize = (body.length : Int))
    (hpos : body ≠ []) (hchecksum : header.bodyChecksum = adler32I32 body) (hs : s.pending = body) :
    ∃ s', readReplyBody s header = .ok (body, s') := by
  have hlen := List.length_pos_iff.mpr hpos
  obtain ⟨extra, hread⟩ := recvExact_append (n := header.bodySize.toNat)
    (hs.trans (List.append_nil body).symm) (by omega)
  refine ⟨{ s with pending := [], extra := extra }, ?_⟩
  rw [readReplyBody, if_neg (by omega), if_neg (by omega), hread]
  simp [bind, Except.bind, hchecksum]

/-- In a body, the answer is the outcome if no element has failed and the last one is whole. -/
theorem getPropertyInt_sized {request : Bytes} (hrequest : composePropertyElement u name = .ok request)
    (hname : encodeAscii name = some nameBytes) (h : Accepted bytes header)
    (hsize : header.bodySize = ((encodeElements es ++ tail).length : Int))
    (hchecksum : header.bodyChecksum = adler32I32 (encodeElements es ++ tail))
    (hs : s.pending = bytes ++ (encodeElements es ++ tail)) (htail : Broken tail) :
    (getPropertyInt u name s).toOption =
      if sound es tail then (answerOf nameBytes es).map Prod.fst else none := by
  by_cases hpos : encodeElements es ++ tail = []
  · rw [hpos] at hsize
    obtain ⟨hes, rfl⟩ := List.append_eq_nil_iff.mp hpos
    have hcount := length_le_encodeElements es
    rw [hes] at hcount
    obtain rfl := List.length_eq_zero_iff.mp (Nat.le_zero.mp hcount)
    rw [getPropertyInt_streamed hrequest hname h (Or.inr hsize) hs htail]
    rfl
  · have hlen := List.length_pos_iff.mpr hpos
    obtain ⟨extra, hread⟩ := readReplyHeader_accepted h hs
    obtain ⟨s', hbody⟩ := readReplyBody_of_size hsize hpos hchecksum
      (s := { s with pending := encodeElements es ++ tail, extra := extra }) rfl
    have hresults := @propertyResultsFrom_elements es tail (encodeElements es ++ tail) htail
      (encodeElements es ++ tail).length 0 rfl (Nat.zero_le _) (by omega)
    simp only [getPropertyInt, hrequest, hread, readPropertyResults, bind, Except.bind, hbody,
      iterPropertyResultsFromBody]
    rw [if_neg (by omega)]
    by_cases hes : sound es tail = true
    · rw [if_pos hes] at hresults ⊢
      rw [← searchResults_elements hname (sound_iff.mp hes).1]
      cases hparsed : propertyResultsFrom (encodeElements es ++ tail) (encodeElements es ++ tail).length 0 with
      | error error => rw [hparsed] at hresults; exact nomatch hresults
      | ok results =>
        rw [hparsed] at hresults
        rw [← Option.some.inj hresults]
    · rw [if_neg hes] at hresults ⊢
      cases hparsed : propertyResultsFrom (encodeElements es ++ tail) (encodeElements es ++ tail).length 0 with
      | error error => rfl
      | ok results => rw [hparsed] at hresults; exact nomatch hresults

/-- Both ways have the same outcome unless an answer stands before an element that has failed or
before bytes that are no element. -/
theorem getPropertyInt_arrival_iff (u : UnicodeData) (name : String) (es : List Element)
    (htail : Broken tail) {sizedBytes streamedBytes : Bytes} (sized streamed : AcpMessageHeader)
    (hsized : Accepted sizedBytes sized)
    (hlength : sized.bodySize = ((encodeElements es ++ tail).length : Int))
    (hchecksum : sized.bodyChecksum = adler32I32 (encodeElements es ++ tail))
    (hstreamed : Accepted streamedBytes streamed)
    (hsize : streamed.bodySize = -1 ∨ streamed.bodySize = 0)
    (failure failure' : Option String) (extra extra' : List Nat) :
    (getPropertyInt u name ⟨sizedBytes ++ (encodeElements es ++ tail), failure, extra⟩).toOption =
        (getPropertyInt u name
          ⟨streamedBytes ++ (encodeElements es ++ tail), failure', extra'⟩).toOption ↔
      ∀ nameBytes value after, encodeAscii name = some nameBytes →
        answerOf nameBytes es = some (value, after) → (∀ e ∈ after, ¬ e.Failed) ∧ tail = [] := by
  cases hrequest : composePropertyElement u name with
  | error error =>
    rw [getPropertyInt_refused (by simp [hrequest]), getPropertyInt_refused (by simp [hrequest])]
    refine iff_of_true rfl fun nameBytes value after hname hanswer => ?_
    have hlen := (answerOf_eq_some hanswer).1
    simp [composePropertyElement, hname, hlen] at hrequest
  | ok request =>
    obtain ⟨nameBytes, hname⟩ := composePropertyElement_eq_ok hrequest
    rw [getPropertyInt_sized hrequest hname hsized hlength hchecksum rfl htail,
      getPropertyInt_streamed hrequest hname hstreamed hsize rfl htail]
    cases hanswer : answerOf nameBytes es with
    | none =>
      refine iff_of_true (by simp) fun nameBytes' value after hname' hanswer' => ?_
      obtain rfl := Option.some.inj (hname.symm.trans hname')
      rw [hanswer] at hanswer'
      exact nomatch hanswer'
    | some answer =>
      obtain ⟨value, after⟩ := answer
      obtain ⟨-, before, hes, hbefore⟩ := answerOf_eq_some hanswer
      have hsound : sound es tail = true ↔ (∀ e ∈ after, ¬ e.Failed) ∧ tail = [] := by
        rw [sound_iff, hes, List.forall_mem_append, and_iff_right hbefore]
      constructor
      · intro h nameBytes' value' after' hname' hanswer'
        obtain rfl := Option.some.inj (hname.symm.trans hname')
        obtain ⟨rfl, rfl⟩ := Prod.mk.inj (Option.some.inj (hanswer.symm.trans hanswer'))
        by_contra hnot
        rw [if_neg (mt hsound.mp hnot)] at h
        exact nomatch h
      · intro h
        rw [if_pos (hsound.mpr (h nameBytes value after hname hanswer))]

end Reply

/-! ## An answer before an error -/

def unicode : UnicodeData := ⟨fun _ => false, fun _ => none⟩

def debugFlags : Element where
  name := ascii "dbug"
  flags := 0
  data := be32 0x3000
  length_name := by decide
  flags_lt := by decide
  length_data := by decide

def failedElement : Element where
  name := ascii "acRB"
  flags := 1
  data := be32 0xFFFFFFF6
  length_name := by decide
  flags_lt := by decide
  length_data := by decide

/-- The header of a body with the elements. -/
def sizedHeader (es : List Element) : AcpMessageHeader :=
  { version := acpVersion
    flags := 4
    command := commandGetprop
    errorCode := 0
    bodySize := (encodeElements es).length
    bodyChecksum := adler32I32 (encodeElements es) }

def streamedHeader : AcpMessageHeader := { sizedHeader [] with bodySize := -1 }

def sealed (header : AcpMessageHeader) : Bytes := composeHeader header (zeros 32)

theorem getPropertyInt_arrival_answer :
    (getPropertyInt unicode "dbug"
        ⟨sealed (sizedHeader [debugFlags]) ++ (encodeElements [debugFlags] ++ []), none, []⟩).toOption =
      (getPropertyInt unicode "dbug"
        ⟨sealed streamedHeader ++ (encodeElements [debugFlags] ++ []), none, [2, 0]⟩).toOption := by
  refine (getPropertyInt_arrival_iff unicode "dbug" [debugFlags] (Or.inl (by decide))
    (sizedHeader [debugFlags]) streamedHeader ?_ ?_ ?_ ?_ (Or.inl rfl) none none [] [2, 0]).2 ?_
  · exact ⟨by decide +kernel, rfl, rfl⟩
  · decide
  · decide +kernel
  · exact ⟨by decide +kernel, rfl, rfl⟩
  · intro nameBytes value after hname hanswer
    obtain rfl : ascii "dbug" = nameBytes := Option.some.inj (Eq.trans (by decide +kernel) hname)
    obtain ⟨-, rfl⟩ := Prod.mk.inj (Option.some.inj (Eq.trans
      (show some (0x3000, []) = answerOf (ascii "dbug") [debugFlags] by decide +kernel) hanswer))
    simp

/-- Of the elements of a reply, the one asked for is answered, and one behind it has failed. -/
theorem getPropertyInt_differs :
    ¬ ∀ (u : UnicodeData) (name : String) (es : List Element) (sizedBytes streamedBytes : Bytes)
      (sized streamed : AcpMessageHeader), Accepted sizedBytes sized →
      sized.bodySize = ((encodeElements es).length : Int) →
      sized.bodyChecksum = adler32I32 (encodeElements es) → Accepted streamedBytes streamed →
      streamed.bodySize = -1 ∨ streamed.bodySize = 0 →
      (getPropertyInt u name ⟨sizedBytes ++ encodeElements es, none, []⟩).toOption =
        (getPropertyInt u name ⟨streamedBytes ++ encodeElements es, none, []⟩).toOption := by
  intro h
  have heq := h unicode "dbug" [debugFlags, failedElement]
    (sealed (sizedHeader [debugFlags, failedElement])) (sealed streamedHeader)
    (sizedHeader [debugFlags, failedElement]) streamedHeader ⟨by decide +kernel, rfl, rfl⟩ rfl rfl
    ⟨by decide +kernel, rfl, rfl⟩ (Or.inl rfl)
  exact absurd heq (by decide +kernel)

end TimeCapsule.Acp
